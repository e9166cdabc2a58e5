import MarkupDesk.Proofs.Text.Edges

/-!
# Positions in a text

`keep` takes the characters of a text at the positions that have a property.  A blank
at some position lies in exactly one longest run of blanks (`IsRunAt`); what stands
directly before and after this run is the last character before the position that is
no blank and the first one after it (`IsRunAt.solidBefore?_eq`,
`IsRunAt.solidFrom?_eq`).  These two are found without looking for the ends of the run.
-/
namespace MarkupDesk.Text

/-! ## Characters at chosen positions -/

/-- The characters at the positions with this property, in their order. -/
def keep (p : Nat → Prop) [DecidablePred p] (s : List Char) : List Char :=
  (s.zipIdx.filter fun t => decide (p t.2)).map Prod.fst

section Keep
variable {p q : Nat → Prop} [DecidablePred p] [DecidablePred q]

@[simp] theorem keep_nil : keep p [] = [] := rfl

theorem keep_cons (c : Char) (s : List Char) :
    keep p (c :: s) =
      if p 0 then c :: keep (fun i => p (i + 1)) s else keep (fun i => p (i + 1)) s := by
  have htail : ((s.zipIdx 1).filter fun t => decide (p t.2)).map Prod.fst =
      keep (fun i => p (i + 1)) s := by
    rw [List.zipIdx_succ, List.filter_map, List.map_map]
    rfl
  rw [keep, List.zipIdx_cons, List.filter_cons, ← htail]
  by_cases h : p 0 <;> simp [h]

theorem keep_append (s t : List Char) :
    keep p (s ++ t) = keep p s ++ keep (fun i => p (s.length + i)) t := by
  induction s generalizing p with
  | nil => simp
  | cons c s ih =>
    have hshift (i : Nat) : (c :: s).length + i = s.length + i + 1 := by
      rw [List.length_cons]
      omega
    simp only [List.cons_append, keep_cons, ih, hshift]
    split <;> rfl

theorem keep_congr {s : List Char} (h : ∀ i, i < s.length → (p i ↔ q i)) :
    keep p s = keep q s := by
  induction s generalizing p q with
  | nil => rfl
  | cons c s ih =>
    have htail : keep (fun i => p (i + 1)) s = keep (fun i => q (i + 1)) s :=
      ih fun i hi => h (i + 1) (Nat.succ_lt_succ hi)
    have hhead : p 0 ↔ q 0 := h 0 (Nat.succ_pos _)
    rw [keep_cons, keep_cons, htail]
    simp only [hhead]

theorem keep_eq_self {s : List Char} (h : ∀ i, i < s.length → p i) : keep p s = s := by
  induction s generalizing p with
  | nil => rfl
  | cons c s ih =>
    rw [keep_cons, if_pos (h 0 (Nat.succ_pos _)), ih fun i hi => h (i + 1) (Nat.succ_lt_succ hi)]

theorem keep_eq_nil {s : List Char} (h : ∀ i, i < s.length → ¬ p i) : keep p s = [] := by
  induction s generalizing p with
  | nil => rfl
  | cons c s ih =>
    rw [keep_cons, if_neg (h 0 (Nat.succ_pos _)), ih fun i hi => h (i + 1) (Nat.succ_lt_succ hi)]

end Keep

/-! ## Characters that are no blanks -/

/-- The last character before a position that is no blank. -/
def solidBefore? (s : List Char) (i : Nat) : Option Char :=
  (s.take i).reverse.find? fun c => !isBlank c

/-- The first character from a position on that is no blank. -/
def solidFrom? (s : List Char) (i : Nat) : Option Char :=
  (s.drop i).find? fun c => !isBlank c

/-! Blank texts stay blank when they are cut. -/

section Blank
variable {b : List Char} (hb : b.all isBlank = true)

include hb

theorem all_isBlank_take (n : Nat) : (b.take n).all isBlank = true :=
  List.all_eq_true.mpr fun c hc => List.all_eq_true.mp hb c (List.mem_of_mem_take hc)

theorem all_isBlank_drop (n : Nat) : (b.drop n).all isBlank = true :=
  List.all_eq_true.mpr fun c hc => List.all_eq_true.mp hb c (List.mem_of_mem_drop hc)

theorem any_isBlank_getElem? {i : Nat} (hi : i < b.length) : b[i]?.any isBlank = true := by
  rw [List.getElem?_eq_getElem hi, Option.any_some]
  exact List.all_eq_true.mp hb _ (List.getElem_mem hi)

end Blank

theorem find?_solid_of_blank {b : List Char} (hb : b.all isBlank = true) :
    b.find? (fun c => !isBlank c) = none := by
  rw [List.find?_eq_none]
  intro c hc
  simp [List.all_eq_true.mp hb c hc]

theorem head?_dropWhile_isBlank (s : List Char) :
    (s.dropWhile isBlank).head? = s.find? fun c => !isBlank c := by
  induction s with
  | nil => rfl
  | cons c s ih => cases h : isBlank c <;> simp [h, ih]

theorem find?_solid_eq_head? {s : List Char} (h : ¬ StartsBlank s) :
    s.find? (fun c => !isBlank c) = s.head? := by
  rw [← head?_dropWhile_isBlank, dropWhile_eq_self_iff.mpr h]

theorem solidBefore?_cons_succ (c : Char) (s : List Char) (i : Nat) :
    solidBefore? (c :: s) (i + 1) =
      (solidBefore? s i).or (if isBlank c then none else some c) := by
  rw [solidBefore?, List.take_succ_cons, List.reverse_cons, List.find?_append, ← solidBefore?]
  cases h : isBlank c <;> simp [h]

@[simp] theorem solidFrom?_cons_succ (c : Char) (s : List Char) (i : Nat) :
    solidFrom? (c :: s) (i + 1) = solidFrom? s i := rfl

/-- Within the blanks that a text begins with nothing else comes before. -/
theorem solidBefore?_eq_none_of_blank {b : List Char} (hb : b.all isBlank = true) (s : List Char)
    {i : Nat} (hi : i ≤ b.length) : solidBefore? (b ++ s) i = none := by
  rw [solidBefore?, List.take_append_of_le_length hi]
  exact find?_solid_of_blank (by rw [List.all_reverse, all_isBlank_take hb])

theorem solidBefore?_of_blank_append {b : List Char} (hb : b.all isBlank = true)
    (s : List Char) (i : Nat) : solidBefore? (b ++ s) (b.length + i) = solidBefore? s i := by
  have hnone : b.reverse.find? (fun c => !isBlank c) = none :=
    find?_solid_of_blank (by rwa [List.all_reverse])
  rw [solidBefore?, List.take_length_add_append, List.reverse_append, List.find?_append, hnone,
    Option.or_none, ← solidBefore?]

theorem solidBefore?_append_of_le {s : List Char} {i : Nat} (hi : i ≤ s.length) (t : List Char) :
    solidBefore? (s ++ t) i = solidBefore? s i := by
  rw [solidBefore?, List.take_append_of_le_length hi, ← solidBefore?]

theorem solidFrom?_length_add (s t : List Char) (i : Nat) :
    solidFrom? (s ++ t) (s.length + i) = solidFrom? t i := by
  rw [solidFrom?, List.drop_length_add_append, ← solidFrom?]

theorem solidFrom?_append_of_blank {e : List Char} (he : e.all isBlank = true)
    (s : List Char) (i : Nat) : solidFrom? (s ++ e) i = solidFrom? s i := by
  have hnone : (e.drop (i - s.length)).find? (fun c => !isBlank c) = none :=
    find?_solid_of_blank (all_isBlank_drop he _)
  rw [solidFrom?, List.drop_append, List.find?_append, hnone, Option.or_none, ← solidFrom?]

theorem solidFrom?_eq_none_of_blank {s : List Char} (hs : s.all isBlank = true) (i : Nat) :
    solidFrom? s i = none :=
  find?_solid_of_blank (all_isBlank_drop hs i)

/-- Where nothing but blanks stands before a position, what comes first from there on comes
first in the whole text. -/
theorem solidFrom?_of_solidBefore?_eq_none {s : List Char} {i : Nat}
    (h : solidBefore? s i = none) : solidFrom? s i = solidFrom? s 0 := by
  have hnone : (s.take i).find? (fun c => !isBlank c) = none := by
    rw [solidBefore?, List.find?_eq_none] at h
    exact List.find?_eq_none.mpr fun c hc => h c (List.mem_reverse.mpr hc)
  have hsplit : solidFrom? s 0 = (s.take i ++ s.drop i).find? fun c => !isBlank c := by
    rw [List.take_append_drop]
    rfl
  rw [hsplit, List.find?_append, hnone, Option.none_or, solidFrom?]

/-! ## Runs of blanks -/

/-- The text has a run of blanks around this position, which is as long as it can be, with
`before` in front of it and `after` behind. -/
structure IsRunAt (s : List Char) (i : Nat) (before run after : List Char) : Prop where
  text : s = before ++ run ++ after
  blank : run.all isBlank = true
  start : ¬ EndsBlank before
  stop : ¬ StartsBlank after
  le : before.length ≤ i
  lt : i < before.length + run.length

namespace IsRunAt

variable {s before run after : List Char} {i : Nat}

theorem isBlank_getElem? (h : IsRunAt s i before run after) : s[i]?.any isBlank = true := by
  have hlt : i - before.length < run.length := by
    have := h.le
    have := h.lt
    omega
  rw [h.text, List.append_assoc, List.getElem?_append_right h.le,
    List.getElem?_append_left hlt]
  exact any_isBlank_getElem? h.blank hlt

/-- What is left of the run on one side of the position is blank. -/
theorem solidBefore?_eq (h : IsRunAt s i before run after) :
    solidBefore? s i = before.getLast? := by
  have hblank : ((run.take (i - before.length)).reverse).all isBlank = true := by
    rw [List.all_reverse, all_isBlank_take h.blank]
  have hstart : ¬ StartsBlank before.reverse := by
    rw [← endsBlank_iff_startsBlank_reverse]
    exact h.start
  have hle : i - before.length ≤ run.length := by
    have := h.lt
    omega
  rw [solidBefore?, h.text, List.append_assoc, List.take_append, List.take_of_length_le h.le,
    List.take_append_of_le_length hle, List.reverse_append, List.find?_append,
    find?_solid_of_blank hblank, Option.none_or, find?_solid_eq_head? hstart, List.head?_reverse]

theorem solidFrom?_eq (h : IsRunAt s i before run after) : solidFrom? s i = after.head? := by
  have hblank : (run.drop (i - before.length)).all isBlank = true := all_isBlank_drop h.blank _
  have hle : i - before.length ≤ run.length := by
    have := h.lt
    omega
  rw [solidFrom?, h.text, List.append_assoc, List.drop_append, List.drop_eq_nil_of_le h.le,
    List.nil_append, List.drop_append_of_le_length hle, List.find?_append,
    find?_solid_of_blank hblank, Option.none_or, find?_solid_eq_head? h.stop]

/-- A run that nothing stands in front of begins the text. -/
theorem startsBlank (h : IsRunAt s i [] run after) : StartsBlank s := by
  have hlt := h.lt
  rw [List.length_nil] at hlt
  obtain ⟨c, rest, rfl⟩ := List.exists_cons_of_length_pos (l := run) (by omega)
  refine ⟨c, ?_, List.all_eq_true.mp h.blank c (List.mem_cons_self ..)⟩
  rw [h.text]
  rfl

/-- A run that nothing stands behind ends the text. -/
theorem endsBlank (h : IsRunAt s i before run []) : EndsBlank s := by
  have hle := h.le
  have hlt := h.lt
  have hne : run ≠ [] := List.ne_nil_of_length_pos (by omega)
  refine ⟨run.getLast hne, ?_, List.all_eq_true.mp h.blank _ (List.getLast_mem hne)⟩
  rw [h.text, List.append_nil, List.getLast?_append, List.getLast?_eq_some_getLast hne]
  rfl

end IsRunAt

/-- **Around every blank there is a run that is as long as it can be.** -/
theorem exists_isRunAt {s : List Char} {i : Nat} (h : s[i]?.any isBlank = true) :
    ∃ before run after, IsRunAt s i before run after := by
  obtain ⟨c, hc, hblank⟩ := (Option.any_eq_true _ _).mp h
  obtain ⟨hi, rfl⟩ := List.getElem?_eq_some_iff.mp hc
  obtain ⟨e, he, hbefore⟩ := exists_trimEnd (s.take i)
  have hafter : s.drop i = s[i] :: s.drop (i + 1) := List.drop_eq_getElem_cons hi
  refine ⟨trimEnd (s.take i), e ++ (s.drop i).takeWhile isBlank, (s.drop i).dropWhile isBlank,
    ?_, ?_, not_endsBlank_trimEnd _, not_startsBlank_dropWhile _, ?_, ?_⟩
  · rw [← List.append_assoc, ← hbefore, List.append_assoc, List.takeWhile_append_dropWhile,
      List.take_append_drop]
  · rw [List.all_append, he, List.all_takeWhile]
    rfl
  · have hprefix := (trimEnd_isPrefix (s.take i)).length_le
    have htake := List.length_take_le i s
    omega
  · have hlength := congrArg List.length hbefore
    rw [List.length_append, List.length_take_of_le (Nat.le_of_lt hi)] at hlength
    rw [hafter, List.takeWhile_cons_of_pos hblank, List.length_append, List.length_cons]
    omega

end MarkupDesk.Text
