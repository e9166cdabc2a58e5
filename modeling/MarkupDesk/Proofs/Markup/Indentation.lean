import Mathlib
import MarkupDesk.Proofs.Markup.Lines

/-!
# The indentation of each line

`format` follows the depth from line to line and stops it at the margin.  So the depth of a
line is not the number of start tags before it less the number of end tags: what was lost at
the margin is not made up for later.  It is the largest such difference over the stretches of
tags that end at this line, and nothing if they are all negative (`depthOf`).

`depthOf_add_one` shows that these maxima follow each other as the depths of the layout do,
and `placed_depthAfter` that they are these depths.  `format_rows` gives the formatted
document tag by tag, whatever the document is.
-/
namespace MarkupDesk.Markup

/-! ## The largest climb up to a line -/

/-- How far the tags from position `k` on lead inwards, up to the line of position `i`: the
start tags before this line, less the end tags up to this line and on it. -/
def climb (kinds : List Kind) (k i : Nat) : Int :=
  ((kinds.take i).drop k).count .opening - ((kinds.take (i + 1)).drop k).count .closing

/-- The depth of the line of position `i`: the largest climb up to it, but not less than
zero. -/
def depthOf (kinds : List Kind) (i : Nat) : Nat :=
  (Finset.range (i + 1)).sup fun k => (climb kinds k i).toNat

theorem climb_le_depthOf (kinds : List Kind) {k i : Nat} (h : k ≤ i) :
    climb kinds k i ≤ depthOf kinds i := by
  have hsup : (climb kinds k i).toNat ≤ depthOf kinds i :=
    Finset.le_sup (f := fun k => (climb kinds k i).toNat)
      (Finset.mem_range.mpr (Nat.lt_succ_of_le h))
  omega

/-- The depth is a climb, or zero. -/
theorem depthOf_attained (kinds : List Kind) (i : Nat) :
    depthOf kinds i = 0 ∨ ∃ k ≤ i, climb kinds k i = depthOf kinds i := by
  obtain ⟨k, hk, hsup⟩ := Finset.exists_mem_eq_sup (Finset.range (i + 1))
    ⟨0, Finset.mem_range.mpr (Nat.succ_pos i)⟩ (fun k => (climb kinds k i).toNat)
  have hmax : depthOf kinds i = (climb kinds k i).toNat := hsup
  by_cases hpos : 0 < climb kinds k i
  · exact .inr ⟨k, Nat.lt_succ_iff.mp (Finset.mem_range.mp hk), by omega⟩
  · exact .inl (by omega)

/-- What no climb exceeds, and what is a climb or zero, is the depth. -/
theorem depthOf_eq {kinds : List Kind} {i e : Nat} (hle : ∀ k ≤ i, climb kinds k i ≤ e)
    (hattained : e = 0 ∨ ∃ k ≤ i, climb kinds k i = e) : depthOf kinds i = e := by
  apply Nat.le_antisymm
  · apply Finset.sup_le
    intro k hk
    have := hle k (Nat.lt_succ_iff.mp (Finset.mem_range.mp hk))
    omega
  · rcases hattained with rfl | ⟨k, hk, hclimb⟩
    · exact Nat.zero_le _
    · have := climb_le_depthOf kinds hk
      omega

/-! ## From one line to the next -/

/-- How much further in the lines after a tag of this kind stand. -/
def Kind.inward : Kind → Nat
  | .opening => 1
  | _ => 0

/-- How much further out a tag of this kind stands than the line before left it. -/
def Kind.outward : Kind → Nat
  | .closing => 1
  | _ => 0

theorem Kind.inward_cases (k : Kind) : k.inward = 0 ∨ (k.inward = 1 ∧ k.outward = 0) := by
  cases k <;> simp [inward, outward]

theorem Kind.outward_le_one (k : Kind) : k.outward ≤ 1 := by
  cases k <;> simp [outward]

theorem depthAfter_eq (depth : Nat) (k : Kind) : Chars.depthAfter depth k = depth + k.inward := by
  cases k <;> rfl

theorem depthAt_eq (depth : Nat) (k : Kind) : Chars.depthAt depth k = depth - k.outward := by
  cases k <;> rfl

theorem count_take_add_one (kinds : List Kind) (kind : Kind) {k i : Nat} {here : Kind}
    (hk : k ≤ i) (hhere : kinds[i]? = some here) :
    ((kinds.take (i + 1)).drop k).count kind =
      ((kinds.take i).drop k).count kind + if here = kind then 1 else 0 := by
  obtain ⟨hi, _⟩ := List.getElem?_eq_some_iff.mp hhere
  have hlength : k ≤ (kinds.take i).length := by
    rw [List.length_take]
    omega
  rw [List.take_add_one, hhere, List.drop_append_of_le_length hlength, List.count_append]
  by_cases h : here = kind <;> simp [h]

section Steps

variable {kinds : List Kind} {i : Nat} {here next : Kind}

theorem climb_add_one {k : Nat} (hk : k ≤ i) (hhere : kinds[i]? = some here)
    (hnext : kinds[i + 1]? = some next) :
    climb kinds k (i + 1) = climb kinds k i + here.inward - next.outward := by
  have hk' : k ≤ i + 1 := by omega
  have hinward : here.inward = if here = .opening then 1 else 0 := by cases here <;> rfl
  have houtward : next.outward = if next = .closing then 1 else 0 := by cases next <;> rfl
  rw [climb, climb, count_take_add_one kinds .opening hk hhere,
    count_take_add_one kinds .closing hk' hnext, hinward, houtward]
  omega

/-- The climb that begins on a line: only the tag of the line counts. -/
theorem climb_self (hhere : kinds[i]? = some here) : climb kinds i i = -here.outward := by
  have hnone : (kinds.take i).drop i = [] := List.drop_eq_nil_of_le (List.length_take_le ..)
  have houtward : here.outward = if here = .closing then 1 else 0 := by cases here <;> rfl
  rw [climb, count_take_add_one kinds .closing (Nat.le_refl i) hhere, hnone, houtward]
  simp only [List.count_nil]
  omega

theorem depthOf_zero (kinds : List Kind) : depthOf kinds 0 = 0 := by
  refine depthOf_eq (fun k hk => ?_) (.inl rfl)
  have hnone : (kinds.take 0).drop k = [] := by rw [List.take_zero, List.drop_nil]
  rw [climb, hnone, List.count_nil]
  omega

/-- **The largest climbs follow each other as the depths of the layout do.** -/
theorem depthOf_add_one (hhere : kinds[i]? = some here) (hnext : kinds[i + 1]? = some next) :
    depthOf kinds (i + 1) = Chars.depthAt (Chars.depthAfter (depthOf kinds i) here) next := by
  rw [depthAfter_eq, depthAt_eq]
  have hself := climb_self hhere
  have hstep {k : Nat} (hk : k ≤ i) := climb_add_one hk hhere hnext
  apply depthOf_eq
  · intro k hk
    rcases Nat.lt_or_ge i k with hlast | hearlier
    · obtain rfl : k = i + 1 := by omega
      rw [climb_self hnext]
      omega
    · have := climb_le_depthOf kinds hearlier
      rw [hstep hearlier]
      omega
  · have hnext_le := next.outward_le_one
    rcases depthOf_attained kinds i with hzero | ⟨k, hk, hclimb⟩
    · rcases here.inward_cases with hnone | ⟨hinward, houtward⟩
      · left
        omega
      · -- At the margin no climb counts but the one that begins with this start tag.
        refine .inr ⟨i, Nat.le_succ i, ?_⟩
        rw [hstep (Nat.le_refl i), hself, hzero]
        omega
    · by_cases hmargin : depthOf kinds i + here.inward < next.outward
      · left
        omega
      · refine .inr ⟨k, Nat.le_succ_of_le hk, ?_⟩
        rw [hstep hk, hclimb]
        omega

/-- **After a line at the margin that opens nothing, the depth starts anew.**  The lines after
it stand as if the document began there. -/
theorem depthOf_restart (hhere : kinds[i]? = some here) (hopening : here ≠ .opening)
    (hmargin : depthOf kinds i = 0) {j : Nat} (hj : i + 1 + j < kinds.length) :
    depthOf kinds (i + 1 + j) = depthOf (kinds.drop (i + 1)) j := by
  have hkind (n : Nat) (hn : i + 1 + n < kinds.length) :
      kinds[i + 1 + n]? = some kinds[i + 1 + n] ∧
        (kinds.drop (i + 1))[n]? = some kinds[i + 1 + n] := by
    rw [List.getElem?_drop]
    exact ⟨List.getElem?_eq_getElem hn, List.getElem?_eq_getElem hn⟩
  induction j with
  | zero =>
    have hafter : Chars.depthAfter 0 here = 0 := by
      rw [depthAfter_eq]
      cases here with
      | opening => exact absurd rfl hopening
      | _ => rfl
    rw [Nat.add_zero, depthOf_zero, depthOf_add_one hhere (hkind 0 hj).1, hmargin, hafter,
      Chars.depthAt_zero]
  | succ j ih =>
    have hlt : i + 1 + j < kinds.length := by omega
    rw [← Nat.add_assoc, depthOf_add_one (hkind j hlt).1 (hkind (j + 1) hj).1,
      depthOf_add_one (hkind j hlt).2 (hkind (j + 1) hj).2, ih hlt]

end Steps

/-! ## The lines of a document -/

/-- The tags after the one at the end of `before`, each with the depth of its line. -/
theorem placed_depthAfter (before : List (List Char)) (here : List Char)
    (rest : List (List Char)) {depth : Nat}
    (hdepth : depthOf ((before ++ here :: rest).map Chars.kind) before.length = depth) :
    Chars.placed (Chars.depthAfter depth (Chars.kind here)) rest =
      (rest.zipIdx (before.length + 1)).map fun t =>
        (depthOf ((before ++ here :: rest).map Chars.kind) t.2, t.1) := by
  induction rest generalizing before here depth with
  | nil => rfl
  | cons next rest ih =>
    have hnext : depthOf ((before ++ here :: next :: rest).map Chars.kind) (before.length + 1) =
        Chars.depthAt (Chars.depthAfter depth (Chars.kind here)) (Chars.kind next) := by
      rw [← hdepth]
      apply depthOf_add_one <;> simp
    have hassoc : before ++ here :: next :: rest = (before ++ [here]) ++ next :: rest := by simp
    have hlength : (before ++ [here]).length = before.length + 1 := by simp
    rw [Chars.placed_cons, List.zipIdx_cons, List.map_cons, ← hnext, hassoc, ← hlength,
      ih (before ++ [here]) next rfl]

/-- The kinds of the tags of a document. -/
def kinds (document : String) : List Kind := (tags document).map Tag.kind

theorem kinds_eq (document : String) :
    kinds document = (Chars.pieces document.toList).map Chars.kind := by
  rw [kinds, tags, List.map_map]
  congr 1
  funext s
  simp [Tag.kind]

/-- The lines as they are written, before the brackets at the two ends are cut off. -/
def written (document : String) : String :=
  String.ofList (Chars.lines 0 (Chars.pieces document.toList))

/-- The cut takes off the first bracket, and the last one with its line end. -/
theorem written_eq (document : String) :
    written document = "<" ++ format document ++ ">\r\n" := by
  obtain ⟨first, rest, h⟩ :=
    List.exists_cons_of_ne_nil (Chars.areTags_pieces document.toList).nonempty
  rw [← String.toList_inj]
  have hlines : (written document).toList =
      '<' :: (Chars.format document.toList ++ '>' :: lineEnding.toList) := by
    rw [written, String.toList_ofList, Chars.format_eq_woven h, h, Chars.lines_eq_flatMap,
      Chars.placed_cons, Chars.depthAt_zero, List.flatMap_cons, Chars.line_zero_append]
  simp [hlines, lineEnding]

theorem utf8ByteSize_written (document : String) :
    (written document).utf8ByteSize = 1 + (format document).utf8ByteSize + 3 := by
  have hopen : "<".utf8ByteSize = 1 := by decide
  have hclose : ">\r\n".utf8ByteSize = 3 := by decide
  rw [written_eq, String.utf8ByteSize_append, String.utf8ByteSize_append, hopen, hclose]

/-- Counted in bytes, both cuts fall between characters. -/
theorem isValid_cuts (document : String) :
    String.Pos.Raw.IsValid (written document) ⟨1⟩ ∧
      String.Pos.Raw.IsValid (written document) ⟨(written document).utf8ByteSize - 3⟩ := by
  rw [String.Pos.Raw.isValid_iff_exists_append, String.Pos.Raw.isValid_iff_exists_append]
  refine ⟨⟨"<", format document ++ ">\r\n", ?_, by decide⟩,
    ⟨"<" ++ format document, ">\r\n", written_eq document, ?_⟩⟩
  · rw [written_eq, String.append_assoc]
  · have hopen : "<".utf8ByteSize = 1 := by decide
    rw [String.Pos.Raw.ext_iff, String.byteIdx_rawEndPos, String.utf8ByteSize_append,
      utf8ByteSize_written, hopen]
    exact Nat.add_sub_cancel ..

/-- The line of a tag after the first one, with the boundary before it. -/
def Tag.row (depth : Nat) (t : Tag) : String :=
  ">\r\n" ++ String.ofList (List.replicate (2 * depth) ' ') ++ "<" ++ t.text

theorem toList_row (depth : Nat) (text : List Char) :
    (Tag.row depth ⟨String.ofList text⟩).toList = (Chars.hanging (depth, text)).chars := by
  simp [Tag.row, Chars.hanging, Chars.Link.chars, lineEnding, Chars.indent_eq_replicate]

/-- The formatted document is its first tag, followed by the lines of the others. -/
theorem exists_format_eq_rows (x : String) :
    ∃ first rest, tags x = first :: rest ∧
      format x = first.text ++ String.join
        ((rest.zipIdx 1).map fun t => t.1.row (depthOf (kinds x) t.2)) := by
  obtain ⟨first, rest, h⟩ :=
    List.exists_cons_of_ne_nil (Chars.areTags_pieces x.toList).nonempty
  refine ⟨⟨String.ofList first⟩, rest.map fun s => ⟨String.ofList s⟩, by rw [tags, h]; rfl, ?_⟩
  have hplaced := placed_depthAfter [] first rest (depthOf_zero _)
  rw [kinds_eq, h, ← String.toList_inj, toList_format, Chars.format_eq_woven h, hplaced]
  simp only [Chars.woven, String.toList_append, String.toList_join, List.zipIdx_map,
    List.flatMap_map, String.toList_ofList]
  refine congrArg (first ++ ·) ?_
  simp only [Prod.map, toList_row]
  rfl

/-- **Every document, well-formed or not, is laid out tag by tag at the depths of the largest
climbs.**  The first tag stands at the margin, and before each other one there is the rest of
the boundary, a line end and the indentation.  What is cut off at the two ends is one bracket,
and one bracket with a line end; they are always there.  After an end tag up to which nothing
climbs, such as one that ends nothing, the depths are those of the tags that follow alone. -/
theorem format_rows (x : String) :
    (∃ first rest, tags x = first :: rest ∧
      format x = first.text ++ String.join
        ((rest.zipIdx 1).map fun t => t.1.row (depthOf (kinds x) t.2))) ∧
    (written x = "<" ++ format x ++ ">\r\n" ∧
      ">\r\n".utf8ByteSize + 1 ≤ (written x).utf8ByteSize ∧
      String.Pos.Raw.IsValid (written x) ⟨1⟩ ∧
      String.Pos.Raw.IsValid (written x) ⟨(written x).utf8ByteSize - 3⟩) ∧
    ∀ i, (kinds x)[i]? = some .closing → (∀ k ≤ i, climb (kinds x) k i ≤ 0) →
      depthOf (kinds x) i = 0 ∧
        ∀ j, i + 1 + j < (kinds x).length →
          depthOf (kinds x) (i + 1 + j) = depthOf ((kinds x).drop (i + 1)) j := by
  refine ⟨exists_format_eq_rows x, ⟨written_eq x, ?_, isValid_cuts x⟩, ?_⟩
  · have hclose : ">\r\n".utf8ByteSize = 3 := by decide
    rw [utf8ByteSize_written, hclose]
    omega
  · intro i hclosing hclimb
    have hmargin : depthOf (kinds x) i = 0 := depthOf_eq (by exact_mod_cast hclimb) (.inl rfl)
    exact ⟨hmargin, fun j hj => depthOf_restart hclosing (by decide) hmargin hj⟩

/-- An end tag too many, and an element after it, whose depth begins anew. -/
theorem format_rows_stray :
    let x := "<r></r></x><c><d/></c>"
    (kinds x)[2]? = some .closing ∧ (∀ k ≤ 2, climb (kinds x) k 2 < 0) ∧
      depthOf (kinds x) 4 = depthOf [.opening, .selfClosing, .closing] 1 ∧
      format x = "<r>\r\n</r>\r\n</x>\r\n<c>\r\n  <d/>\r\n</c>" := by
  intro x
  have hkinds : kinds x = [.opening, .closing, .closing, .opening, .selfClosing, .closing] := by
    decide
  have hclosing : (kinds x)[2]? = some .closing := by rw [hkinds]; rfl
  have hclimb : ∀ k ≤ 2, climb (kinds x) k 2 < 0 := by
    rw [hkinds]
    decide
  have hlater := ((format_rows x).2.2 2 hclosing fun k hk => (hclimb k hk).le).2 1
    (by rw [hkinds]; decide)
  refine ⟨hclosing, hclimb, ?_, by decide⟩
  rw [hlater, hkinds]
  rfl

end MarkupDesk.Markup
