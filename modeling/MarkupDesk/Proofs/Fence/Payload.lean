import MarkupDesk.Fence
import MarkupDesk.Proofs.Text.Edges
import MarkupDesk.Proofs.Text.Search

/-!
# What is taken off with a fence

Of a text in a fence the payload is left, whatever is in it (`strip_wrap`): the lines of the
fence are the first and the last, and those in between are not looked at.  The two lines are
taken off one without the other, so a text may lose one of them only.  But it loses nothing
else: in every text what is left stands between an opening line and a closing line, or without
them, and blanks (`exists_strip`).  A text that does not begin with a fence loses blanks only
(`strip_of_not_isPrefix`).
-/
namespace MarkupDesk

open Text

namespace Fence

/-- A payload in a fence, with a tag in the opening line. -/
def wrap (tag payload : List Char) : List Char := mark ++ tag ++ '\n' :: (payload ++ '\n' :: mark)

/-! ## The two lines -/

theorem dropOpening_append (opening s : List Char) :
    dropOpening opening (opening ++ '\n' :: s) = s := by
  have hafter : after? (opening ++ ['\n']) (opening ++ '\n' :: s) = some s :=
    after?_eq_some_iff.mpr (by simp)
  rw [dropOpening, hafter, Option.getD_some]

theorem dropClosing_append (s : List Char) : dropClosing (s ++ '\n' :: mark) = s := by
  rw [dropClosing, before?_append, Option.getD_some]

/-- What is dropped in front is the opening line, if anything is. -/
theorem exists_dropOpening (opening s : List Char) :
    ∃ line, (line = [] ∨ line = opening ++ ['\n']) ∧ s = line ++ dropOpening opening s := by
  cases h : after? (opening ++ ['\n']) s with
  | none => exact ⟨[], .inl rfl, by rw [dropOpening, h]; rfl⟩
  | some rest =>
    refine ⟨opening ++ ['\n'], .inr rfl, ?_⟩
    rw [dropOpening, h, Option.getD_some]
    exact after?_eq_some_iff.mp h

/-- What is dropped at the end is the closing line, if anything is. -/
theorem exists_dropClosing (s : List Char) :
    ∃ line, (line = [] ∨ line = '\n' :: mark) ∧ s = dropClosing s ++ line := by
  cases h : before? ('\n' :: mark) s with
  | none => exact ⟨[], .inl rfl, by rw [dropClosing, h]; simp⟩
  | some rest =>
    refine ⟨'\n' :: mark, .inr rfl, ?_⟩
    rw [dropClosing, h, Option.getD_some]
    exact before?_eq_some_iff.mp h

/-- A text that ends with a blank has no closing line. -/
theorem dropClosing_of_endsBlank {s : List Char} (h : EndsBlank s) : dropClosing s = s := by
  obtain ⟨line, rfl | rfl, hs⟩ := exists_dropClosing s
  · rw [List.append_nil] at hs
    exact hs.symm
  · rw [hs, endsBlank_append_iff (List.cons_ne_nil _ _)] at h
    exact absurd h (by decide)

/-! ## Texts with a fence -/

variable {language tag : List Char}

/-- A text that begins with an opening line, tagged or not, loses it. -/
theorem strip_opened (hlanguage : '\n' ∉ language) (htag : tag = language ∨ tag = [])
    (s : List Char) : strip language (mark ++ tag ++ '\n' :: s) = trim (dropClosing s) := by
  have htagged : strip language (mark ++ language ++ '\n' :: s) = trim (dropClosing s) := by
    have hprefix : (mark ++ language).isPrefixOf (mark ++ language ++ '\n' :: s) = true :=
      List.isPrefixOf_iff_prefix.mpr (List.prefix_append ..)
    rw [strip, if_pos hprefix, dropOpening_append]
  obtain rfl | rfl := htag
  · exact htagged
  · cases language with
    | nil => exact htagged
    | cons c rest =>
      -- The line ends where the tag would have to begin.
      have hc : ¬ c = '\n' := fun h => hlanguage (h ▸ List.mem_cons_self)
      have hother : (mark ++ c :: rest).isPrefixOf (mark ++ [] ++ '\n' :: s) = false := by
        simp [mark, List.isPrefixOf, hc]
      have hbare : mark.isPrefixOf (mark ++ [] ++ '\n' :: s) = true := rfl
      rw [strip, hother, hbare, if_neg Bool.false_ne_true, if_pos rfl, List.append_nil,
        dropOpening_append]

/-- **The payload of a fence is what is left of it**, whatever it contains. -/
theorem strip_wrap (hlanguage : '\n' ∉ language) (htag : tag = language ∨ tag = [])
    (payload : List Char) : strip language (wrap tag payload) = trim payload := by
  rw [wrap, strip_opened hlanguage htag, dropClosing_append]

/-! ## All texts -/

/-- A text that does not begin with a fence is trimmed, and nothing else. -/
theorem strip_of_not_isPrefix {s : List Char} (h : ¬ mark <+: s) (language : List Char) :
    strip language s = trim s := by
  have hbare : mark.isPrefixOf s = false := by
    rwa [← Bool.not_eq_true, List.isPrefixOf_iff_prefix]
  have htagged : (mark ++ language).isPrefixOf s = false := by
    rw [← Bool.not_eq_true, List.isPrefixOf_iff_prefix]
    exact fun hs => h ((List.prefix_append mark language).trans hs)
  rw [strip, htagged, hbare, if_neg Bool.false_ne_true, if_neg Bool.false_ne_true]

@[simp] theorem trim_strip (language s : List Char) :
    trim (strip language s) = strip language s :=
  trim_trim _

/-- Both lines together are what is dropped around the rest of a text. -/
theorem exists_dropped (opening s : List Char) :
    ∃ front back, s = front ++ dropClosing (dropOpening opening s) ++ back ∧
      (front = [] ∨ front = opening ++ ['\n']) ∧ (back = [] ∨ back = '\n' :: mark) := by
  obtain ⟨front, hfront, hs⟩ := exists_dropOpening opening s
  obtain ⟨back, hback, hrest⟩ := exists_dropClosing (dropOpening opening s)
  rw [hrest, ← List.append_assoc] at hs
  exact ⟨front, back, hs, hfront, hback⟩

/-- What is left is trimmed from what stands between the lines of the fence. -/
theorem exists_strip_eq_trim (language s : List Char) :
    ∃ front core back, s = front ++ core ++ back ∧ strip language s = trim core ∧
      (front = [] ∨ front = mark ++ language ++ ['\n'] ∨ front = mark ++ ['\n']) ∧
      (back = [] ∨ back = '\n' :: mark) := by
  unfold strip
  dsimp only
  split
  · obtain ⟨front, back, hs, hfront, hback⟩ := exists_dropped (mark ++ language) s
    exact ⟨front, _, back, hs, rfl, hfront.imp_right .inl, hback⟩
  · split
    · obtain ⟨front, back, hs, hfront, hback⟩ := exists_dropped mark s
      exact ⟨front, _, back, hs, rfl, hfront.imp_right .inr, hback⟩
    · exact ⟨[], s, [], by simp, rfl, .inl rfl, .inl rfl⟩

/-- **Nothing is lost but the lines of the fence and the blanks inside of them.** -/
theorem exists_strip (language s : List Char) :
    ∃ opening before after closing,
      s = opening ++ before ++ strip language s ++ after ++ closing ∧
      (opening = [] ∨ opening = mark ++ language ++ ['\n'] ∨ opening = mark ++ ['\n']) ∧
      (closing = [] ∨ closing = '\n' :: mark) ∧
      before.all isBlank = true ∧ after.all isBlank = true := by
  obtain ⟨opening, core, closing, hs, hstrip, hopening, hclosing⟩ :=
    exists_strip_eq_trim language s
  obtain ⟨before, after, hbefore, hafter, hcore⟩ := exists_trim core
  refine ⟨opening, before, after, closing, ?_, hopening, hclosing, hbefore, hafter⟩
  rw [hstrip]
  calc s = opening ++ core ++ closing := hs
    _ = opening ++ (before ++ trim core ++ after) ++ closing := by rw [← hcore]
    _ = opening ++ before ++ trim core ++ after ++ closing := by simp only [List.append_assoc]

end Fence

/-- A payload in a fence, with a tag in the opening line. -/
def fenced (tag payload : String) : String :=
  "\x60\x60\x60" ++ tag ++ "\n" ++ payload ++ "\n\x60\x60\x60"

theorem toList_fenced (tag payload : String) :
    (fenced tag payload).toList = Fence.wrap tag.toList payload.toList := by
  simp [fenced, Fence.wrap, Fence.mark]

@[simp] theorem toList_unfence (language text : String) :
    (unfence language text).toList = Fence.strip language.toList text.toList :=
  String.toList_ofList

/-- The payload of a fence is what is left of it, but for the blanks around it. -/
theorem unfence_fenced {language tag : String} (hlanguage : '\n' ∉ language.toList)
    (htag : tag = language ∨ tag = "") (payload : String) :
    unfence language (fenced tag payload) = trimmed payload := by
  have htags : tag.toList = language.toList ∨ tag.toList = [] :=
    htag.imp (congrArg String.toList) (congrArg String.toList)
  rw [← String.toList_inj, toList_unfence, toList_fenced, toList_trimmed]
  exact Fence.strip_wrap hlanguage htags payload.toList

/-- What is left of a text stands in it between two lines, or without them, and blanks. -/
theorem exists_unfence (language text : String) :
    ∃ opening before after closing,
      text = opening ++ before ++ unfence language text ++ after ++ closing ∧
      (opening = "" ∨ opening = "\x60\x60\x60" ++ language ++ "\n" ∨
        opening = "\x60\x60\x60\n") ∧
      (closing = "" ∨ closing = "\n\x60\x60\x60") ∧
      isBlankText before = true ∧ isBlankText after = true := by
  obtain ⟨opening, before, after, closing, hs, hopening, hclosing, hbefore, hafter⟩ :=
    Fence.exists_strip language.toList text.toList
  refine ⟨String.ofList opening, String.ofList before, String.ofList after,
    String.ofList closing, ?_, ?_, ?_, ?_, ?_⟩
  · rw [← String.toList_inj]
    simpa using hs
  · simp only [← String.toList_inj, String.toList_ofList, String.toList_append]
    exact hopening
  · simp only [← String.toList_inj, String.toList_ofList]
    exact hclosing
  · rwa [isBlankText, String.toList_ofList]
  · rwa [isBlankText, String.toList_ofList]

/-- **A fence is taken off, and nothing else but blanks.**  What is left of a payload in a fence,
tagged with the language or untagged, is the payload without the blanks around it, whatever it
contains.  Of every text a part is left that has no blanks around it, and what is in front of
this part are blanks, after an opening line or without one, and what is behind it are blanks,
before a closing line or without one.  A text that does not begin with a fence loses no line. -/
theorem unfence_loses_fence_only {language : String} (hlanguage : '\n' ∉ language.toList) :
    (∀ tag payload, tag = language ∨ tag = "" →
      unfence language (fenced tag payload) = trimmed payload) ∧
    (∀ text, trimmed (unfence language text) = unfence language text ∧
      ∃ opening before after closing,
        text = opening ++ before ++ unfence language text ++ after ++ closing ∧
        (opening = "" ∨ opening = "\x60\x60\x60" ++ language ++ "\n" ∨
          opening = "\x60\x60\x60\n") ∧
        (closing = "" ∨ closing = "\n\x60\x60\x60") ∧
        isBlankText before = true ∧ isBlankText after = true) ∧
    ∀ text, ¬ "\x60\x60\x60".toList <+: text.toList → unfence language text = trimmed text := by
  refine ⟨fun tag payload htag => unfence_fenced hlanguage htag payload,
    fun text => ⟨?_, exists_unfence language text⟩, ?_⟩
  · rw [← String.toList_inj, toList_trimmed, toList_unfence]
    exact Fence.trim_strip language.toList text.toList
  · intro text htext
    rw [← String.toList_inj, toList_unfence, toList_trimmed]
    exact Fence.strip_of_not_isPrefix htext language.toList

/-- A fence inside of another one stays, and so does one that stands behind a blank. -/
theorem unfence_loses_fence_only_nested :
    let payload := " \x60\x60\x60json\n1\n\x60\x60\x60\n"
    '\n' ∉ "xml".toList ∧
      unfence "xml" (fenced "xml" payload) = "\x60\x60\x60json\n1\n\x60\x60\x60" ∧
      unfence "xml" (fenced "" payload) = "\x60\x60\x60json\n1\n\x60\x60\x60" ∧
      ¬ "\x60\x60\x60".toList <+: payload.toList ∧ unfence "xml" payload = trimmed payload := by
  intro payload
  have hlanguage : '\n' ∉ "xml".toList := by decide
  have hpayload : trimmed payload = "\x60\x60\x60json\n1\n\x60\x60\x60" := by decide
  have hplain : ¬ "\x60\x60\x60".toList <+: payload.toList := by decide
  obtain ⟨hfenced, _, hunfenced⟩ := unfence_loses_fence_only hlanguage
  exact ⟨hlanguage, (hfenced "xml" payload (.inl rfl)).trans hpayload,
    (hfenced "" payload (.inr rfl)).trans hpayload, hplain, hunfenced payload hplain⟩

/-- A line of a fence is taken off without the other one. -/
example : unfence "xml" "\x60\x60\x60json\n1\n\x60\x60\x60" = "\x60\x60\x60json\n1" ∧
    unfence "xml" "\x60\x60\x60xml\n<a/>\n\x60\x60\x60\n" = "<a/>\n\x60\x60\x60" := by
  decide

end MarkupDesk
