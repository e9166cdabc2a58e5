import MarkupDesk.Parser.Report
import MarkupDesk.Proofs.Diagnosis.Line
import MarkupDesk.Proofs.Text.Edges

/-!
# The reason for a rejection

A document is rejected by the parser, and the reason that is shown is the parser's own.

Which of its errors that is, `Report.Blames` says of the report alone: the first event that
is an error, or else the first event, or else the error that the parser remembers.  A report
without any is `Silent`, and there is no third kind (`exists_blames_or_silent`).  The
outcome gives the complaint of this error as its reason (`reason_outcome_of_blames`).

The complaint is written as a text with its place in front, and the diagnosis reads the line
back from it.  The two agree for every line that the parser can give: the place is the first
mention of a line, whatever the message mentions (`lineOf_text`).

`check_agrees_with_report` puts the parts together, with the documents that never reach the
parser.
-/
namespace MarkupDesk.Engine

open Text

namespace Report

/-! ## The error that is blamed -/

/-- The events that are not void. -/
def raised (r : Report) : List Event := r.events.filterMap id

/-- The error that a rejection is put down to. -/
inductive Blames (r : Report) : Event → Prop where
  /-- The first event that is an error. -/
  | error {before after : List Event} {e : Event} :
      r.raised = before ++ e :: after → errorLevel ≤ e.level →
        (∀ f ∈ before, f.level < errorLevel) → Blames r e
  /-- The first event, if none is an error. -/
  | first {after : List Event} {e : Event} :
      r.raised = e :: after → (∀ f ∈ r.raised, f.level < errorLevel) → Blames r e
  /-- The error that is remembered with a code, if there is no event. -/
  | remembered {code : Int} {e : Event} :
      r.raised = [] → r.remembered = some (code, e) → code ≠ 0 → Blames r e

/-- A report that names no error. -/
def Silent (r : Report) : Prop :=
  r.raised = [] ∧ ∀ code e, r.remembered = some (code, e) → code = 0

/-- **Every report names an error or is silent.** -/
theorem exists_blames_or_silent (r : Report) : (∃ e, r.Blames e) ∨ r.Silent := by
  cases herror : r.raised.find? fun e => decide (errorLevel ≤ e.level) with
  | some e =>
    obtain ⟨hlevel, before, after, hraised, hbefore⟩ := List.find?_eq_some_iff_append.mp herror
    refine .inl ⟨e, .error hraised (of_decide_eq_true hlevel) fun f hf => ?_⟩
    have hmild : ¬ errorLevel ≤ f.level := by simpa using hbefore f hf
    omega
  | none =>
    have hmild : ∀ f ∈ r.raised, f.level < errorLevel := by
      intro f hf
      have h : ¬ errorLevel ≤ f.level := by simpa using List.find?_eq_none.mp herror f hf
      omega
    cases hraised : r.raised with
    | cons e after => exact .inl ⟨e, .first hraised hmild⟩
    | nil =>
      by_cases hcode : ∃ code e, r.remembered = some (code, e) ∧ code ≠ 0
      · obtain ⟨code, e, hremembered, hne⟩ := hcode
        exact .inl ⟨e, .remembered hraised hremembered hne⟩
      · refine .inr ⟨hraised, fun code e hremembered => ?_⟩
        exact Decidable.byContradiction fun hne => hcode ⟨code, e, hremembered, hne⟩

/-! ## The reason of the outcome -/

variable {r : Report} {e : Event}

/-- Without a tree there are the complaints of the events, or that of the remembered error. -/
theorem outcome_of_not_builtTree (h : r.builtTree = false) :
    r.outcome = .malformed
      (if r.raised = [] then r.rememberedComplaint.toList else r.raised.map Event.complaint) := by
  have hcomplaints : r.events.filterMap (·.map Event.complaint) = r.raised.map Event.complaint :=
    List.map_filterMap.symm
  rw [outcome, if_neg (by simp [h]), hcomplaints]
  cases r.raised with
  | nil => rfl
  | cons e after => rfl

/-- Of the complaints of events, the reason is that of the first error, or of the first
event. -/
theorem reason_malformed_map (events : List Event) :
    (Outcome.malformed (events.map Event.complaint)).reason =
      ((events.find? fun e => decide (errorLevel ≤ e.level)).or events.head?).map
        Event.complaint := by
  have hlevel : ((fun c : Complaint => decide (errorLevel ≤ c.level)) ∘ Event.complaint) =
      fun e => decide (errorLevel ≤ e.level) := rfl
  rw [Outcome.reason, List.find?_map, hlevel, List.head?_map, Option.map_or]

/-- **The reason is the complaint of the error that is blamed.** -/
theorem reason_outcome_of_blames (hrejected : r.builtTree = false) (h : r.Blames e) :
    r.outcome.reason = some e.complaint := by
  rw [outcome_of_not_builtTree hrejected]
  cases h with
  | error hraised hlevel hbefore =>
    have hne : r.raised ≠ [] := by simp [hraised]
    have hfind : r.raised.find? (fun e => decide (errorLevel ≤ e.level)) = some e := by
      refine List.find?_eq_some_iff_append.mpr ⟨decide_eq_true hlevel, _, _, hraised, ?_⟩
      intro f hf
      simpa using hbefore f hf
    rw [if_neg hne, reason_malformed_map, hfind]
    rfl
  | first hraised hmild =>
    have hne : r.raised ≠ [] := by simp [hraised]
    have hfind : r.raised.find? (fun e => decide (errorLevel ≤ e.level)) = none := by
      refine List.find?_eq_none.mpr fun f hf => ?_
      simpa using hmild f hf
    rw [if_neg hne, reason_malformed_map, hfind, hraised]
    rfl
  | remembered hraised hremembered hcode =>
    have hcomplaint : r.rememberedComplaint = some e.complaint := by
      rw [rememberedComplaint, hremembered]
      exact if_neg hcode
    rw [if_pos hraised, hcomplaint]
    show (Outcome.malformed ([e].map Event.complaint)).reason = _
    rw [reason_malformed_map]
    by_cases hlevel : errorLevel ≤ e.level <;> simp [hlevel]

/-- A silent report gives no reason. -/
theorem reason_outcome_of_silent (hrejected : r.builtTree = false) (h : r.Silent) :
    r.outcome.reason = none := by
  obtain ⟨hraised, hcode⟩ := h
  have hcomplaint : r.rememberedComplaint = none := by
    rw [rememberedComplaint]
    split
    · rename_i code e hremembered
      exact if_pos (hcode code e hremembered)
    · rfl
  rw [outcome_of_not_builtTree hrejected, if_pos hraised, hcomplaint]
  rfl

theorem outcome_eq_wellFormed_iff : r.outcome = .wellFormed ↔ r.builtTree = true := by
  cases h : r.builtTree with
  | true => simp [outcome, h]
  | false => simp [outcome_of_not_builtTree h]

end Report

/-! ## The place of a complaint -/

namespace Complaint

/-- The place of a complaint, as it stands in front of the message. -/
def place (c : Complaint) : String := s!"error on line {c.line} at column {c.column}: "

theorem text_eq (c : Complaint) : c.text = c.place ++ c.message := by
  unfold text place
  exact congrArg (_ ++ ·) (rfl : toString c.message = c.message)

theorem toList_place (c : Complaint) :
    c.place.toList = "error on ".toList ++ 'l' :: 'i' :: 'n' :: 'e' :: ' ' ::
      ((toString c.line).toList ++
        (" at column ".toList ++ ((toString c.column).toList ++ ": ".toList))) := by
  have hfront : (toString "error on line ").toList =
      "error on ".toList ++ ['l', 'i', 'n', 'e', ' '] := by decide
  unfold place
  rw [String.toList_append, String.toList_append, String.toList_append, String.toList_append,
    hfront]
  simp only [List.append_assoc, List.cons_append, List.nil_append]
  rfl

/-- **The line that is read from a complaint is its own**, whatever its message says. -/
theorem lineOf_text {c : Complaint} {n : Nat} (hline : c.line = n) (hfits : n < UInt32.size) :
    Diagnosis.lineOf c.text.toList = n := by
  have hnumber : (toString c.line).toList = Nat.toDigits 10 n := by
    rw [hline]
    exact Nat.toList_repr
  rw [text_eq, String.toList_append, toList_place, hnumber, List.append_assoc, List.cons_append,
    List.cons_append, List.cons_append, List.cons_append, List.cons_append, List.append_assoc]
  refine Diagnosis.lineOf_append (by simp) (fun x hx => ?_) hfits
  obtain rfl : ' ' = x := Option.some.inj hx
  decide

theorem not_mem_repr {x : Char} (hdigit : x.isDigit = false) (hsign : x ≠ '-') (i : Int) :
    x ∉ i.repr.toList := by
  have hdigits : ∀ n : Nat, x ∉ n.repr.toList := by
    intro n hx
    rw [Nat.toList_repr] at hx
    rw [isDigit_of_mem_toDigits hx] at hdigit
    cases hdigit
  cases i with
  | ofNat n => exact hdigits n
  | negSucc n =>
    show x ∉ ("-" ++ (n + 1).repr).toList
    rw [String.toList_append]
    intro hx
    rcases List.mem_append.mp hx with hx | hx
    · exact hsign (by simpa using hx)
    · exact hdigits (n + 1) hx

theorem exists_toList_place (c : Complaint) :
    ∃ rest, c.place.toList = 'e' :: rest ∧ 'T' ∉ c.place.toList := by
  have hline := not_mem_repr (x := 'T') (by decide) (by decide) c.line
  have hcolumn := not_mem_repr (x := 'T') (by decide) (by decide) c.column
  have hfront : "error on ".toList = 'e' :: "rror on ".toList := by decide
  rw [toList_place, hfront, List.cons_append]
  exact ⟨_, rfl, by simp [hline, hcolumn]⟩

/-- **What is shown of a complaint** is its place, and its message without the phrase that is
left out of messages, and without blanks at the end. -/
theorem ofText_text (c : Complaint) :
    Diagnosis.ofText c.text =
      ⟨Diagnosis.lineOf c.text.toList,
        String.ofList (trimEnd
          (c.place.toList ++ removeFirst Diagnosis.boilerplate.toList c.message.toList))⟩ := by
  obtain ⟨rest, hplace, hphrase⟩ := exists_toList_place c
  have htext : c.text.toList = c.place.toList ++ c.message.toList := by
    rw [text_eq, String.toList_append]
  have hne : c.text ≠ "" := by
    intro h
    rw [h, hplace] at htext
    cases htext
  have hboilerplate : Diagnosis.boilerplate.toList =
      'T' :: "his page contains the following errors:".toList := by decide
  have hmessage : trim (removeFirst Diagnosis.boilerplate.toList c.text.toList) =
      trimEnd (c.place.toList ++ removeFirst Diagnosis.boilerplate.toList c.message.toList) := by
    have hblank : ¬ isBlank 'e' = true := by decide
    rw [htext, hboilerplate, removeFirst_append _ hphrase, trim, trimStart, hplace,
      List.cons_append, List.dropWhile_cons_of_neg hblank]
  rw [Diagnosis.ofText, if_neg hne, hmessage]

end Complaint

/-! ## The verdict on a document -/

/-- A document that reaches the parser is accepted with a tree, and else rejected for the
reason of the outcome. -/
theorem check_of_reached (parser : String → Report) {document : String}
    (hpos : 0 < document.utf8ByteSize) (hle : document.utf8ByteSize ≤ sizeLimit) :
    check parser document =
      if (parser document).builtTree = true then none
      else
        some (((parser document).outcome.reason.map Complaint.text).getD
          Diagnosis.unknownReason) := by
  have hread : read parser document = .ok (parser document).outcome := by
    rw [read, if_neg (by omega), if_neg (by omega)]
  rw [check, hread]
  cases h : (parser document).builtTree with
  | true => rw [Report.outcome_eq_wellFormed_iff.mpr h]; rfl
  | false => rw [Report.outcome_of_not_builtTree h]; rfl

variable {parser : String → Report} {document : String}

/-- A rejection for an error shows the complaint about it, and has its line. -/
theorem exists_diagnose_of_blames (hpos : 0 < document.utf8ByteSize)
    (hle : document.utf8ByteSize ≤ sizeLimit) (hrejected : (parser document).builtTree = false)
    {e : Event} (he : (parser document).Blames e) :
    ∃ d, (check parser).diagnose document = some d ∧
      d.message = String.ofList (trimEnd (e.complaint.place.toList ++
        removeFirst Diagnosis.boilerplate.toList e.complaint.message.toList)) ∧
      (0 ≤ e.line → e.line < UInt32.size → (d.line : Int) = e.line) := by
  have hcheck : check parser document = some e.complaint.text := by
    rw [check_of_reached parser hpos hle, if_neg (by simp [hrejected]),
      Report.reason_outcome_of_blames hrejected he, Option.map_some, Option.getD_some]
  have hdiagnose : (check parser).diagnose document =
      some (Diagnosis.ofText e.complaint.text) := by
    rw [Checker.diagnose, hcheck, Option.map_some]
  refine ⟨_, hdiagnose, ?_, ?_⟩
  · rw [Complaint.ofText_text]
  · intro hline hfits
    obtain ⟨n, hn⟩ := Int.eq_ofNat_of_zero_le hline
    have hsmall : n < UInt32.size := by omega
    rw [Complaint.ofText_text, Complaint.lineOf_text (c := e.complaint) hn hsmall, hn]

/-- **The verdict and the reason are the parser's own.**  A document that reaches the parser
is accepted exactly when the parser builds a tree, whatever it reports.  Otherwise the
diagnosis shows the error that the report blames, or says that the reason is unknown if it
names none.  The line of the diagnosis is that of the error: the parser's lines are signed
numbers of 32 bits, so each that is not negative is below the bound.  An empty document, and
one that is larger than the parser takes, is rejected with the same words by every parser. -/
theorem check_agrees_with_report (parser : String → Report) (document : String) :
    (0 < document.utf8ByteSize → document.utf8ByteSize ≤ sizeLimit →
      (check parser document = none ↔ (parser document).builtTree = true) ∧
      ((parser document).builtTree = false →
        ((∃ e, (parser document).Blames e) ∨ (parser document).Silent) ∧
        (∀ e, (parser document).Blames e →
          ∃ d, (check parser).diagnose document = some d ∧
            d.message = String.ofList (trimEnd (e.complaint.place.toList ++
              removeFirst Diagnosis.boilerplate.toList e.complaint.message.toList)) ∧
            (0 ≤ e.line → e.line < UInt32.size → (d.line : Int) = e.line)) ∧
        ((parser document).Silent →
          (check parser).diagnose document = some ⟨0, "Unknown parsing error"⟩))) ∧
    (document.utf8ByteSize = 0 → ∀ any : String → Report,
      check any document = some "error on line 1 at column 1: Document is empty") ∧
    (sizeLimit < document.utf8ByteSize → ∀ any : String → Report,
      check any document = some (TooLarge.message ⟨document.utf8ByteSize⟩)) := by
  refine ⟨fun hpos hle => ⟨?_, fun hrejected => ⟨?_, ?_, ?_⟩⟩, ?_, ?_⟩
  · rw [check_of_reached parser hpos hle]
    split <;> simp [*]
  · exact Report.exists_blames_or_silent (parser document)
  · intro e he
    exact exists_diagnose_of_blames hpos hle hrejected he
  · intro hsilent
    have hunknown : Diagnosis.ofText Diagnosis.unknownReason = ⟨0, "Unknown parsing error"⟩ := by
      decide
    have hcheck : check parser document = some Diagnosis.unknownReason := by
      rw [check_of_reached parser hpos hle, if_neg (by simp [hrejected]),
        Report.reason_outcome_of_silent hrejected hsilent]
      rfl
    rw [Checker.diagnose, hcheck, Option.map_some, hunknown]
  · intro hzero any
    have hreason : emptyDocument.text = "error on line 1 at column 1: Document is empty" := by
      decide
    rw [check, read, if_neg (by omega), if_pos hzero, ← hreason]
    rfl
  · intro hlarge any
    rw [check, read, if_pos hlarge]

/-- The message of an error mentions another line than its own, and a warning comes before
it. -/
theorem check_agrees_with_report_mention :
    let warning : Event := ⟨1, 2, 1, none⟩
    let e : Event := ⟨3, 7, -1, some "Opening tag on line 99".toUTF8.toList⟩
    let parser : String → Report := fun _ => ⟨false, [none, some warning, some e], none⟩
    (parser "<a>").Blames e ∧
      ∃ d, (check parser).diagnose "<a>" = some d ∧
        d.message = "error on line 7 at column -1: Opening tag on line 99" ∧ d.line = 7 := by
  intro warning e parser
  have he : (parser "<a>").Blames e :=
    @Report.Blames.error _ [warning] [] e rfl (by decide) (by decide)
  obtain ⟨hreached, _⟩ := check_agrees_with_report parser "<a>"
  obtain ⟨_, hrejected⟩ := hreached (by decide) (by decide)
  obtain ⟨d, hd, hmessage, hline⟩ := (hrejected rfl).2.1 e he
  refine ⟨he, d, hd, hmessage.trans (by decide +kernel), ?_⟩
  have := hline (by decide) (by decide)
  exact Int.ofNat_inj.mp this

end MarkupDesk.Engine
