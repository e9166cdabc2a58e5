import MarkupDesk.Proofs.Assistant.Answer
import MarkupDesk.Proofs.Fence.Payload
import MarkupDesk.Proofs.Text.Visible

/-!
# Blanks around the fence of a reply

The client takes the fence off a reply first, and then the blanks.  So it knows a fence only
where the text begins with it, and the closing line only where the text ends with it: behind a
blank the fence stays (`strip_blank_append_wrap`), and before a blank, which may be the line end
of the reply, the closing line stays although the opening line is taken off
(`strip_wrap_append_blank`).

The backticks that stay are visible, so neither is the payload.  The payload is the result
exactly when nothing stands around its fence (`ask_fenced_iff`).
-/
namespace MarkupDesk

open Text

namespace Fence

variable {language tag : List Char}

/-- A fence has no blanks at its ends. -/
theorem trim_wrap (tag payload : List Char) : trim (wrap tag payload) = wrap tag payload := by
  have hmark : mark ≠ [] := by decide
  rw [trim_eq_self_iff]
  constructor
  · rw [wrap, List.append_assoc, startsBlank_append_iff hmark]
    decide
  · have hend : wrap tag payload = mark ++ tag ++ '\n' :: (payload ++ ['\n']) ++ mark := by
      simp [wrap]
    rw [hend, endsBlank_append_iff hmark]
    decide

/-- **Behind a blank a fence stays as it is.** -/
theorem strip_blank_append_wrap {before after : List Char} (hne : before ≠ [])
    (hbefore : before.all isBlank = true) (hafter : after.all isBlank = true)
    (language tag payload : List Char) :
    strip language (before ++ wrap tag payload ++ after) = wrap tag payload := by
  have hplain : ¬ mark <+: before ++ wrap tag payload ++ after := by
    obtain ⟨c, rest, rfl⟩ := List.exists_cons_of_ne_nil hne
    rintro ⟨tail, htail⟩
    obtain rfl : '\x60' = c := (List.cons.inj htail).1
    exact absurd (List.all_eq_true.mp hbefore _ List.mem_cons_self) (by decide)
  rw [strip_of_not_isPrefix hplain, trim_append_of_blank hbefore hafter, trim_wrap]

/-- **Before a blank a closing line stays**, though the opening line is taken off. -/
theorem strip_wrap_append_blank {after : List Char} (hlanguage : '\n' ∉ language)
    (htag : tag = language ∨ tag = []) (hne : after ≠ []) (hafter : after.all isBlank = true)
    (payload : List Char) :
    strip language (wrap tag payload ++ after) = trim (payload ++ '\n' :: mark) := by
  have hopened : wrap tag payload ++ after =
      mark ++ tag ++ '\n' :: (payload ++ '\n' :: mark ++ after) := by simp [wrap]
  have hends : EndsBlank (payload ++ '\n' :: mark ++ after) :=
    (endsBlank_append_iff hne _).mpr (endsBlank_of_blank hne hafter)
  rw [hopened, strip_opened hlanguage htag, dropClosing_of_endsBlank hends]
  exact @trim_append_of_blank [] after rfl hafter (payload ++ '\n' :: mark)

/-! ## What stays is not the payload -/

theorem trim_ne_of_length_visible_lt {s t : List Char}
    (h : (visible s).length < (visible t).length) : trim t ≠ trim s := by
  intro heq
  rw [← visible_trim s, ← visible_trim t, heq] at h
  exact Nat.lt_irrefl _ h

theorem visible_mark : visible mark = mark := by decide

theorem wrap_ne_trim (tag payload : List Char) : wrap tag payload ≠ trim payload := by
  have hbreak : isBlank '\n' = true := by decide
  rw [← trim_wrap]
  apply trim_ne_of_length_visible_lt
  rw [wrap, visible_append, visible_append, visible_cons_of_blank hbreak, visible_append,
    visible_cons_of_blank hbreak, visible_mark]
  have hmark : mark.length = 3 := rfl
  simp only [List.length_append, hmark]
  omega

theorem trim_append_mark_ne (payload : List Char) :
    trim (payload ++ '\n' :: mark) ≠ trim payload := by
  have hbreak : isBlank '\n' = true := by decide
  apply trim_ne_of_length_visible_lt
  rw [visible_append, visible_cons_of_blank hbreak, visible_mark, List.length_append]
  exact Nat.lt_add_of_pos_right (by decide)

end Fence

/-! ## The text without its fence -/

variable {language tag before after : String}

/-- Behind a blank the whole fence stays in the text. -/
theorem unfence_blank_append_fenced (hne : before ≠ "") (hbefore : isBlankText before = true)
    (hafter : isBlankText after = true) (language tag payload : String) :
    unfence language (before ++ fenced tag payload ++ after) = fenced tag payload := by
  have hnonempty : before.toList ≠ [] := mt String.toList_eq_nil_iff.mp hne
  rw [← String.toList_inj, toList_unfence, String.toList_append, String.toList_append,
    toList_fenced]
  exact Fence.strip_blank_append_wrap hnonempty hbefore hafter _ _ _

/-- Before a blank the closing line stays in the text. -/
theorem unfence_fenced_append_blank (hlanguage : '\n' ∉ language.toList)
    (htag : tag = language ∨ tag = "") (hne : after ≠ "") (hafter : isBlankText after = true)
    (payload : String) :
    unfence language (fenced tag payload ++ after) = trimmed (payload ++ "\n\x60\x60\x60") := by
  have hnonempty : after.toList ≠ [] := mt String.toList_eq_nil_iff.mp hne
  have htags : tag.toList = language.toList ∨ tag.toList = [] :=
    htag.imp (congrArg String.toList) (congrArg String.toList)
  rw [← String.toList_inj, toList_unfence, String.toList_append, toList_fenced, toList_trimmed,
    String.toList_append]
  exact Fence.strip_wrap_append_blank hlanguage htags hnonempty hafter payload.toList

theorem fenced_ne_trimmed (tag payload : String) : fenced tag payload ≠ trimmed payload := by
  rw [ne_eq, ← String.toList_inj, toList_fenced, toList_trimmed]
  exact Fence.wrap_ne_trim tag.toList payload.toList

theorem trimmed_append_ne (payload : String) :
    trimmed (payload ++ "\n\x60\x60\x60") ≠ trimmed payload := by
  rw [ne_eq, ← String.toList_inj, toList_trimmed, toList_trimmed, String.toList_append]
  exact Fence.trim_append_mark_ne payload.toList

/-! ## The result of the client -/

namespace Assistant

open Web (Server)

theorem Job.newline_not_mem_language (job : Job) : '\n' ∉ job.language.toList := by
  cases job <;> decide

variable {server : Server} {settings : AssistantSettings} {job : Job} {document : String}
  {reply : Reply}

/-- **The payload of a reply is the result exactly when nothing stands around its fence.**  With
blanks in front of the fence the result is the fence with the payload, and with blanks behind it
only, be it a single line end, the result is the payload with the closing line.  This holds for
every job, whether the fence is tagged with its language or untagged. -/
theorem ask_fenced_iff (h : Answers server settings job document reply)
    (htag : tag = job.language ∨ tag = "") (hbefore : isBlankText before = true)
    (hafter : isBlankText after = true) {payload : String}
    (hspoken : reply.Says (before ++ fenced tag payload ++ after)) :
    ((ask server settings job document).2 = .ok (trimmed payload) ↔ before = "" ∧ after = "") ∧
    (before ≠ "" → (ask server settings job document).2 = .ok (fenced tag payload)) ∧
    (before = "" → after ≠ "" →
      (ask server settings job document).2 =
        .ok (trimmed (payload ++ "\n\x60\x60\x60"))) := by
  have hlanguage := job.newline_not_mem_language
  have hask := h.ask_eq_unfence hspoken
  have hbehind : before ≠ "" →
      (ask server settings job document).2 = .ok (fenced tag payload) := by
    intro hne
    rw [hask, unfence_blank_append_fenced hne hbefore hafter]
  have hopen : before = "" → after ≠ "" → (ask server settings job document).2 =
      .ok (trimmed (payload ++ "\n\x60\x60\x60")) := by
    rintro rfl hne
    rw [hask, String.empty_append, unfence_fenced_append_blank hlanguage htag hne hafter]
  refine ⟨⟨fun hpayload => ?_, ?_⟩, hbehind, hopen⟩
  · by_cases hb : before = ""
    · by_cases ha : after = ""
      · exact ⟨hb, ha⟩
      · rw [hopen hb ha] at hpayload
        exact absurd (Except.ok.inj hpayload) (trimmed_append_ne payload)
    · rw [hbehind hb] at hpayload
      exact absurd (Except.ok.inj hpayload) (fenced_ne_trimmed tag payload)
  · rintro ⟨rfl, rfl⟩
    rw [hask, String.empty_append, String.append_empty, unfence_fenced hlanguage htag]

/-- A reply that says this text in one part. -/
def Reply.saying (text : String) : Reply := ⟨[⟨some [some text], none⟩], none⟩

theorem Reply.says_saying (text : String) : (saying text).Says text := by
  refine ⟨_, rfl, ⟨text, List.mem_singleton_self _⟩, ?_⟩
  have hjoined : Joined [some text] (text ++ "") := .part text .nil
  rwa [String.append_empty] at hjoined

/-- A fence with a line end behind it. -/
def endedReply : String :=
  "\x7b\"candidates\":[\x7b\"content\":\x7b\"parts\":[" ++
    "\x7b\"text\":\"\x60\x60\x60xml\\n<a/>\\n\x60\x60\x60\\n\"\x7d]\x7d\x7d]\x7d"

theorem answers_endedReply (job : Job) (document : String) :
    Answers (Workspace.always endedReply) Workspace.withKey job document
      (.saying ("" ++ fenced "xml" "<a/>" ++ "\n")) :=
  answers_const (Workspace.isSome_request_withKey job document) (by decide) (by decide +kernel)

theorem answers_wholeReply (job : Job) (document : String) :
    Answers (Workspace.always wholeReply) Workspace.withKey job document
      (.saying ("" ++ fenced "xml" "<a/>" ++ "")) :=
  answers_const (Workspace.isSome_request_withKey job document) (by decide) (by decide +kernel)

/-- The line end behind the fence makes the difference. -/
theorem ask_fenced_iff_ended :
    (ask (Workspace.always wholeReply) Workspace.withKey .repair "<a>").2 = .ok "<a/>" ∧
      (ask (Workspace.always endedReply) Workspace.withKey .repair "<a>").2 =
        .ok "<a/>\n\x60\x60\x60" := by
  have htag : "xml" = Job.repair.language ∨ "xml" = "" := .inl rfl
  have hnone : isBlankText "" = true := rfl
  have hbreak : isBlankText "\n" = true := by decide
  have hpayload : trimmed "<a/>" = "<a/>" := by decide
  have hhalf : trimmed ("<a/>" ++ "\n\x60\x60\x60") = "<a/>\n\x60\x60\x60" := by decide
  obtain ⟨hwhole, _⟩ := ask_fenced_iff (answers_wholeReply .repair "<a>") htag hnone hnone
    (Reply.says_saying _)
  obtain ⟨_, _, hended⟩ := ask_fenced_iff (answers_endedReply .repair "<a>") htag hnone hbreak
    (Reply.says_saying _)
  rw [hpayload] at hwhole
  rw [hhalf] at hended
  exact ⟨hwhole.mpr ⟨rfl, rfl⟩, hended rfl (by decide)⟩

/-- **Not every fence is taken off.**  A line end behind it is enough for half of it to stay. -/
theorem not_forall_ask_fenced :
    ¬ ∀ (server : Server) (settings : AssistantSettings) (job : Job) (document : String)
        (reply : Reply) (before tag payload after : String),
        Answers server settings job document reply → tag = job.language ∨ tag = "" →
          isBlankText before = true → isBlankText after = true →
          reply.Says (before ++ fenced tag payload ++ after) →
            (ask server settings job document).2 = .ok (trimmed payload) := by
  intro h
  have htag : "xml" = Job.repair.language ∨ "xml" = "" := .inl rfl
  have hlanguage := Job.repair.newline_not_mem_language
  have hbreak : isBlankText "\n" = true := by decide
  have hanswers := answers_endedReply .repair "<a>"
  have hresult := h _ _ _ _ _ "" "xml" "<a/>" "\n" hanswers htag rfl hbreak
    (Reply.says_saying _)
  rw [hanswers.ask_eq_unfence (Reply.says_saying _), String.empty_append,
    unfence_fenced_append_blank hlanguage htag (by decide) hbreak] at hresult
  exact trimmed_append_ne "<a/>" (Except.ok.inj hresult)

end Assistant
end MarkupDesk
