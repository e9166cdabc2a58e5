import MarkupDesk.Assistant.Client
import MarkupDesk.Proofs.Workspace.Failing

/-!
# Replies without text

A reply has no text when its first candidate contributes none (`Reply.Textless`).  Four
things may be missing for that: the candidate, its content, the parts of the content, and
the texts of the parts.

Only the first two are taken for an error (`Reply.exists_text_eq_empty_iff`).  A content
without parts, or with parts that have no text, is read as the empty text
(`Reply.Textless.text_eq_ok`), and the client returns it as the result of the job.  On the
desk a repair then leaves nothing of the document, and says that it is completed
(`textless_refused_iff`).
-/
namespace MarkupDesk

open Assistant (Job Reply ask)
open Web (Server)

namespace Assistant

/-! ## The text of a reply -/

namespace Reply

/-- The parts of the first candidate, if there is one, and if it has a content. -/
def parts? (r : Reply) : Option (List (Option String)) := r.candidates.head?.bind Candidate.content

/-- A reply whose first candidate contributes no text. -/
def Textless (r : Reply) : Prop := ∀ parts, r.parts? = some parts → ∀ text ∈ parts, text = none

theorem text_ok_iff {r : Reply} {text : String} :
    r.text = .ok text ↔ ∃ parts, r.parts? = some parts ∧ String.join (parts.filterMap id) = text := by
  unfold Reply.text parts?
  cases r.candidates with
  | nil => simp
  | cons first rest => cases h : first.content <;> simp [h]

/-- **Only a reply without a content is taken for an empty one.** -/
theorem exists_text_eq_empty_iff {r : Reply} :
    (∃ reason, r.text = .error (.empty reason)) ↔ r.parts? = none := by
  unfold Reply.text parts?
  cases r.candidates with
  | nil => simp
  | cons first rest => cases h : first.content <;> simp [h]

/-- Where there is a content, no text is the empty text. -/
theorem Textless.text_eq_ok {r : Reply} (h : r.Textless) {parts : List (Option String)}
    (hparts : r.parts? = some parts) : r.text = .ok "" := by
  have hnone : parts.filterMap id = [] := List.filterMap_eq_nil_iff.mpr (h parts hparts)
  exact text_ok_iff.mpr ⟨parts, hparts, by rw [hnone]; rfl⟩

end Reply

/-! ## The client -/

/-- The request for the job has been sent, and the server has answered it, successfully,
with a body that is this reply. -/
def Answers (server : Server) (settings : AssistantSettings) (job : Job) (document : String)
    (reply : Reply) : Prop :=
  ∃ r status body, request settings job document = .ok r ∧ server r = .reply status body ∧
    Web.isSuccess status = true ∧ Reply.ofText? (Web.bodyText body) = some reply

/-- A server that says the same to everyone answers every request that is sent. -/
theorem answers_const {settings : AssistantSettings} {job : Job} {document : String}
    {reply : Reply} {status : Nat} {body : List UInt8}
    (hsent : (request settings job document).toOption.isSome = true)
    (hstatus : Web.isSuccess status = true)
    (hbody : Reply.ofText? (Web.bodyText body) = some reply) :
    Answers (fun _ => .reply status body) settings job document reply := by
  cases h : request settings job document with
  | error e => simp [h, Except.toOption] at hsent
  | ok r => exact ⟨r, status, body, h, rfl, hstatus, hbody⟩

variable {server : Server} {settings : AssistantSettings} {job : Job} {document : String}
  {reply : Reply}

/-- Of an answer the client returns the text, without its fence. -/
theorem Answers.ask_eq (h : Answers server settings job document reply) :
    (ask server settings job document).2 = reply.text.map (unfence job.language) := by
  obtain ⟨r, status, body, hrequest, hserver, hstatus, hbody⟩ := h
  simp [ask, answer, hrequest, hserver, hstatus, hbody]

@[simp] theorem unfence_empty (language : String) : unfence language "" = "" := by
  simp [unfence, Fence.strip, Fence.mark, Text.trim, Text.trimStart, Text.trimEnd]

/-- The client fails with an empty reply exactly when the reply has no content. -/
theorem Answers.exists_ask_eq_empty_iff (h : Answers server settings job document reply) :
    (∃ reason, (ask server settings job document).2 = .error (.empty reason)) ↔
      reply.parts? = none := by
  rw [h.ask_eq, ← Reply.exists_text_eq_empty_iff]
  cases reply.text <;> simp [Except.map]

/-- A content without text is returned as an empty result. -/
theorem Answers.ask_eq_ok (h : Answers server settings job document reply)
    (htextless : reply.Textless) (hparts : reply.parts? ≠ none) :
    (ask server settings job document).2 = .ok "" := by
  obtain ⟨parts, hparts⟩ := Option.ne_none_iff_exists'.mp hparts
  rw [h.ask_eq, htextless.text_eq_ok hparts]
  simp [Except.map]

end Assistant

/-! ## The desk -/

/-- The assistant is the client of this server, and its answer is waited for. -/
def Advisers.Consult (a : Advisers) (server : Server) (settings : AssistantSettings) : Prop :=
  ∀ job document, a.assistant job document = some (ask server settings job document).2

namespace Workspace

variable {server : Server} {settings : AssistantSettings} {job : Job} {reply : Reply}

/-- An empty result completes a repair or a conversion, and erases what it is put in for. -/
theorem erased_withResult (w : Workspace) (hjob : job ≠ .generate) :
    (w.withResult job "").status = .success ∧ (w.withResult job "").output = "" ∧
      (job = .repair → (w.withResult job "").input = "") := by
  cases job with
  | generate => exact absurd rfl hjob
  | repair =>
    have hlayout : Markup.format "" = "" := by decide
    exact ⟨rfl, hlayout, fun _ => rfl⟩
  | convert => exact ⟨rfl, rfl, fun h => nomatch h⟩

/-- What a reply without text makes of the workspace: the job has failed, or its result
is empty. -/
theorem workspace_perform_textless {w : Workspace} {s : Surroundings}
    (hconsult : s.Consult server settings) (hjob : job ≠ .generate) (hblank : ¬ w.isBlank = true)
    (hanswers : Assistant.Answers server settings job w.input reply) (htextless : reply.Textless) :
    (w.perform s (.assist job)).workspace =
      if reply.parts? = none then w.note (.failed job) else w.withResult job "" := by
  have hdeclines : ¬ w.Declines job := fun h => hblank h.2
  rw [perform, workspace_take_assist, if_neg hdeclines, document_of_ne_generate w hjob, hconsult]
  split
  · rename_i hnone
    obtain ⟨reason, hempty⟩ := hanswers.exists_ask_eq_empty_iff.mpr hnone
    rw [hempty]
    rfl
  · rename_i hsome
    rw [hanswers.ask_eq_ok htextless hsome]
    rfl

/-- **A reply without text is refused exactly when it has no content.**  Then the client
fails, for every job, and a repair or a conversion fails on the desk, with the document
and the output as they were.  If there is a content without text, the client succeeds
with nothing: the desk reports success, its output is empty, and so is a document that
was to be repaired. -/
theorem textless_refused_iff {document : String}
    (hanswers : Assistant.Answers server settings job document reply)
    (htextless : reply.Textless) :
    ((∃ reason, (ask server settings job document).2 = .error (.empty reason)) ↔
      reply.parts? = none) ∧
    (reply.parts? ≠ none → (ask server settings job document).2 = .ok "") ∧
    ∀ (w : Workspace) (s : Surroundings), s.Consult server settings → job ≠ .generate →
      w.input = document → ¬ w.isBlank = true →
      (((w.perform s (.assist job)).workspace.status = .error ∧
          (w.perform s (.assist job)).workspace.SameData w) ↔ reply.parts? = none) ∧
      (reply.parts? ≠ none →
        (w.perform s (.assist job)).workspace.status = .success ∧
        (w.perform s (.assist job)).workspace.output = "" ∧
        (job = .repair → (w.perform s (.assist job)).workspace.input = "")) := by
  refine ⟨hanswers.exists_ask_eq_empty_iff, hanswers.ask_eq_ok htextless, ?_⟩
  rintro w s hconsult hjob rfl hblank
  rw [workspace_perform_textless hconsult hjob hblank hanswers htextless]
  by_cases hparts : reply.parts? = none
  · have hstatus : (w.note (.failed job)).status = .error := rfl
    simp [hparts, hstatus, sameData_note]
  · have herased := erased_withResult w hjob
    simpa [hparts, herased.1] using herased.2

/-- The settings of a client that has a key. -/
def withKey : AssistantSettings := { apiKey := some "key" }

theorem isSome_request_withKey (job : Job) (document : String) :
    (Assistant.request withKey job document).toOption.isSome = true := by
  have hkey : Assistant.usableKey withKey = some "key" := by decide +kernel
  have haddress : (Web.Url.ofText? (Assistant.endpoint withKey)).isSome = true := by decide +kernel
  have hfits : Web.fitsHeader "key" = true := by decide
  obtain ⟨url, hurl⟩ := Option.isSome_iff_exists.mp haddress
  simp [Assistant.request, hkey, hurl, hfits, Except.toOption]

/-- Surroundings in which the assistant is the client of this server. -/
def served (server : Server) : Surroundings :=
  { obliging "" with assistant := fun job document => some (ask server withKey job document).2 }

/-- A server that always sends this text, which is plain ASCII. -/
def always (text : String) : Server := fun _ =>
  .reply 200 (text.toList.map fun c => UInt8.ofNat c.toNat)

/-- A candidate that was withheld has no content, and the repair fails. -/
theorem textless_refused_withheld :
    let server := always "\x7b\"candidates\":[\x7b\"finishReason\":\"SAFETY\"\x7d]\x7d"
    let w : Workspace := { input := "<a>", output := "<b/>" }
    (∃ reason, (ask server withKey .repair "<a>").2 = .error (.empty reason)) ∧
      (w.perform (served server) (.assist .repair)).workspace.status = .error ∧
      (w.perform (served server) (.assist .repair)).workspace.SameData w := by
  intro server w
  have hanswers : Assistant.Answers server withKey .repair "<a>" ⟨[⟨none, some "SAFETY"⟩], none⟩ :=
    Assistant.answers_const (isSome_request_withKey _ _) (by decide) (by decide +kernel)
  have htextless : Reply.Textless ⟨[⟨none, some "SAFETY"⟩], none⟩ := by
    intro parts hparts
    cases hparts
  obtain ⟨hclient, _, hdesk⟩ := textless_refused_iff hanswers htextless
  obtain ⟨hkept, _⟩ := hdesk w (served server) (fun _ _ => rfl) (by decide) rfl (by decide)
  exact ⟨hclient.mpr rfl, hkept.mpr rfl⟩

/-- **Not every reply without text is refused.**  One whose content has no parts is a
result for the client, and completes the repair of a document. -/
theorem not_forall_textless_refused :
    (¬ ∀ (server : Server) (settings : AssistantSettings) (job : Job) (document : String)
        (reply : Reply), Assistant.Answers server settings job document reply → reply.Textless →
          ∃ reason, (ask server settings job document).2 = .error (.empty reason)) ∧
    ¬ ∀ (server : Server) (settings : AssistantSettings) (job : Job) (reply : Reply)
        (operations : List (Surroundings × Operation)) (s : Surroundings),
        let w := ({} : Workspace).after operations
        s.Consult server settings → job ≠ .generate → ¬ w.isBlank = true →
          Assistant.Answers server settings job w.input reply → reply.Textless →
            (w.perform s (.assist job)).workspace.status = .error ∧
              (w.perform s (.assist job)).workspace.SameData w := by
  let server := always "\x7b\"candidates\":[\x7b\"content\":\x7b\"parts\":[]\x7d\x7d]\x7d"
  let operations := [(served server, Operation.setInput "<a><b></a>")]
  have hanswers : Assistant.Answers server withKey .repair "<a><b></a>" ⟨[⟨some [], none⟩], none⟩ :=
    Assistant.answers_const (isSome_request_withKey _ _) (by decide) (by decide +kernel)
  have htextless : Reply.Textless ⟨[⟨some [], none⟩], none⟩ := by
    intro parts hparts text htext
    cases hparts
    cases htext
  constructor
  · intro h
    have hnone := hanswers.exists_ask_eq_empty_iff.mp (h _ _ _ _ _ hanswers htextless)
    cases hnone
  · intro h
    have hconsult : (served server).Consult server withKey := fun _ _ => rfl
    have hfails := h server withKey .repair _ operations (served server) hconsult (by decide)
      (by decide) hanswers htextless
    have hcompleted := workspace_perform_textless (w := ({} : Workspace).after operations)
      hconsult (by decide) (by decide) hanswers htextless
    rw [hcompleted] at hfails
    exact absurd hfails.1 (by decide)

end Workspace
end MarkupDesk
