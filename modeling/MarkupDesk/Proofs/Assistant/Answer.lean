import MarkupDesk.Proofs.Assistant.Textless

/-!
# What the result of a job depends on

Of a reply the client looks at the status first, then at the form of the body, and then at the
first candidate.  Of the candidate only the text counts, which may be cut into parts anywhere,
even inside of a fence (`Joined`).  So two replies that say the same have the same result,
whatever else is in them (`ask_tells_text`).
-/
namespace MarkupDesk.Assistant

open Web (Server isSuccess reasonPhrase bodyText)

/-- The text that these parts make up.  A part without a text adds nothing. -/
inductive Joined : List (Option String) → String → Prop
  | nil : Joined [] ""
  | skip {parts : List (Option String)} {text : String} :
      Joined parts text → Joined (none :: parts) text
  | part (t : String) {parts : List (Option String)} {text : String} :
      Joined parts text → Joined (some t :: parts) (t ++ text)

/-- The client joins the texts of the parts. -/
theorem Joined.join_eq {parts : List (Option String)} {text : String} (h : Joined parts text) :
    String.join (parts.filterMap id) = text := by
  induction h with
  | nil => rfl
  | skip _ ih => rw [List.filterMap_cons_none rfl, ih]
  | part t _ ih => rw [List.filterMap_cons_some (f := id) rfl, String.join_cons, ih]

/-- The first candidate of a reply has a part with a text, and its texts make up this one. -/
def Reply.Says (r : Reply) (text : String) : Prop :=
  ∃ parts, r.parts? = some parts ∧ (∃ t, some t ∈ parts) ∧ Joined parts text

theorem Reply.Says.text_eq {r : Reply} {text : String} (h : r.Says text) : r.text = .ok text := by
  obtain ⟨parts, hparts, _, hjoined⟩ := h
  exact text_ok_iff.mpr ⟨parts, hparts, hjoined.join_eq⟩

/-- The request for the job has been sent, and this is what came back. -/
def Receives (server : Server) (settings : AssistantSettings) (job : Job) (document : String)
    (status : Nat) (body : List UInt8) : Prop :=
  ∃ r, request settings job document = .ok r ∧ server r = .reply status body

variable {server : Server} {settings : AssistantSettings} {job : Job} {document : String}
  {status : Nat} {body : List UInt8}

theorem Receives.ask_eq (h : Receives server settings job document status body) :
    (ask server settings job document).2 = answer job (.reply status body) := by
  obtain ⟨r, hrequest, hserver⟩ := h
  simp [ask, hrequest, hserver]

theorem Receives.answers {reply : Reply} (h : Receives server settings job document status body)
    (hstatus : isSuccess status = true) (hbody : Reply.ofText? (bodyText body) = some reply) :
    Answers server settings job document reply := by
  obtain ⟨r, hrequest, hserver⟩ := h
  exact ⟨r, status, body, hrequest, hserver, hstatus, hbody⟩

/-- A refusal is told with its status and its text, even if the text is a reply. -/
theorem Receives.ask_eq_status (h : Receives server settings job document status body)
    (hstatus : isSuccess status = false) :
    (ask server settings job document).2 =
      .error (.status status (reasonPhrase status ++ ": " ++ bodyText body)) := by
  rw [h.ask_eq, answer, hstatus]
  rfl

theorem Receives.ask_eq_malformed (h : Receives server settings job document status body)
    (hstatus : isSuccess status = true) (hbody : Reply.ofText? (bodyText body) = none) :
    (ask server settings job document).2 = .error .malformed := by
  rw [h.ask_eq, answer]
  simp [hstatus, hbody]

/-- The result of a reply with a text is this text without its fence. -/
theorem Answers.ask_eq_unfence {reply : Reply} {text : String}
    (h : Answers server settings job document reply) (hspoken : reply.Says text) :
    (ask server settings job document).2 = .ok (unfence job.language text) := by
  rw [h.ask_eq, hspoken.text_eq]
  rfl

/-- **The result of a job depends on the status and on the joined text alone.**  A refusal is
passed on with its status and text, then a body of another form is malformed, then a reply
without a candidate or without a content is empty.  Otherwise the result is the joined text of
the first candidate without its fence, and so it is the same for every reply to such a job,
from whatever server, that says the same. -/
theorem ask_tells_text (h : Receives server settings job document status body) :
    (isSuccess status = false → (ask server settings job document).2 =
      .error (.status status (reasonPhrase status ++ ": " ++ bodyText body))) ∧
    (isSuccess status = true → Reply.ofText? (bodyText body) = none →
      (ask server settings job document).2 = .error .malformed) ∧
    ∀ reply, isSuccess status = true → Reply.ofText? (bodyText body) = some reply →
      (reply.candidates = [] ∨ (∃ first rest, reply.candidates = first :: rest ∧
          first.content = none) →
        ∃ reason, (ask server settings job document).2 = .error (.empty reason)) ∧
      ∀ text, reply.Says text →
        (ask server settings job document).2 = .ok (unfence job.language text) ∧
        ∀ server' settings' job' document' status' body' reply',
          job'.language = job.language →
          Receives server' settings' job' document' status' body' →
          isSuccess status' = true → Reply.ofText? (bodyText body') = some reply' →
          reply'.Says text →
            (ask server' settings' job' document').2 = (ask server settings job document).2 := by
  refine ⟨h.ask_eq_status, h.ask_eq_malformed, fun reply hstatus hbody => ⟨?_, ?_⟩⟩
  · intro hnone
    apply (h.answers hstatus hbody).exists_ask_eq_empty_iff.mpr
    rcases hnone with hnone | ⟨first, rest, hfirst, hcontent⟩
    · simp [Reply.parts?, hnone]
    · simp [Reply.parts?, hfirst, hcontent]
  · intro text hspoken
    have hresult := (h.answers hstatus hbody).ask_eq_unfence hspoken
    refine ⟨hresult, ?_⟩
    intro server' settings' job' document' status' body' reply' hlanguage h' hstatus' hbody' hspoken'
    rw [(h'.answers hstatus' hbody').ask_eq_unfence hspoken', hlanguage, hresult]

/-- A fenced text that is cut inside of both fences, in a reply with a part without a text, with
another candidate and with counts. -/
def cutReply : String :=
  "\x7b\"candidates\":[\x7b\"content\":\x7b\"parts\":[\x7b\"text\":\"\x60\x60\x60xm\"\x7d,\x7b\x7d," ++
    "\x7b\"text\":\"l\\n<a/>\\n\x60\x60\"\x7d,\x7b\"text\":\"\x60\"\x7d]\x7d," ++
    "\"finishReason\":\"MAX_TOKENS\"\x7d,\x7b\x7d],\"usageMetadata\":\x7b\"totalTokenCount\":7\x7d\x7d"

/-- The same text in one part. -/
def wholeReply : String :=
  "\x7b\"candidates\":[\x7b\"content\":\x7b\"parts\":[" ++
    "\x7b\"text\":\"\x60\x60\x60xml\\n<a/>\\n\x60\x60\x60\"\x7d]\x7d\x7d]\x7d"

theorem receives_always (text : String) (job : Job) (document : String) :
    Receives (Workspace.always text) Workspace.withKey job document 200
      (text.toList.map fun c => UInt8.ofNat c.toNat) := by
  cases h : request Workspace.withKey job document with
  | error e =>
    have hsent := Workspace.isSome_request_withKey job document
    rw [h] at hsent
    cases hsent
  | ok r => exact ⟨r, h, rfl⟩

/-- Cut or whole, the text has the same result. -/
theorem ask_tells_text_cut :
    (ask (Workspace.always cutReply) Workspace.withKey .repair "<a>").2 = .ok "<a/>" ∧
      (ask (Workspace.always wholeReply) Workspace.withKey .generate "").2 =
        (ask (Workspace.always cutReply) Workspace.withKey .repair "<a>").2 := by
  let cut : Candidate :=
    ⟨some [some "\x60\x60\x60xm", none, some "l\n<a/>\n\x60\x60", some "\x60"], some "MAX_TOKENS"⟩
  have hcut : Reply.Says ⟨[cut, ⟨none, none⟩], some ⟨none, none, some 7⟩⟩
      "\x60\x60\x60xml\n<a/>\n\x60\x60\x60" :=
    ⟨_, rfl, ⟨_, List.mem_cons_self ..⟩, .part _ (.skip (.part _ (.part _ .nil)))⟩
  have hwhole : Reply.Says ⟨[⟨some [some "\x60\x60\x60xml\n<a/>\n\x60\x60\x60"], none⟩], none⟩
      "\x60\x60\x60xml\n<a/>\n\x60\x60\x60" :=
    ⟨_, rfl, ⟨_, List.mem_cons_self ..⟩, .part _ .nil⟩
  obtain ⟨hresult, hsame⟩ := ((ask_tells_text (receives_always cutReply .repair "<a>")).2.2 _
    (by decide) (by decide +kernel)).2 _ hcut
  refine ⟨?_, hsame _ _ _ _ _ _ _ rfl (receives_always wholeReply .generate "") (by decide)
    (by decide +kernel) hwhole⟩
  have hpayload : unfence "xml" "\x60\x60\x60xml\n<a/>\n\x60\x60\x60" = "<a/>" := by decide
  exact hresult.trans (congrArg Except.ok hpayload)

end MarkupDesk.Assistant
