import MarkupDesk.Assistant.Log
import MarkupDesk.Proofs.Text.Edges

/-!
# The key of the assistant

The client sends its key in a header of its own, without the blanks around it, and does nothing
else with it.  Two keys that can be sent (`IsKey`) make requests that differ in this header
only (`request_withKey`), and if the server does not look at it, the same result
(`ask_withKey`).  With a blank key or none at all nothing is sent
(`ask_of_lacksKey`).

What is logged about a job is the same as well, if the libraries behind the client do not log
the key (`log_withKey`).
-/
namespace MarkupDesk

/-- The settings with another key. -/
def AssistantSettings.withKey (key : Option String) (s : AssistantSettings) : AssistantSettings :=
  { s with apiKey := key }

/-- There is no key, or a blank one. -/
def AssistantSettings.LacksKey (s : AssistantSettings) : Prop :=
  ∀ key, s.apiKey = some key → Text.isBlankText key = true

namespace Web

/-- The request with another key. -/
def Request.withKey (key : String) (r : Request) : Request := { r with key := key }

/-- The server answers alike whatever the key. -/
def Server.IgnoresKey (server : Server) : Prop := ∀ r key, server (Request.withKey key r) = server r

end Web

namespace Assistant

open Web (Request Server fitsHeader)
open Text (trimmed isBlankText)

/-- A key that can be sent: it is not blank, and has no control characters. -/
structure IsKey (key : String) : Prop where
  not_blank : ¬ isBlankText key = true
  plain : ∀ c ∈ key.toList, 0x20 ≤ c.toNat ∧ c.toNat ≠ 0x7F

variable {s : AssistantSettings} {key key' : String} {job : Job} {document : String}
  {server : Server}

/-! ## Requests -/

theorem IsKey.fitsHeader_trimmed (h : IsKey key) : fitsHeader (trimmed key) = true := by
  rw [fitsHeader, List.all_eq_true, Text.toList_trimmed]
  intro c hc
  have hplain := h.plain c ((Text.trim_isInfix _).subset hc)
  simp [hplain]

theorem IsKey.usableKey_eq (h : IsKey key) :
    usableKey (s.withKey (some key)) = some (trimmed key) := by
  have hnonempty : trimmed key ≠ "" := fun hempty =>
    h.not_blank (Text.trimmed_eq_empty_iff.mp hempty)
  simp [usableKey, AssistantSettings.withKey, hnonempty]

theorem usableKey_eq_none_iff : usableKey s = none ↔ s.LacksKey := by
  unfold usableKey AssistantSettings.LacksKey
  cases s.apiKey with
  | none => simp
  | some key => simp [Text.trimmed_eq_empty_iff]

/-- **Two keys make requests that differ in the key only.** -/
theorem request_withKey (hkey : IsKey key) (hkey' : IsKey key') :
    request (s.withKey (some key')) job document =
      (request (s.withKey (some key)) job document).map (Request.withKey (trimmed key')) := by
  simp only [request, hkey.usableKey_eq, hkey'.usableKey_eq, hkey.fitsHeader_trimmed,
    hkey'.fitsHeader_trimmed, if_true]
  have hendpoint : endpoint (s.withKey (some key')) = endpoint (s.withKey (some key)) := rfl
  rw [hendpoint]
  cases Web.Url.ofText? (endpoint (s.withKey (some key))) <;> rfl

theorem key_of_request (hkey : IsKey key) {r : Request}
    (h : request (s.withKey (some key)) job document = .ok r) : r.key = trimmed key := by
  have hsame : request (s.withKey (some key)) job document =
      (request (s.withKey (some key)) job document).map (Request.withKey (trimmed key)) :=
    request_withKey hkey hkey
  rw [h] at hsame
  exact congrArg Request.key (Except.ok.inj hsame)

/-! ## Results -/

/-- A request that a job has sent holds the key without the blanks around it. -/
theorem key_of_ask (hkey : IsKey key) {r : Request}
    (h : (ask server (s.withKey (some key)) job document).1 = some r) : r.key = trimmed key := by
  unfold ask at h
  cases hrequest : request (s.withKey (some key)) job document with
  | error e =>
    rw [hrequest] at h
    cases h
  | ok sent =>
    rw [hrequest] at h
    obtain rfl : sent = r := Option.some.inj h
    exact key_of_request hkey hrequest

/-- A job with another key sends the request with that key, and has the same result. -/
theorem ask_withKey (hserver : server.IgnoresKey) (hkey : IsKey key) (hkey' : IsKey key') :
    ask server (s.withKey (some key')) job document =
      ((ask server (s.withKey (some key)) job document).1.map (Request.withKey (trimmed key')),
        (ask server (s.withKey (some key)) job document).2) := by
  unfold ask
  rw [request_withKey hkey hkey']
  cases request (s.withKey (some key)) job document with
  | error e => rfl
  | ok r =>
    show (some (r.withKey (trimmed key')), answer job (server (r.withKey (trimmed key')))) = _
    rw [hserver]
    rfl

/-- Without a key nothing is sent. -/
theorem ask_of_lacksKey (h : s.LacksKey) :
    ask server s job document = (none, .error .missingKey) := by
  simp [ask, request, usableKey_eq_none_iff.mpr h]

/-! ## The log -/

/-- The libraries behind the client log and say the same whatever the key; where no request can
be made, whatever key that can be sent. -/
structure Libraries.IgnoresKey (libraries : Libraries) : Prop where
  setup : ∀ s key, libraries.setup (s.withKey key) = libraries.setup s
  underWay : ∀ r key, libraries.underWay (Request.withKey key r) = libraries.underWay r
  unsent : ∀ (s : AssistantSettings) {key key' : String}, IsKey key → IsKey key' →
    libraries.unsent (s.withKey (some key')) = libraries.unsent (s.withKey (some key))
  unanswered : ∀ r key, libraries.unanswered (Request.withKey key r) = libraries.unanswered r

theorem Libraries.ignoresKey_silent : Libraries.silent.IgnoresKey :=
  ⟨fun _ _ => rfl, fun _ _ => rfl, fun _ _ _ _ _ => rfl, fun _ _ => rfl⟩

section
variable {libraries : Libraries} (hlibraries : libraries.IgnoresKey)
  (hserver : server.IgnoresKey) (hkey : IsKey key) (hkey' : IsKey key')
include hlibraries hserver hkey hkey'

theorem reason_withKey :
    reason libraries server (s.withKey (some key')) job document =
      reason libraries server (s.withKey (some key)) job document := by
  unfold reason
  rw [request_withKey hkey hkey']
  cases request (s.withKey (some key)) job document with
  | error e => exact hlibraries.unsent s hkey hkey'
  | ok r => simp only [Except.map, hserver r, hlibraries.unanswered]

theorem exchangeLog_withKey :
    exchangeLog libraries server (s.withKey (some key')) job document =
      exchangeLog libraries server (s.withKey (some key)) job document := by
  have hdelivery (d : Web.Delivery) : deliveryLog libraries (s.withKey (some key')) d =
      deliveryLog libraries (s.withKey (some key)) d := rfl
  have hendpoint : endpoint (s.withKey (some key')) = endpoint (s.withKey (some key)) := rfl
  have hmodel : (s.withKey (some key')).model = (s.withKey (some key)).model := rfl
  unfold exchangeLog
  simp only [hkey.usableKey_eq, hkey'.usableKey_eq, hendpoint, hmodel]
  rw [request_withKey hkey hkey']
  cases request (s.withKey (some key)) job document with
  | error e => rfl
  | ok r => simp only [Except.map, hserver r, hlibraries.underWay, hdelivery]

/-- **A job with another key is logged alike.** -/
theorem log_withKey :
    log libraries server (s.withKey (some key')) job document =
      log libraries server (s.withKey (some key)) job document := by
  unfold log
  rw [exchangeLog_withKey hlibraries hserver hkey hkey',
    reason_withKey hlibraries hserver hkey hkey', ask_withKey hserver hkey hkey']

end

end Assistant
end MarkupDesk
