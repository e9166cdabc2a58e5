import MarkupDesk.Proofs.Run.Result
import MarkupDesk.Proofs.Settings.Key

/-!
# What the key makes a difference to

Two runs of the command can differ in where their keys come from and in what they are: on the
command line, in the environment, in settings files (`Host.SameButKeys`).  Nothing that the
command asks looks at the key, and the libraries that it uses do not log it (`Host.IgnoresKey`).
Then the two clients give the same answers (`Host.advisers_withKey`) and are logged alike
(`Host.turnLog_withKey`), so the operations take the same turn, and the endings are the same but
for the key in the requests (`Host.course_withKey`).

There is one way for a key to get out.  If the settings file that was chosen cannot be read as
settings, the run ends with what its reader says, and this may be something else with another
key in the file (`Host.Reveals`).  `Host.run_withKey_iff` says that it is the only one.

The operations of a session on the desk (`Consultation.map_withKey`) and the client itself are
alike with any two keys; `key_reaches_header_only_iff` puts the three together with what happens
without a key.
-/
namespace MarkupDesk

open Assistant (Job ask IsKey)
open CommandLine
open Text (trimmed)
open Web (Server Request)

/-! ## The desk -/

/-- The surroundings with the client of this server as the assistant.  An operation that is
dropped there is dropped here as well. -/
def Surroundings.consulting (s : Surroundings) (server : Server) (settings : AssistantSettings) :
    Surroundings :=
  { s with
    assistant := fun job document =>
      (s.assistant job document).map fun _ => (ask server settings job document).2 }

/-- The requests that a client sends in a turn. -/
def Turn.requests (t : Turn) (server : Server) (settings : AssistantSettings) : List Request :=
  t.asked.filterMap fun (job, document) => (ask server settings job document).1

/-- A client with another key gives the same answers. -/
theorem Surroundings.consulting_withKey {server : Server} (hserver : server.IgnoresKey)
    {key key' : String} (hkey : IsKey key) (hkey' : IsKey key') (s : Surroundings)
    (settings : AssistantSettings) :
    s.consulting server (settings.withKey (some key')) =
      s.consulting server (settings.withKey (some key)) := by
  unfold consulting
  simp only [Assistant.ask_withKey hserver hkey hkey']

/-- A client with another key sends the same requests with that key. -/
theorem Turn.requests_withKey {server : Server} (hserver : server.IgnoresKey)
    {key key' : String} (hkey : IsKey key) (hkey' : IsKey key') (t : Turn)
    (settings : AssistantSettings) :
    t.requests server (settings.withKey (some key')) =
      (t.requests server (settings.withKey (some key))).map (Request.withKey (trimmed key')) := by
  unfold requests
  simp only [Assistant.ask_withKey hserver hkey hkey', List.map_filterMap]

/-- Without a key a client sends nothing. -/
theorem Turn.requests_of_lacksKey {settings : AssistantSettings} (h : settings.LacksKey)
    (server : Server) (t : Turn) : t.requests server settings = [] := by
  unfold requests
  simp only [Assistant.ask_of_lacksKey h]
  exact List.filterMap_eq_nil_iff.mpr fun _ _ => rfl

/-- An operation asks the assistant once at most. -/
theorem Workspace.length_asked_perform (w : Workspace) (s : Surroundings) (operation : Operation) :
    (w.perform s operation).asked.length ≤ 1 := by
  have hstep (step : Step) : (step.take s.toAdvisers).asked.length ≤ 1 :=
    Nat.le_trans (Nat.le_add_left _ _) (step.length_questions_take s.toAdvisers)
  have hcopy (text : String) : (w.copy s text).asked.length ≤ 1 := by
    unfold copy
    cases s.clipboard text <;> exact Nat.zero_le 1
  cases operation with
  | setInput text => exact Nat.zero_le 1
  | validate | format | minify | assist _ => exact hstep _
  | load path =>
    cases hload : w.load s.disk path with
    | ok step =>
      simp only [perform, hload]
      exact hstep step
    | error failure =>
      simp only [perform, hload]
      exact Nat.zero_le 1
  | save =>
    unfold perform
    cases w.save s.target <;> exact Nat.zero_le 1
  | copyInput => exact hcopy w.input
  | copyOutput => exact hcopy w.output

theorem Turn.length_requests_le (t : Turn) (server : Server) (settings : AssistantSettings) :
    (t.requests server settings).length ≤ t.asked.length :=
  List.length_filterMap_le _ _

/-- An operation on the desk where the assistant is a client of this server. -/
structure Consultation where
  surroundings : Surroundings
  server : Server
  settings : AssistantSettings
  operation : Operation

/-- The operation with this key for the client. -/
def Consultation.withKey (key : Option String) (o : Consultation) : Surroundings × Operation :=
  (o.surroundings.consulting o.server (o.settings.withKey key), o.operation)

/-- Operations with another key are the same operations. -/
theorem Consultation.map_withKey {operations : List Consultation}
    (hservers : ∀ o ∈ operations, o.server.IgnoresKey) {key key' : String} (hkey : IsKey key)
    (hkey' : IsKey key') :
    operations.map (Consultation.withKey (some key')) =
      operations.map (Consultation.withKey (some key)) := by
  refine List.map_congr_left fun o ho => ?_
  rw [withKey, withKey, Surroundings.consulting_withKey (hservers o ho) hkey hkey']

/-! ## The command -/

/-- The ending with another key in the requests. -/
def Ending.withKey (key : String) (e : Ending) : Ending :=
  { e with requests := e.requests.map (Request.withKey key) }

/-- Two hosts that differ in the keys that they hold, in the environment and in settings files. -/
structure Host.SameButKeys (host host' : Host) : Prop where
  sources : host.toSources.SameButKeys host'.toSources
  standardInput : host'.standardInput = host.standardInput
  checker : host'.checker = host.checker
  checkerLog : host'.checkerLog = host.checkerLog
  server : host'.server = host.server
  setupFault : host'.setupFault = host.setupFault
  libraries : host'.libraries = host.libraries
  filterOf? : host'.filterOf? = host.filterOf?

theorem Host.sameButKeys_of_sources {host : Host} {sources : Settings.Sources}
    (h : host.toSources.SameButKeys sources) :
    host.SameButKeys { host with toSources := sources } :=
  ⟨h, rfl, rfl, rfl, rfl, rfl, rfl, rfl⟩

/-- Nobody that the host asks looks at the key: neither the server, nor the system when a client
is set up, nor the libraries in what they log. -/
structure Host.IgnoresKey (host : Host) : Prop where
  server : host.server.IgnoresKey
  setupFault : ∀ s key, host.setupFault (s.withKey key) = host.setupFault s
  libraries : host.libraries.IgnoresKey

/-- What a run tells about an error in the settings. -/
def SettingsError.told (e : SettingsError) : String := ": ".intercalate e.chain

/-- A run gets as far as its settings, and tells what the reader says about the chosen settings
file; and what is said about the file of the other host is something else. -/
def Host.Reveals (host host' : Host) (i : Invocation) : Prop :=
  i.objection? host.disk = none ∧
    ∃ path e e', Settings.source? host.toSources i = some path ∧
      Settings.ofFile host.toSources path = .error e ∧
      Settings.ofFile host'.toSources path = .error e' ∧ e.told ≠ e'.told

namespace Ending

variable {key : String}

theorem withKey_afterEvents (events : List Log.Event) (e : Ending) :
    (e.withKey key).afterEvents events = (e.afterEvents events).withKey key := rfl

theorem withKey_failed_eq (causes : List String) :
    (Ending.failed causes {}).withKey key = Ending.failed causes {} := rfl

/-- Two failures are the same if they are told in the same words. -/
theorem failed_inj {causes causes' : List String} :
    Ending.failed causes {} = Ending.failed causes' {} ↔
      ": ".intercalate causes = ": ".intercalate causes' := by
  constructor
  · intro h
    have hlines : [Line.note ("Error: " ++ ": ".intercalate causes)] =
        [Line.note ("Error: " ++ ": ".intercalate causes')] := congrArg Ending.lines h
    injection hlines with hline
    injection hline with htext
    exact (String.append_right_inj _).mp htext
  · intro h
    rw [failed, failed, h]

end Ending

namespace Host

variable {host host' : Host} {i : Invocation} {s : Settings} {key key' : String}

theorem advisers_withKey (h : host.SameButKeys host') (hblind : host.IgnoresKey)
    (hkey : IsKey key) (hkey' : IsKey key') (s : AssistantSettings) :
    host'.advisers (s.withKey (some key')) = host.advisers (s.withKey (some key)) := by
  unfold advisers
  rw [h.checker, h.server]
  simp only [Assistant.ask_withKey hblind.server hkey hkey']

/-! What is logged is the same. -/

theorem checkLog_eq (h : host.SameButKeys host') : host'.checkLog = host.checkLog := by
  funext document
  rw [checkLog, checkLog, h.checker, h.checkerLog]

theorem load_eq (h : host.SameButKeys host') (path : String) :
    Workspace.load {} host'.disk path = Workspace.load {} host.disk path := by
  unfold Workspace.load
  cases hpath : isLoadable path with
  | false => rfl
  | true => rw [h.sources.readText_eq hpath]

theorem inputLog_eq (h : host.SameButKeys host') (given : Option String) :
    host'.inputLog { i with apiKey := given } = host.inputLog i := by
  have hpath : Invocation.path? { i with apiKey := given } = i.path? := rfl
  unfold inputLog loadLog
  rw [hpath, checkLog_eq h]
  simp only [load_eq h]

theorem clientLog_withKey (h : host.SameButKeys host') (hblind : host.IgnoresKey)
    (key : Option String) (s : Settings) (command : Command) :
    host'.clientLog (s.withKey key) command = host.clientLog s command := by
  have hsetup : host'.libraries.setup (s.withKey key).assistant =
      host.libraries.setup s.assistant := by
    rw [h.libraries]
    exact hblind.libraries.setup s.assistant key
  rw [clientLog, clientLog, hsetup]

theorem turnLog_withKey (h : host.SameButKeys host') (hblind : host.IgnoresKey)
    (hkey : IsKey key) (hkey' : IsKey key') (s : AssistantSettings) (turn : Turn) :
    host'.turnLog (s.withKey (some key')) turn = host.turnLog (s.withKey (some key)) turn := by
  unfold turnLog
  rw [checkLog_eq h, h.libraries, h.server]
  simp only [Assistant.log_withKey hblind.libraries hblind.server hkey hkey']

theorem filter_eq (h : host.SameButKeys host') (given : Option String) :
    host'.filter { i with apiKey := given } = host.filter i := by
  have hvariable : host'.environment filterVariable = host.environment filterVariable :=
    h.sources.environment filterVariable (by decide) (by decide)
  rw [filter, filter, hvariable, h.filterOf?]
  rfl

/-! The operation and the export are the same. -/

theorem exported_withKey (h : host.SameButKeys host') (c : Console) (command : Command)
    (w : Workspace) (e : Ending) :
    host'.exported c command w (e.withKey key) = (host.exported c command w e).withKey key := by
  have htarget (directory : String) : host'.disk.target directory = host.disk.target directory := by
    funext d
    rw [Disk.target, Disk.target, h.sources.refusal]
  cases command with
  | validate _ | generate => rfl
  | transform kind input directory =>
    cases directory with
    | none => rfl
    | some directory =>
      unfold exported
      simp only [htarget]
      cases w.save (host.disk.target directory) <;> rfl

/-- The ending of a command after its turn, in which these requests were sent. -/
def concluded (host : Host) (c : Console) (command : Command) (turn : Turn)
    (requests : List Request) : Ending :=
  let w := turn.workspace
  let shown : Ending :=
    { lines := (c.statusLine? w.status w.notice.text).toList.map .note, requests := requests }
  if w.status = .error then
    { shown.withNotes (w.diagnosis.map c.details).toList with exitCode := 1 }
  else host.exported c command w shown

theorem carriedOut_eq_concluded (host : Host) (s : Settings) (command : Command) (w : Workspace) :
    host.carriedOut s command w =
      let turn := (command.step w).take (host.advisers s.assistant)
      Ending.afterEvents (host.turnLog s.assistant turn ++
          [.finished command turn.workspace.status]) <|
        host.concluded ⟨s.display.verbosity, s.display.color⟩ command turn
          (turn.requests host.server s.assistant) := rfl

theorem concluded_withKey (h : host.SameButKeys host') (c : Console) (command : Command)
    (turn : Turn) (requests : List Request) :
    host'.concluded c command turn (requests.map (Request.withKey key)) =
      (host.concluded c command turn requests).withKey key := by
  by_cases herror : turn.workspace.status = .error
  · rw [concluded, if_pos herror, concluded, if_pos herror]
    rfl
  · rw [concluded, if_neg herror, concluded, if_neg herror]
    exact exported_withKey h c command turn.workspace
      { lines := (c.statusLine? turn.workspace.status turn.workspace.notice.text).toList.map .note
        requests := requests }

/-- **An operation with another key ends alike, but for the key in its requests.** -/
theorem carriedOut_withKey (h : host.SameButKeys host') (hblind : host.IgnoresKey)
    (hkey : IsKey key) (hkey' : IsKey key') (s : Settings) (command : Command) (w : Workspace) :
    host'.carriedOut (s.withKey (some key')) command w =
      (host.carriedOut (s.withKey (some key)) command w).withKey (trimmed key') := by
  have hadvisers : host'.advisers (s.withKey (some key')).assistant =
      host.advisers (s.withKey (some key)).assistant :=
    advisers_withKey h hblind hkey hkey' s.assistant
  have hlog (turn : Turn) : host'.turnLog (s.withKey (some key')).assistant turn =
      host.turnLog (s.withKey (some key)).assistant turn :=
    turnLog_withKey h hblind hkey hkey' s.assistant turn
  have hrequests (turn : Turn) : turn.requests host'.server (s.withKey (some key')).assistant =
      (turn.requests host.server (s.withKey (some key)).assistant).map
        (Request.withKey (trimmed key')) := by
    rw [h.server]
    exact turn.requests_withKey hblind.server hkey hkey' s.assistant
  rw [carriedOut_eq_concluded, carriedOut_eq_concluded, hadvisers]
  simp only [hrequests, hlog, ← Ending.withKey_afterEvents]
  exact congrArg _ (concluded_withKey h _ command _ _)

theorem beginning_eq (h : host.SameButKeys host') (a : Advisers) (given : Option String) :
    host'.beginning a { i with apiKey := given } = host.beginning a i := by
  have hpath : Invocation.path? { i with apiKey := given } = i.path? := rfl
  have hopened : host'.opened a { i with apiKey := given } = host.opened a i := by
    unfold opened
    rw [hpath, h.standardInput]
    cases i.path? with
    | none => rfl
    | some path => simp only [load_eq h]
  unfold beginning
  rw [hopened]

theorem clientFault?_withKey (h : host.SameButKeys host') (hblind : host.IgnoresKey)
    (key : Option String) (s : Settings) (command : Command) :
    host'.clientFault? (s.withKey key) command = host.clientFault? s command := by
  have hfault : host'.setupFault (s.withKey key).assistant = host.setupFault s.assistant := by
    rw [h.setupFault]
    exact hblind.setupFault s.assistant key
  rw [clientFault?, clientFault?, hfault]

theorem objection?_eq (h : host.SameButKeys host') (i : Invocation) (given : Option String) :
    Invocation.objection? host'.disk { i with apiKey := given } = i.objection? host.disk := by
  unfold Invocation.objection?
  simp only [h.sources.hasDirectory_eq]

/-- With settings that differ in the key, the courses differ in the key of the requests. -/
theorem course_withKey (h : host.SameButKeys host') (hblind : host.IgnoresKey) (hkey : IsKey key)
    (hkey' : IsKey key') {given : Option String}
    (hloaded : ∀ s, Settings.load host.toSources i = .ok s → s.assistant.apiKey = some key)
    (hloaded' : ∀ s, Settings.load host'.toSources { i with apiKey := given } = .ok s →
      s.assistant.apiKey = some key')
    {loaded : Option String}
    (hsettings : Settings.load host'.toSources { i with apiKey := given } =
      (Settings.load host.toSources i).map (Settings.withKey loaded)) :
    host'.course { i with apiKey := given } = (host.course i).withKey (trimmed key') := by
  unfold course
  rw [objection?_eq h]
  cases i.objection? host.disk with
  | some objection => rfl
  | none =>
    cases hs : Settings.load host.toSources i with
    | error error =>
      rw [hs] at hsettings
      simp only [hsettings]
      rfl
    | ok s =>
      rw [hs] at hsettings
      have hs' : Settings.load host'.toSources { i with apiKey := given } =
        .ok (s.withKey loaded) := hsettings
      obtain rfl : loaded = some key' := hloaded' _ hs'
      have hsame : s = s.withKey (some key) := by
        rw [← hloaded s hs]
        rfl
      have hadvisers : host'.advisers (s.withKey (some key')).assistant =
          host.advisers s.assistant := by
        rw [hsame]
        exact advisers_withKey h hblind hkey hkey' s.assistant
      have hcarried (w : Workspace) := carriedOut_withKey h hblind hkey hkey' s i.command w
      rw [← hsame] at hcarried
      simp only [hs', hadvisers, beginning_eq h, inputLog_eq h, clientFault?_withKey h hblind,
        clientLog_withKey h hblind, hcarried]
      cases host.beginning (host.advisers s.assistant) i with
      | error causes => rfl
      | ok w => cases host.clientFault? s i.command <;> rfl

/-- A run without an objection fails with the error of its settings. -/
theorem run_of_settings_error (hobjection : i.objection? host.disk = none) {e : SettingsError}
    (hload : Settings.load host.toSources i = .error e) : host.run i = Ending.failed e.chain {} := by
  rw [run, course, hobjection]
  simp only [hload]
  rfl

/-- A run that reveals something fails with it, as does the other one with something else. -/
theorem Reveals.exists_runs (hreveals : host.Reveals host' i) (h : host.SameButKeys host')
    (given : Option String) : ∃ e e' : SettingsError, e.told ≠ e'.told ∧
      host.run i = Ending.failed e.chain {} ∧
        host'.run { i with apiKey := given } = Ending.failed e'.chain {} := by
  obtain ⟨hobjection, path, e, e', hsource, hfile, hfile', htold⟩ := hreveals
  have hsource' := (h.sources.source?_eq i given).trans hsource
  have hobjection' := (objection?_eq h i given).trans hobjection
  exact ⟨e, e', htold,
    run_of_settings_error hobjection (Settings.load_of_ofFile_error hsource hfile),
    run_of_settings_error hobjection' (Settings.load_of_ofFile_error hsource' hfile')⟩

/-- **A run with another key ends alike, but for the key in its requests**, exactly unless a
settings file that cannot be read reveals it. -/
theorem run_withKey_iff (h : host.SameButKeys host') (hblind : host.IgnoresKey)
    (hkey : IsKey key) (hkey' : IsKey key') (given : Option String)
    (hloaded : ∀ s, Settings.load host.toSources i = .ok s → s.assistant.apiKey = some key)
    (hloaded' : ∀ s, Settings.load host'.toSources { i with apiKey := given } = .ok s →
      s.assistant.apiKey = some key') :
    host'.run { i with apiKey := given } = (host.run i).withKey (trimmed key') ↔
      ¬ host.Reveals host' i := by
  constructor
  · intro hsame hreveals
    obtain ⟨e, e', htold, hrun, hrun'⟩ := hreveals.exists_runs h given
    rw [hrun, hrun', Ending.withKey_failed_eq] at hsame
    exact htold (Ending.failed_inj.mp hsame.symm)
  · intro hreveals
    rcases Settings.load_withKey_cases h.sources i given with
      ⟨loaded, hsettings⟩ | ⟨path, e, e', hsource, hfile, hfile', hload, hload'⟩
    · have hcourse := course_withKey h hblind hkey hkey' hloaded hloaded' hsettings
      rw [run, run, filter_eq h, hcourse]
      rfl
    · have hobjection' := objection?_eq h i given
      cases hobjection : i.objection? host.disk with
      | some objection =>
        rw [hobjection] at hobjection'
        rw [run, run, course, course, hobjection, hobjection']
        rfl
      | none =>
        have htold : e.told = e'.told := Decidable.not_not.mp fun hdiffer =>
          hreveals ⟨hobjection, path, e, e', hsource, hfile, hfile', hdiffer⟩
        rw [run_of_settings_error hobjection hload,
          run_of_settings_error (hobjection'.trans hobjection) hload', Ending.withKey_failed_eq]
        exact Ending.failed_inj.mpr htold.symm

/-! ## Requests -/

@[simp] theorem requests_exported (host : Host) (c : Console) (command : Command) (w : Workspace)
    (e : Ending) : (host.exported c command w e).requests = e.requests := by
  cases command with
  | validate _ | generate => rfl
  | transform kind input directory =>
    cases directory with
    | none => rfl
    | some directory =>
      cases hsave : w.save (host.disk.target directory) with
      | error failure =>
        simp only [exported, hsave]
        rfl
      | ok d =>
        simp only [exported, hsave]
        rfl

@[simp] theorem requests_concluded (host : Host) (c : Console) (command : Command) (turn : Turn)
    (requests : List Request) : (host.concluded c command turn requests).requests = requests := by
  unfold concluded
  by_cases herror : turn.workspace.status = .error
  · rw [if_pos herror]
    rfl
  · rw [if_neg herror]
    exact requests_exported _ _ _ _ _

theorem requests_carriedOut (host : Host) (s : Settings) (command : Command) (w : Workspace) :
    (host.carriedOut s command w).requests =
      ((command.step w).take (host.advisers s.assistant)).requests host.server s.assistant := by
  rw [carriedOut_eq_concluded]
  exact requests_concluded _ _ _ _ _

/-- A run sends one request at most. -/
theorem length_requests_run (host : Host) (i : Invocation) : (host.run i).requests.length ≤ 1 := by
  rw [← Ending.requests_withoutLog]
  rcases run_cases host i with ⟨_, causes, hrun⟩ | ⟨s, w, _, hrun⟩
  · rw [hrun]
    exact Nat.zero_le 1
  · rw [hrun, Ending.requests_withoutLog, requests_carriedOut]
    have hasked := (i.command.step w).length_questions_take (host.advisers s.assistant)
    have hsent := ((i.command.step w).take (host.advisers s.assistant)).length_requests_le
      host.server s.assistant
    omega

/-- The requests of a run hold the key without the blanks around it. -/
theorem key_of_mem_requests_run (hkey : IsKey key)
    (hloaded : ∀ s, Settings.load host.toSources i = .ok s →
      s.assistant.apiKey = some key) {r : Request} (hr : r ∈ (host.run i).requests) :
    r.key = trimmed key := by
  rw [← Ending.requests_withoutLog] at hr
  rcases run_cases host i with ⟨_, causes, hrun⟩ | ⟨s, w, hbegins, hrun⟩
  · rw [hrun] at hr
    cases hr
  · rw [hrun, Ending.requests_withoutLog, requests_carriedOut] at hr
    obtain ⟨⟨job, document⟩, _, hsent⟩ := List.mem_filterMap.mp hr
    have hsame : s.assistant = s.assistant.withKey (some key) := by
      rw [← hloaded s hbegins.settings]
      rfl
    rw [hsame] at hsent
    exact Assistant.key_of_ask hkey hsent

/-- An operation that needs the assistant fails without a key. -/
theorem status_worked_of_lacksKey {command : Command} {w : Workspace} (h : s.assistant.LacksKey)
    (hneeds : command.needsAssistant = true)
    (hblank : command.takesInput = true → ¬ w.isBlank = true) :
    (host.worked s command w).status = .error := by
  have hfails {job : Job} (hdeclines : ¬ w.Declines job) :
      ((w.assist job).take (host.advisers s.assistant)).workspace.status = .error := by
    rw [workspace_take_assist_advisers hdeclines, Assistant.ask_of_lacksKey h]
    rfl
  cases command with
  | validate _ => cases hneeds
  | generate => exact hfails fun hd => hd.1 rfl
  | transform kind _ _ =>
    cases kind with
    | format | minify => cases hneeds
    | repair | convert => exact hfails fun hd => hblank rfl hd.2

/-- Without a key a run sends nothing, and fails if it needs the assistant. -/
theorem run_of_lacksKey
    (h : ∀ s, Settings.load host.toSources i = .ok s →
      s.assistant.LacksKey) :
    (host.run i).requests = [] ∧
      (i.command.needsAssistant = true → (host.run i).exitCode = 1) := by
  rw [← Ending.requests_withoutLog, ← Ending.exitCode_withoutLog]
  rcases run_cases host i with ⟨_, causes, hrun⟩ | ⟨s, w, hbegins, hrun⟩
  · rw [hrun]
    exact ⟨rfl, fun _ => rfl⟩
  · have hlacks := h s hbegins.settings
    rw [hrun, Ending.requests_withoutLog, Ending.exitCode_withoutLog, requests_carriedOut]
    refine ⟨Turn.requests_of_lacksKey hlacks _ _, fun hneeds => ?_⟩
    exact (carriedOut_of_error
      (status_worked_of_lacksKey hlacks hneeds hbegins.fresh.2)).1

end Host

/-- **The key reaches nothing but its header, and what is said of a settings file that cannot be
read.**  With another key the client sends the same request but for the key, which it trims, and
has the same result; and a session on the desk goes the same way.  A run of the command leaves
the same behind, its log included, exactly unless it fails at a settings file and reveals what is
there.  Without a key nothing is sent, and what needs the assistant fails.  In any case an
operation sends one request at most. -/
theorem key_reaches_header_only_iff {key key' : String} (hkey : IsKey key) (hkey' : IsKey key') :
    (∀ (server : Server) (settings : AssistantSettings) (job : Job) (document : String),
      server.IgnoresKey →
        ask server (settings.withKey (some key')) job document =
          ((ask server (settings.withKey (some key)) job document).1.map
              (Request.withKey (trimmed key')),
            (ask server (settings.withKey (some key)) job document).2) ∧
        ∀ r, (ask server (settings.withKey (some key)) job document).1 = some r →
          r.key = trimmed key) ∧
    (∀ (w : Workspace) (operations : List Consultation),
      (∀ o ∈ operations, o.server.IgnoresKey) →
        w.session (operations.map (Consultation.withKey (some key'))) =
          w.session (operations.map (Consultation.withKey (some key)))) ∧
    (∀ (host host' : Host) (i : Invocation) (given : Option String),
      host.SameButKeys host' → host.IgnoresKey →
        (∀ s, Settings.load host.toSources i = .ok s → s.assistant.apiKey = some key) →
        (∀ s, Settings.load host'.toSources { i with apiKey := given } = .ok s →
          s.assistant.apiKey = some key') →
        (host'.run { i with apiKey := given } = (host.run i).withKey (trimmed key') ↔
          ¬ host.Reveals host' i) ∧
        (host.Reveals host' i → ∃ e e' : SettingsError,
          host.run i = Ending.failed e.chain {} ∧
            host'.run { i with apiKey := given } = Ending.failed e'.chain {}) ∧
        ∀ r ∈ (host.run i).requests, r.key = trimmed key) ∧
    (∀ (server : Server) (settings : AssistantSettings) (job : Job) (document : String),
      settings.LacksKey → ask server settings job document = (none, .error .missingKey)) ∧
    (∀ (host : Host) (i : Invocation),
      (∀ s, Settings.load host.toSources i = .ok s → s.assistant.LacksKey) →
      (host.run i).requests = [] ∧
        (i.command.needsAssistant = true → (host.run i).exitCode = 1)) ∧
    (∀ (w : Workspace) (s : Surroundings) (operation : Operation) (server : Server)
      (settings : AssistantSettings),
      ((w.perform s operation).requests server settings).length ≤ 1) ∧
    ∀ (host : Host) (i : Invocation), (host.run i).requests.length ≤ 1 := by
  refine ⟨fun server settings job document hserver =>
      ⟨Assistant.ask_withKey hserver hkey hkey', fun r hr => Assistant.key_of_ask hkey hr⟩,
    fun w operations hservers => ?_, fun host host' i given h hblind hloaded hloaded' =>
      ⟨Host.run_withKey_iff h hblind hkey hkey' given hloaded hloaded', fun hreveals => ?_,
        fun r hr => Host.key_of_mem_requests_run hkey hloaded hr⟩,
    fun server settings job document hlacks => Assistant.ask_of_lacksKey hlacks,
    fun host i hlacks => Host.run_of_lacksKey hlacks, fun w s operation server settings => ?_,
    Host.length_requests_run⟩
  · rw [Consultation.map_withKey hservers hkey hkey']
  · obtain ⟨e, e', _, hruns⟩ := hreveals.exists_runs h given
    exact ⟨e, e', hruns⟩
  · exact Nat.le_trans ((w.perform s operation).length_requests_le server settings)
      (w.length_asked_perform s operation)

/-- One key is in the first variable, and the other one in the second, with a blank in front. -/
theorem key_reaches_header_only_iff_variables :
    let reply := "\x7b\"candidates\":[\x7b\"content\":\x7b\"parts\":[" ++
      "\x7b\"text\":\"<a/>\"\x7d]\x7d\x7d]\x7d"
    let host : Host :=
      { Host.holding "a.xml" .empty with
        server := fun _ => .reply 200 reply.toUTF8.toList
        environment := fun name => if name = "GEMINI_API_KEY" then some "one" else none }
    let host' : Host :=
      { host with environment := fun name => if name = "API_KEY" then some " two" else none }
    let i : Invocation := { command := .generate, verbose := true }
    host'.run i = (host.run i).withKey "two" ∧ (host.run i).output = "<a/>\n" ∧
      (host.run i).requests.map Request.key = ["one"] := by
  intro reply host host' i
  have hkey : IsKey "one" := ⟨by decide, by simp⟩
  have hkey' : IsKey " two" := ⟨by decide, by simp⟩
  have hvariables : host.environment.SameButKeys host'.environment := by
    intro name hfirst hsecond
    simp [host, host', hfirst, hsecond]
  have hsame : host.SameButKeys host' :=
    Host.sameButKeys_of_sources ⟨fun _ => .inl rfl, fun _ => rfl, hvariables, rfl, rfl, rfl⟩
  have hblind : host.IgnoresKey :=
    ⟨fun _ _ => rfl, fun _ _ => rfl, Assistant.Libraries.ignoresKey_silent⟩
  have hloaded (s : Settings) (h : Settings.load host.toSources i = .ok s) :
      s.assistant.apiKey = some "one" := by
    obtain ⟨file, _, rfl⟩ := Settings.exists_eq_resolved_of_load h
    rfl
  have hloaded' (s : Settings) (h : Settings.load host'.toSources i = .ok s) :
      s.assistant.apiKey = some " two" := by
    obtain ⟨file, _, rfl⟩ := Settings.exists_eq_resolved_of_load h
    rfl
  have hkept : ¬ host.Reveals host' i := by
    rintro ⟨_, path, _, _, hsource, _⟩
    have hnone : Settings.source? host.toSources i = none := by decide +kernel
    rw [hnone] at hsource
    cases hsource
  obtain ⟨hrun, _⟩ := (key_reaches_header_only_iff hkey hkey').2.2.1 host host' i none hsame hblind
    hloaded hloaded'
  have htrimmed : trimmed " two" = "two" := by decide
  rw [htrimmed] at hrun
  exact ⟨hrun.mpr hkept, by decide +kernel, by decide +kernel⟩

/-- A host with a settings file of one line, which has a key of three characters and a time limit
that is no number.  The reader of the file says so, and quotes the line. -/
def Host.misconfigured (key : String) : Host :=
  let line := "ai = \x7b api_key = \"" ++ key ++ "\", timeout_seconds = \"soon\" \x7d"
  let quoting (text : String) := "TOML parse error at line 1, column 43\n  |\n1 | " ++ text ++
    "\n  | " ++ "".pushn ' ' 42 ++ "^^^^^^\ninvalid type: string \"soon\", expected u64\n"
  { Host.holding "./xml-studio.toml" line.toUTF8 with
    standardInput := "<a/>".toUTF8
    readers := ⟨quoting, fun _ => ""⟩ }

theorem Host.sameButKeys_misconfigured :
    (Host.misconfigured "one").SameButKeys (Host.misconfigured "two") := by
  let path := "./xml-studio.toml"
  obtain ⟨e, he⟩ := Settings.exists_ofFile_error (Host.misconfigured "one").toSources path
    (by decide +kernel)
  obtain ⟨e', he'⟩ := Settings.exists_ofFile_error (Host.misconfigured "two").toSources path
    (by decide +kernel)
  have hfiles (p : String) :
      (Host.misconfigured "two").disk.find p = (Host.misconfigured "one").disk.find p ∨
        (Host.misconfigured "one").toSources.DifferInKey (Host.misconfigured "two").toSources p := by
    by_cases hp : p = path
    · subst hp
      have hfind (content : ByteArray) := Host.find_holding path content
      exact .inr (.unread (hfind _) (hfind _) (by decide +kernel) he he')
    · exact .inl ((if_neg hp).trans (if_neg hp).symm)
  exact Host.sameButKeys_of_sources ⟨hfiles, fun _ => rfl, fun _ _ _ => rfl, rfl, rfl, rfl⟩

/-- Standard error tells a key. -/
theorem not_forall_key_reaches_header_only :
    ¬ ∀ (key key' : String) (host host' : Host) (i : Invocation) (given : Option String),
      IsKey key → IsKey key' → host.SameButKeys host' → host.IgnoresKey →
        (∀ s, Settings.load host.toSources i = .ok s → s.assistant.apiKey = some key) →
        (∀ s, Settings.load host'.toSources { i with apiKey := given } = .ok s →
          s.assistant.apiKey = some key') →
        (host'.run { i with apiKey := given }).errorText (fun _ => true) (·.text) "0s" =
          (host.run i).errorText (fun _ => true) (·.text) "0s" := by
  intro h
  let i : Invocation := { command := .transform .format none none }
  have hblind : (Host.misconfigured "one").IgnoresKey :=
    ⟨fun _ _ => rfl, fun _ _ => rfl, Assistant.Libraries.ignoresKey_silent⟩
  have hunloaded {key : String} {s : Settings} (hnone : (Settings.load
      (Host.misconfigured key).toSources i).toOption = none)
      (hs : Settings.load (Host.misconfigured key).toSources i = .ok s) : False := by
    rw [hs] at hnone
    cases hnone
  have hsame := h "one" "two" (Host.misconfigured "one") (Host.misconfigured "two") i none
    ⟨by decide, by simp⟩ ⟨by decide, by simp⟩ Host.sameButKeys_misconfigured hblind
    (fun s hs => (hunloaded (by decide +kernel) hs).elim)
    (fun s hs => (hunloaded (by decide +kernel) hs).elim)
  revert hsame
  decide +kernel

end MarkupDesk
