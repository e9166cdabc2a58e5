import MarkupDesk.Proofs.Assistant.Key
import MarkupDesk.Proofs.Settings.Precedence
import MarkupDesk.Workspace.View

/-!
# The key in the settings

A key can be given on the command line, in two variables of the environment and in a settings
file.  Two ways to give keys, with everything else the same (`Settings.Sources.SameButKeys`),
lead to the same settings but for the key, or to the same error.

There is one exception: of a settings file that cannot be read as such, the error is told in
the words of its reader.  These may quote the line of the key, and then the two errors are two
(`load_withKey_cases`).
-/
namespace MarkupDesk

open CommandLine

/-- The settings with another key. -/
def Settings.withKey (key : Option String) (s : Settings) : Settings :=
  { s with assistant := s.assistant.withKey key }

/-- The two environments set the same variables, apart from those for the key. -/
def Environment.SameButKeys (env env' : Environment) : Prop :=
  ∀ name, name ≠ "GEMINI_API_KEY" → name ≠ "API_KEY" → env' name = env name

namespace Settings

/-- Two settings files at one path that differ in their key: both can be read, as settings that
differ in the key only, or neither can.  A path of documents is not among them. -/
inductive Sources.DifferInKey (sources sources' : Sources) (path : String) : Prop where
  | read {s : Settings} {key : Option String} :
      ofFile sources path = .ok s → ofFile sources' path = .ok (s.withKey key) →
      DifferInKey sources sources' path
  | unread {content content' : ByteArray} {e e' : SettingsError} :
      sources.disk.find path = .file content → sources'.disk.find path = .file content' →
      isLoadable path = false → ofFile sources path = .error e → ofFile sources' path = .error e' →
      DifferInKey sources sources' path

/-- The two sources are the same, apart from the keys in the environment and in settings
files. -/
structure Sources.SameButKeys (sources sources' : Sources) : Prop where
  find : ∀ path, sources'.disk.find path = sources.disk.find path ∨
    sources.DifferInKey sources' path
  refusal : ∀ path, sources'.disk.refusal path = sources.disk.refusal path
  environment : sources.environment.SameButKeys sources'.environment
  userDirectory : sources'.userDirectory = sources.userDirectory
  terminal : sources'.terminal = sources.terminal
  readers : sources'.readers = sources.readers

/-! ## Files -/

theorem exists_find_of_ofFile {sources : Sources} {path : String} {s : Settings}
    (h : ofFile sources path = .ok s) : ∃ content, sources.disk.find path = .file content := by
  unfold ofFile Disk.readText at h
  cases hfind : sources.disk.find path with
  | file content => exact ⟨content, rfl⟩
  | directory | unreadable _ | nothing _ => simp [hfind] at h

theorem exists_ofFile_error (sources : Sources) (path : String)
    (h : (ofFile sources path).toOption = none) : ∃ e, ofFile sources path = .error e := by
  cases hfile : ofFile sources path with
  | error e => exact ⟨e, rfl⟩
  | ok s =>
    rw [hfile] at h
    cases h

/-- What is read as settings cannot be loaded as a document. -/
theorem isLoadable_of_ofFile {sources : Sources} {path : String} {s : Settings}
    (h : ofFile sources path = .ok s) : isLoadable path = false := by
  unfold ofFile at h
  cases hread : sources.disk.readText path with
  | error fault =>
    rw [hread] at h
    cases h
  | ok text =>
    rw [hread] at h
    change ofText sources (Path.extension? path) text = .ok s at h
    unfold ofText at h
    unfold isLoadable
    split at h
    · rename_i hextension
      rw [hextension]
      decide +kernel
    · rename_i hextension
      rw [hextension]
      decide +kernel
    · cases h
    · rename_i hextension
      rw [hextension]

/-- A file is read by its text, by the readers, and with regard to the terminal. -/
theorem ofFile_congr {sources sources' : Sources} {path : String}
    (htext : sources'.disk.readText path = sources.disk.readText path)
    (hterminal : sources'.terminal = sources.terminal)
    (hreaders : sources'.readers = sources.readers) : ofFile sources' path = ofFile sources path := by
  unfold ofFile ofText ofToml ofJson
  rw [htext, hterminal, hreaders]

theorem fileLayer_of_ofFile_error {sources : Sources} {path : String} {e : SettingsError}
    (h : ofFile sources path = .error e) : fileLayer sources (some path) = .error e := by
  rw [Layer.settings_ofFile] at h
  show Layer.ofFile sources path = .error e
  cases hlayer : Layer.ofFile sources path with
  | error e' =>
    rw [hlayer] at h
    exact congrArg Except.error (Except.error.inj h)
  | ok layer =>
    rw [hlayer] at h
    cases h

namespace Sources.SameButKeys

variable {sources sources' : Sources} (h : sources.SameButKeys sources')
include h

/-- Where the disks differ they have files that are no documents. -/
theorem find_cases (path : String) : sources'.disk.find path = sources.disk.find path ∨
    (∃ content content', sources.disk.find path = .file content ∧
      sources'.disk.find path = .file content') ∧ isLoadable path = false := by
  rcases h.find path with hsame | hdiffer
  · exact .inl hsame
  · cases hdiffer with
    | read hs hs' =>
      obtain ⟨content, hfind⟩ := exists_find_of_ofFile hs
      obtain ⟨content', hfind'⟩ := exists_find_of_ofFile hs'
      exact .inr ⟨⟨content, content', hfind, hfind'⟩, isLoadable_of_ofFile hs⟩
    | unread hfind hfind' hpath _ _ => exact .inr ⟨⟨_, _, hfind, hfind'⟩, hpath⟩

theorem has_eq (path : String) : sources'.disk.has path = sources.disk.has path := by
  rcases h.find_cases path with hsame | ⟨⟨content, content', hfind, hfind'⟩, _⟩
  · rw [Disk.has, Disk.has, hsame]
  · rw [Disk.has, Disk.has, hfind, hfind']

theorem hasDirectory_eq (path : String) :
    sources'.disk.hasDirectory path = sources.disk.hasDirectory path := by
  rcases h.find_cases path with hsame | ⟨⟨content, content', hfind, hfind'⟩, _⟩
  · rw [Disk.hasDirectory, Disk.hasDirectory, hsame]
  · rw [Disk.hasDirectory, Disk.hasDirectory, hfind, hfind']

theorem readText_eq {path : String} (hpath : isLoadable path = true) :
    sources'.disk.readText path = sources.disk.readText path := by
  rcases h.find_cases path with hsame | ⟨_, hno⟩
  · rw [Disk.readText, Disk.readText, hsame]
  · rw [hpath] at hno
    cases hno

/-- A file is read as settings that differ in the key, or cannot be read in either case. -/
theorem ofFile_cases (path : String) :
    (∃ key, ofFile sources' path = (ofFile sources path).map (Settings.withKey key)) ∨
      ∃ e e', ofFile sources path = .error e ∧ ofFile sources' path = .error e' := by
  rcases h.find path with hsame | hdiffer
  · have htext : sources'.disk.readText path = sources.disk.readText path := by
      rw [Disk.readText, Disk.readText, hsame]
    have hfile := ofFile_congr htext h.terminal h.readers
    cases hs : ofFile sources path with
    | error e => exact .inr ⟨e, e, rfl, hfile.trans hs⟩
    | ok s => exact .inl ⟨s.assistant.apiKey, hfile.trans hs⟩
  · cases hdiffer with
    | @read s key hs hs' =>
      rw [hs, hs']
      exact .inl ⟨key, rfl⟩
    | unread _ _ _ he he' => exact .inr ⟨_, _, he, he'⟩

theorem source?_eq (i : Invocation) (given : Option String) :
    source? sources' { i with apiKey := given } = source? sources i := by
  unfold source?
  rw [h.userDirectory]
  exact file?_congr h.has_eq _ _

end Sources.SameButKeys

/-! ## The other sources -/

variable {env env' : Environment} {i : Invocation}

theorem exists_withEnvironment_withKey (h : env.SameButKeys env') (key : Option String)
    (s : Settings) :
    ∃ key', withEnvironment env' (s.withKey key) = (withEnvironment env s).map (withKey key') := by
  have htimeout := h "XML_STUDIO_TIMEOUT" (by decide) (by decide)
  have hmodel := h "XML_STUDIO_MODEL" (by decide) (by decide)
  have haddress := h "XML_STUDIO_BASE_URL" (by decide) (by decide)
  unfold withEnvironment
  rw [htimeout, hmodel, haddress]
  cases env "XML_STUDIO_TIMEOUT" with
  | none => exact ⟨_, rfl⟩
  | some value =>
    cases hcount : Text.readCount value with
    | none =>
      simp only [hcount]
      exact ⟨none, rfl⟩
    | some n =>
      simp only [hcount]
      exact ⟨_, rfl⟩

theorem withInvocation_withKey (given key : Option String) (s : Settings) :
    withInvocation { i with apiKey := given } (s.withKey key) =
      (s.withInvocation i).withKey (given.or key) := rfl

theorem checked_withKey (key : Option String) (s : Settings) :
    checked (s.withKey key) = (checked s).map (withKey key) := by
  have hflaw : (s.withKey key).flaw? = s.flaw? := rfl
  rw [checked, checked, hflaw]
  cases s.flaw? <;> rfl

/-- If two results differ in the key only, and what is made of them does, so do the results of
both together. -/
theorem exists_bind_withKey {x x' : Except SettingsError Settings}
    {f f' : Settings → Except SettingsError Settings} (hx : ∃ key, x' = x.map (withKey key))
    (hf : ∀ s key, ∃ key', f' (s.withKey key) = (f s).map (withKey key')) :
    ∃ key, x' >>= f' = (x >>= f).map (withKey key) := by
  obtain ⟨key, rfl⟩ := hx
  cases x with
  | error e => exact ⟨none, rfl⟩
  | ok s => exact hf s key

/-- An error of the chosen file is the error of the settings. -/
theorem load_of_ofFile_error {sources : Sources} {path : String} {e : SettingsError}
    (hpath : source? sources i = some path) (h : ofFile sources path = .error e) :
    load sources i = .error e := by
  refine load_of_file_error ?_
  rw [hpath]
  exact fileLayer_of_ofFile_error h

/-- **Other keys lead to other settings only by their key**, unless it is the chosen file that
fails. -/
theorem load_withKey_cases {sources sources' : Sources} (h : sources.SameButKeys sources')
    (i : Invocation) (given : Option String) :
    (∃ key, load sources' { i with apiKey := given } = (load sources i).map (withKey key)) ∨
      ∃ path e e', source? sources i = some path ∧
        ofFile sources path = .error e ∧ ofFile sources' path = .error e' ∧
        load sources i = .error e ∧ load sources' { i with apiKey := given } = .error e' := by
  have hrest (s : Settings) (key : Option String) :
      ∃ key', (withEnvironment sources'.environment (s.withKey key) >>= fun s =>
          checked (withInvocation { i with apiKey := given } s)) =
        (withEnvironment sources.environment s >>= fun s => checked (s.withInvocation i)).map
          (withKey key') := by
    refine exists_bind_withKey (exists_withEnvironment_withKey h.environment key s) fun s key => ?_
    rw [withInvocation_withKey]
    exact ⟨_, checked_withKey _ _⟩
  have hsource := h.source?_eq i given
  cases hpath : source? sources i with
  | none =>
    left
    rw [load_eq_bind, load_eq_bind, hsource, hpath, h.terminal]
    exact exists_bind_withKey ⟨none, rfl⟩ hrest
  | some path =>
    rcases h.ofFile_cases path with ⟨key, hfile⟩ | ⟨e, e', he, he'⟩
    · left
      rw [load_eq_bind, load_eq_bind, hsource, hpath]
      rw [Layer.settings_ofFile, Layer.settings_ofFile] at hfile
      exact exists_bind_withKey ⟨key, hfile⟩ hrest
    · exact .inr ⟨path, e, e', rfl, he, he', load_of_ofFile_error hpath he,
        load_of_ofFile_error (hsource.trans hpath) he'⟩

end Settings
end MarkupDesk
