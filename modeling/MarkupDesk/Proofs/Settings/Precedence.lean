import MarkupDesk.Proofs.Settings.Layer
import MarkupDesk.Proofs.Text.Digits

/-!
# Which source of settings wins

Settings come from one file, the environment and the command line.  This module says of every
field which of them it is from.

* `Chosen` says which file is used, and `chosen_iff` that it is the one the search finds.  Of
  all other files it matters only whether they are there (`load_congr`).
* `resolved` says for every field in which order the sources are asked.  A file is taken as a
  `Layer`, so that a field it leaves open is told apart from one it sets to the usual value.
* `flaw?_eq_none_iff` says which settings can be used.

Together they say what comes of loading: an error of the file before one of the environment, an
error of the environment before one of the settings (`load_precedence`).
-/
namespace MarkupDesk

open CommandLine

namespace Settings

/-! ## The file -/

/-- The settings file that is chosen: the one named, or else the first of the four names in the
working directory that is there, or else the user's, or else none. -/
inductive Chosen (disk : Disk) (userDirectory : Option String) :
    Option String → Option String → Prop
  | named (path : String) : Chosen disk userDirectory (some path) (some path)
  | here {before after : List String} {name : String} :
      fileNames = before ++ name :: after →
      (∀ other ∈ before, disk.has (Path.join "." other) = false) →
      disk.has (Path.join "." name) = true →
      Chosen disk userDirectory none (some (Path.join "." name))
  | user {directory : String} :
      (∀ other ∈ fileNames, disk.has (Path.join "." other) = false) →
      userDirectory = some directory → disk.has (Path.join directory userFile) = true →
      Chosen disk userDirectory none (some (Path.join directory userFile))
  | nothing :
      (∀ other ∈ fileNames, disk.has (Path.join "." other) = false) →
      (∀ directory, userDirectory = some directory →
        disk.has (Path.join directory userFile) = false) →
      Chosen disk userDirectory none none

theorem fileIn?_eq_some_iff {disk : Disk} {directory path : String} :
    fileIn? disk directory = some path ↔
      ∃ before name after, fileNames = before ++ name :: after ∧ path = Path.join directory name ∧
        (∀ other ∈ before, disk.has (Path.join directory other) = false) ∧
        disk.has (Path.join directory name) = true := by
  rw [fileIn?, List.find?_map, Option.map_eq_some_iff]
  simp only [List.find?_eq_some_iff_append, Function.comp_apply, Bool.not_eq_true']
  constructor
  · rintro ⟨name, ⟨hhas, before, after, hnames, hbefore⟩, rfl⟩
    exact ⟨before, name, after, hnames, rfl, by simpa using hbefore, hhas⟩
  · rintro ⟨before, name, after, hnames, rfl, hbefore, hhas⟩
    exact ⟨name, ⟨hhas, before, after, hnames, by simpa using hbefore⟩, rfl⟩

theorem fileIn?_eq_none_iff {disk : Disk} {directory : String} :
    fileIn? disk directory = none ↔
      ∀ name ∈ fileNames, disk.has (Path.join directory name) = false := by
  rw [fileIn?, List.find?_eq_none]
  simp

theorem file?_of_chosen {disk : Disk} {userDirectory named source : Option String}
    (h : Chosen disk userDirectory named source) : file? disk userDirectory named = source := by
  unfold file?
  cases h with
  | named path => rfl
  | here hnames hbefore hhas =>
    simp [fileIn?_eq_some_iff.mpr ⟨_, _, _, hnames, rfl, hbefore, hhas⟩]
  | user hnone hdirectory hhas => simp [fileIn?_eq_none_iff.mpr hnone, hdirectory, hhas]
  | nothing hnone hno =>
    cases hdirectory : userDirectory with
    | none => simp [fileIn?_eq_none_iff.mpr hnone]
    | some directory => simp [fileIn?_eq_none_iff.mpr hnone, hno directory hdirectory]

theorem exists_chosen (disk : Disk) (userDirectory named : Option String) :
    ∃ source, Chosen disk userDirectory named source := by
  cases named with
  | some path => exact ⟨_, .named path⟩
  | none =>
    cases hhere : fileIn? disk "." with
    | some path =>
      obtain ⟨before, name, after, hnames, rfl, hbefore, hhas⟩ := fileIn?_eq_some_iff.mp hhere
      exact ⟨_, .here hnames hbefore hhas⟩
    | none =>
      have hnone := fileIn?_eq_none_iff.mp hhere
      by_cases hthere : ∃ directory, userDirectory = some directory ∧
          disk.has (Path.join directory userFile) = true
      · obtain ⟨directory, hdirectory, hhas⟩ := hthere
        exact ⟨_, .user hnone hdirectory hhas⟩
      · refine ⟨_, .nothing hnone fun directory hdirectory => ?_⟩
        exact Bool.eq_false_iff.mpr fun hhas => hthere ⟨directory, hdirectory, hhas⟩

/-- **The file that is used is the one that is chosen.** -/
theorem chosen_iff {disk : Disk} {userDirectory named source : Option String} :
    Chosen disk userDirectory named source ↔ source = file? disk userDirectory named := by
  constructor
  · exact fun h => (file?_of_chosen h).symm
  · rintro rfl
    obtain ⟨source, h⟩ := exists_chosen disk userDirectory named
    exact (file?_of_chosen h).symm ▸ h

/-- The search asks only which files are there. -/
theorem file?_congr {disk disk' : Disk} (h : ∀ path, disk'.has path = disk.has path)
    (userDirectory named : Option String) :
    file? disk' userDirectory named = file? disk userDirectory named := by
  unfold file? fileIn?
  rw [funext h]

/-- What the chosen file sets: nothing if there is none. -/
def fileLayer (sources : Sources) : Option String → Except SettingsError Layer
  | none => .ok {}
  | some path => Layer.ofFile sources path

/-! ## The other sources -/

/-- Settings that can be used. -/
structure Sound (s : Settings) : Prop where
  timeout : 0 < s.assistant.timeout
  model : ¬ Text.isBlankText s.assistant.model = true
  scheme : "http://".toList <+: s.assistant.baseUrl.toList ∨
    "https://".toList <+: s.assistant.baseUrl.toList
  temperature : ∀ t, s.assistant.temperature = some t → t.inZeroTo 2 = true
  verbosity : ¬ (s.display.verbose = true ∧ s.display.quiet = true)

theorem hasWebScheme_iff {url : String} :
    hasWebScheme url = true ↔
      "http://".toList <+: url.toList ∨ "https://".toList <+: url.toList := by
  rw [hasWebScheme, Bool.or_eq_true, List.isPrefixOf_iff_prefix, List.isPrefixOf_iff_prefix]

theorem hotness_eq_none_iff {a : AssistantSettings} :
    a.hotness = none ↔ ∀ t, a.temperature = some t → t.inZeroTo 2 = true := by
  rw [AssistantSettings.hotness, Option.filter_eq_none_iff]
  simp

/-- Settings have no flaw exactly if they can be used. -/
theorem flaw?_eq_none_iff {s : Settings} : s.flaw? = none ↔ s.Sound := by
  constructor
  · intro h
    unfold flaw? at h
    split at h
    · cases h
    · rename_i htimeout
      split at h
      · cases h
      · rename_i hmodel
        split at h
        · cases h
        · rename_i hscheme
          split at h
          · cases h
          · rename_i htemperature
            split at h
            · cases h
            · rename_i hverbosity
              exact ⟨Nat.pos_of_ne_zero htimeout, hmodel,
                hasWebScheme_iff.mp (by simpa using hscheme),
                hotness_eq_none_iff.mp htemperature, by simpa using hverbosity⟩
  · intro h
    have htimeout : ¬ s.assistant.timeout = 0 := Nat.pos_iff_ne_zero.mp h.timeout
    have hscheme : hasWebScheme s.assistant.baseUrl = true := hasWebScheme_iff.mpr h.scheme
    have hverbosity : ¬ (s.display.verbose && s.display.quiet) = true := by
      simpa using h.verbosity
    rw [flaw?, if_neg htimeout, if_neg h.model, hscheme, hotness_eq_none_iff.mpr h.temperature]
    exact if_neg hverbosity

/-- The settings of all sources: each field as the first source in order sets it, and the usual
value if none does.  A flag for more or for less output takes the other one back. -/
def resolved (i : Invocation) (sources : Sources) (file : Layer) : Settings where
  assistant :=
    let env := sources.environment
    { apiKey :=
        i.apiKey.or <| (env "GEMINI_API_KEY").or <| (env "API_KEY").or file.apiKey
      model := (i.model.or <| (env "XML_STUDIO_MODEL").or file.model).getD defaultModel
      baseUrl := ((env "XML_STUDIO_BASE_URL").or file.baseUrl).getD defaultBaseUrl
      timeout :=
        (i.timeout.or <| ((env "XML_STUDIO_TIMEOUT").bind Text.readCount).or file.timeout).getD
          defaultTimeout
      temperature := file.temperature }
  display :=
    { verbose := if i.quiet then false else if i.verbose then true else file.verbose.getD false
      quiet := if i.quiet then true else if i.verbose then false else file.quiet.getD false
      color := if i.noColor then false else file.color.getD sources.terminal }

variable {sources : Sources} {i : Invocation}

/-- The settings file that is used, if there is one. -/
def source? (sources : Sources) (i : Invocation) : Option String :=
  file? sources.disk sources.userDirectory i.config

/-- Settings over the usual ones are as they are. -/
theorem overlay_usual (s : Settings) (terminal : Bool) : overlay s (usual terminal) = s := by
  simp [overlay, usual]

/-- The settings go through the file, the environment and the command line, in this order. -/
theorem load_eq_bind (sources : Sources) (i : Invocation) :
    load sources i =
      (fileLayer sources (source? sources i)).map (Layer.settings sources.terminal) >>= fun s =>
        withEnvironment sources.environment s >>= fun s => checked (s.withInvocation i) := by
  unfold load source?
  cases file? sources.disk sources.userDirectory i.config with
  | none => rfl
  | some path =>
    simp only [fileLayer, ← Layer.settings_ofFile, overlay_usual]
    cases ofFile sources path <;> rfl

theorem load_of_file_error {e : SettingsError}
    (h : fileLayer sources (source? sources i) = .error e) : load sources i = .error e := by
  rw [load_eq_bind, h]
  rfl

theorem load_of_file_ok {file : Layer} (h : fileLayer sources (source? sources i) = .ok file) :
    load sources i =
      withEnvironment sources.environment (file.settings sources.terminal) >>= fun s =>
        checked (s.withInvocation i) := by
  rw [load_eq_bind, h]
  rfl

theorem withEnvironment_error {env : Environment} {value : String}
    (hvalue : env "XML_STUDIO_TIMEOUT" = some value) (hcount : Text.readCount value = none)
    (s : Settings) :
    withEnvironment env s =
      .error (.environment ("Invalid XML_STUDIO_TIMEOUT value: " ++ value)) := by
  unfold withEnvironment
  simp only [hvalue, hcount]
  rfl

/-- What the environment sets over a file, once its time limit is read. -/
theorem withInvocation_eq_resolved {file : Layer} {s : Settings} {timeout : Nat}
    (hs : s = file.settings sources.terminal)
    (htimeout : timeout =
      ((sources.environment "XML_STUDIO_TIMEOUT").bind Text.readCount).getD s.assistant.timeout) :
    withInvocation i
        { s with
          assistant :=
            { s.assistant with
              apiKey :=
                ((sources.environment "GEMINI_API_KEY").or (sources.environment "API_KEY")).or
                  s.assistant.apiKey
              model := (sources.environment "XML_STUDIO_MODEL").getD s.assistant.model
              baseUrl := (sources.environment "XML_STUDIO_BASE_URL").getD s.assistant.baseUrl
              timeout := timeout } } =
      resolved i sources file := by
  subst hs htimeout
  have hdisplay :
      (DisplaySettings.mk
        (if i.quiet then false else i.verbose || file.verbose.getD false)
        (i.quiet || (!i.verbose && file.quiet.getD false))
        (!i.noColor && file.color.getD sources.terminal)) =
      (resolved i sources file).display := by
    cases hquiet : i.quiet <;> cases hverbose : i.verbose <;> cases hcolor : i.noColor <;>
      simp [resolved, hquiet, hverbose, hcolor]
  simp only [withInvocation, Layer.settings, Layer.display, Layer.assistant, hdisplay]
  simp [resolved, Option.getD_or, Option.or_assoc]

/-- The time limit that the environment sets, if it sets one, can be read. -/
def Sources.Counted (sources : Sources) : Prop :=
  ∀ value, sources.environment "XML_STUDIO_TIMEOUT" = some value → ∃ n, Text.WritesCount value n

theorem exists_withEnvironment_eq (hcount : sources.Counted) (i : Invocation) (file : Layer) :
    ∃ s, withEnvironment sources.environment (file.settings sources.terminal) = .ok s ∧
      s.withInvocation i = resolved i sources file := by
  unfold withEnvironment
  cases hvalue : sources.environment "XML_STUDIO_TIMEOUT" with
  | none => exact ⟨_, rfl, withInvocation_eq_resolved rfl (by rw [hvalue]; rfl)⟩
  | some value =>
    obtain ⟨n, hn⟩ := hcount value hvalue
    have hread := Text.readCount_eq_some_iff.mpr hn
    simp only [hread]
    exact ⟨_, rfl, withInvocation_eq_resolved rfl (by rw [hvalue, Option.bind_some, hread]; rfl)⟩

/-! ## All sources together -/

/-- Of the disk only the chosen file is read; of everything else it matters only whether it is
there. -/
theorem load_congr {disk : Disk} (hhas : ∀ path, disk.has path = sources.disk.has path)
    (hfind : ∀ path, source? sources i = some path →
      disk.find path = sources.disk.find path) :
    load { sources with disk := disk } i = load sources i := by
  have hsource : source? { sources with disk := disk } i = source? sources i :=
    file?_congr hhas sources.userDirectory i.config
  have hlayer : fileLayer { sources with disk := disk } (source? sources i) =
      fileLayer sources (source? sources i) := by
    cases hpath : source? sources i with
    | none => rfl
    | some path =>
      have htext : disk.readText path = sources.disk.readText path := by
        rw [Disk.readText, Disk.readText, hfind path hpath]
      simp only [fileLayer, Layer.ofFile, htext]
      rfl
  rw [load_eq_bind, load_eq_bind, hsource, hlayer]

theorem checked_of_flaw {s : Settings} {flaw : Flaw} (h : s.flaw? = some flaw) :
    checked s = .error (.invalid flaw.message) := by
  rw [checked, h]

theorem eq_of_checked {s t : Settings} (h : checked s = .ok t) : t = s := by
  unfold checked at h
  cases hflaw : s.flaw? with
  | some flaw =>
    rw [hflaw] at h
    cases h
  | none =>
    rw [hflaw] at h
    exact (Except.ok.inj h).symm

theorem checked_of_sound {s : Settings} (h : s.Sound) : checked s = .ok s := by
  rw [checked, flaw?_eq_none_iff.mpr h]

theorem load_of_counted {file : Layer}
    (hfile : fileLayer sources (source? sources i) = .ok file) (hcount : sources.Counted) :
    load sources i = checked (resolved i sources file) := by
  obtain ⟨s, hs, hresolved⟩ := exists_withEnvironment_eq hcount i file
  rw [load_of_file_ok hfile, hs, ← hresolved]
  rfl

/-- The time limit of the environment is looked at even if it is overridden. -/
theorem load_of_not_counted {file : Layer} {value : String}
    (hfile : fileLayer sources (source? sources i) = .ok file)
    (hvalue : sources.environment "XML_STUDIO_TIMEOUT" = some value)
    (hno : ∀ n, ¬ Text.WritesCount value n) :
    load sources i =
      .error (.environment ("Invalid XML_STUDIO_TIMEOUT value: " ++ value)) := by
  have hread : Text.readCount value = none :=
    Option.eq_none_iff_forall_ne_some.mpr fun n hn => hno n (Text.readCount_eq_some_iff.mp hn)
  rw [load_of_file_ok hfile, withEnvironment_error hvalue hread]
  rfl

/-- Settings that could be loaded are those of all sources together. -/
theorem exists_eq_resolved_of_load {s : Settings} (h : load sources i = .ok s) :
    ∃ file, fileLayer sources (source? sources i) = .ok file ∧ s = resolved i sources file := by
  cases hfile : fileLayer sources (source? sources i) with
  | error e =>
    rw [load_of_file_error hfile] at h
    cases h
  | ok file =>
    refine ⟨file, rfl, ?_⟩
    by_cases hcount : sources.Counted
    · rw [load_of_counted hfile hcount] at h
      exact eq_of_checked h
    · obtain ⟨value, hcount⟩ := Classical.not_forall.mp hcount
      obtain ⟨hvalue, hno⟩ := Classical.not_imp.mp hcount
      rw [load_of_not_counted hfile hvalue fun n hn => hno ⟨n, hn⟩] at h
      cases h

/-- A file that is there and cannot be read is never passed over. -/
theorem fileLayer_of_unread {path : String} {fault : Fault}
    (h : sources.disk.readText path = .error fault) :
    fileLayer sources (some path) = .error (.io fault) := by
  simp only [fileLayer, Layer.ofFile, h]

/-- **Which source of settings wins.**  One file is chosen; nothing else is read, and its failure
is the failure of loading, also if it is there and cannot be read.  Next the environment's time
limit must be a number, whatever the command line says, and then the settings of all sources
together must be sound.  If they are, each field is as the first source in order sets it. -/
theorem load_precedence (sources : Sources) (i : Invocation) :
    ∃ source, (∀ other, Chosen sources.disk sources.userDirectory i.config other ↔ other = source) ∧
      (∀ disk : Disk, (∀ path, disk.has path = sources.disk.has path) →
        (∀ path, source = some path → disk.find path = sources.disk.find path) →
        load { sources with disk := disk } i = load sources i) ∧
      (∀ path fault, source = some path → sources.disk.readText path = .error fault →
        load sources i = .error (.io fault)) ∧
      (∀ e, fileLayer sources source = .error e → load sources i = .error e) ∧
      ∀ file, fileLayer sources source = .ok file →
        (∀ value, sources.environment "XML_STUDIO_TIMEOUT" = some value →
          (∀ n, ¬ Text.WritesCount value n) →
          load sources i =
            .error (.environment ("Invalid XML_STUDIO_TIMEOUT value: " ++ value))) ∧
        ((∀ value, sources.environment "XML_STUDIO_TIMEOUT" = some value →
            ∃ n, Text.WritesCount value n) →
          (¬ (resolved i sources file).Sound →
            ∃ flaw, (resolved i sources file).flaw? = some flaw ∧
              load sources i = .error (.invalid flaw.message)) ∧
          ((resolved i sources file).Sound →
            load sources i = .ok (resolved i sources file))) := by
  refine ⟨source? sources i, fun other => chosen_iff,
    fun disk hhas hfind => load_congr hhas hfind, fun path fault hpath hfault => ?_,
    fun e he => load_of_file_error he,
    fun file hfile =>
      ⟨fun value hvalue hno => load_of_not_counted hfile hvalue hno,
        fun hcount => ⟨fun hunsound => ?_, fun hsound => ?_⟩⟩⟩
  · exact load_of_file_error (hpath ▸ fileLayer_of_unread hfault)
  · cases hflaw : (resolved i sources file).flaw? with
    | none => exact absurd (flaw?_eq_none_iff.mp hflaw) hunsound
    | some flaw =>
      exact ⟨flaw, rfl, (load_of_counted hfile hcount).trans (checked_of_flaw hflaw)⟩
  · exact (load_of_counted hfile hcount).trans (checked_of_sound hsound)

/-- The third file is the first that is there.  It asks for less output and the command line for
more; the model comes from the environment, the time limit from the command line, and color from
the terminal.  The same file is not read if a file in front of it is there and cannot be. -/
theorem load_precedence_layers :
    let text := "[ai]\napi_key = \"k\"\nmodel = \"m\"\ntimeout_seconds = 30\n" ++
      "[output]\nquiet = true\n"
    let denied : Fault := .other "Permission denied (os error 13)"
    let disk (first : Found) : Disk :=
      ⟨fun path => if path = "./xml-studio.json" then first
        else if path = "./.xml-studio.toml" then .file text.toUTF8 else .nothing .notFound,
        fun _ => none⟩
    let sources (first : Found) : Sources :=
      { disk := disk first
        userDirectory := some "home"
        environment := fun name =>
          if name = "XML_STUDIO_MODEL" then some "n"
          else if name = "XML_STUDIO_TIMEOUT" then some "+20" else none
        terminal := true
        readers := ⟨fun _ => "", fun _ => ""⟩ }
    let i : Invocation := { command := .generate, timeout := some 9, verbose := true }
    load (sources (.nothing .notFound)) i =
        .ok ⟨{ apiKey := some "k", model := "n", timeout := 9 }, { verbose := true, color := true }⟩ ∧
      load (sources (.unreadable denied)) i = .error (.io denied) := by
  intro text denied disk sources i
  constructor
  · obtain ⟨source, hsource, _, _, _, hok⟩ := load_precedence (sources (.nothing .notFound)) i
    have hchosen : Chosen (disk (.nothing .notFound)) (some "home") none
        (some "./.xml-studio.toml") :=
      @Chosen.here _ (some "home") (fileNames.take 2) [".xml-studio.json"] ".xml-studio.toml" rfl
        (by decide +kernel) (by decide +kernel)
    obtain rfl := ((hsource _).mp hchosen).symm
    have hread : (fileLayer (sources (.nothing .notFound)) (some "./.xml-studio.toml")).toOption =
        some { apiKey := some "k", model := some "m", timeout := some 30, quiet := some true } := by
      decide +kernel
    cases hfile : fileLayer (sources (.nothing .notFound)) (some "./.xml-studio.toml") with
    | error e =>
      rw [hfile] at hread
      cases hread
    | ok file =>
      rw [hfile] at hread
      cases hread
      refine ((hok _ hfile).2 ?_).2 (flaw?_eq_none_iff.mp (by decide +kernel))
      rintro value h
      obtain rfl : "+20" = value := Option.some.inj h
      exact ⟨20, ['2', '0'], .inr rfl, by decide, by simp, by decide, by decide⟩
  · obtain ⟨source, hsource, _, hunread, _⟩ := load_precedence (sources (.unreadable denied)) i
    have hchosen : Chosen (disk (.unreadable denied)) (some "home") none
        (some "./xml-studio.json") :=
      @Chosen.here _ (some "home") (fileNames.take 1) (fileNames.drop 2) "xml-studio.json" rfl
        (by decide +kernel) (by decide +kernel)
    obtain rfl := ((hsource _).mp hchosen).symm
    exact hunread _ denied rfl rfl

end Settings
end MarkupDesk
