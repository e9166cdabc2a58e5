import MarkupDesk.Settings.Layers

/-!
# Layers of settings

A `Layer` is what one source of settings sets, field by field, and a field that it leaves open
is none.  Only where no layer sets a field has it the usual value (`Layer.settings`), which for
colors is whether there is a terminal.

Settings files are read with the usual values filled in at once.  A file can also be read as a
layer, without them (`Layer.ofFile`), and then the usual values can be filled in later
(`Layer.settings_ofFile`): a value that a file leaves open and one that it sets to the usual value
are told apart, and the settings are the same.
-/
namespace MarkupDesk.Settings

open Datum Number

/-- What one source of settings sets. -/
structure Layer where
  apiKey : Option String := none
  model : Option String := none
  baseUrl : Option String := none
  timeout : Option Nat := none
  temperature : Option Binary := none
  verbose : Option Bool := none
  quiet : Option Bool := none
  color : Option Bool := none
  deriving DecidableEq, Repr

namespace Layer

/-- How the assistant is reached, with the usual values for what the layer leaves open. -/
def assistant (l : Layer) : AssistantSettings where
  apiKey := l.apiKey
  model := l.model.getD defaultModel
  baseUrl := l.baseUrl.getD defaultBaseUrl
  timeout := l.timeout.getD defaultTimeout
  temperature := l.temperature

/-- How much is shown, with the usual values for what the layer leaves open. -/
def display (terminal : Bool) (l : Layer) : DisplaySettings where
  verbose := l.verbose.getD false
  quiet := l.quiet.getD false
  color := l.color.getD terminal

/-- The settings of a layer, with the usual values for what it leaves open. -/
def settings (terminal : Bool) (l : Layer) : Settings := ⟨l.assistant, l.display terminal⟩

/-! ## Files as layers -/

/-- Reads a field that may be left open. -/
def open? {α : Type} (read : Datum → Option α) : Option Datum → Option (Option α) :=
  orElse none fun d => (read d).map some

/-- Reads what a record sets of how the assistant is reached. -/
def ofAssistant? (surplus : Surplus) (d : Datum) : Option Layer := do
  let names := ["api_key", "model", "base_url", "timeout_seconds", "temperature"]
  match ← d.fields surplus names with
  | [apiKey, model, baseUrl, timeout, temperature] =>
    some
      { apiKey := ← orElse none (optional? text?) apiKey
        model := ← open? text? model
        baseUrl := ← open? text? baseUrl
        timeout := ← open? (below? UInt64.size) timeout
        temperature := ← orElse none (optional? single?) temperature }
  | _ => none

/-- Reads what a record sets of how much is shown. -/
def ofDisplay? (surplus : Surplus) (d : Datum) : Option Layer := do
  match ← d.fields surplus ["verbose", "quiet", "color"] with
  | [verbose, quiet, color] =>
    some
      { verbose := ← open? bool? verbose
        quiet := ← open? bool? quiet
        color := ← open? bool? color }
  | _ => none

/-- Reads what a file sets, from its two records. -/
def ofDatum? (surplus : Surplus) (d : Datum) : Option Layer := do
  match ← d.fields surplus ["ai", "output"] with
  | [assistant, display] =>
    let a ← orElse {} (ofAssistant? surplus) assistant
    let t ← orElse {} (ofDisplay? surplus) display
    some { a with verbose := t.verbose, quiet := t.quiet, color := t.color }
  | _ => none

/-- A usual value can be filled in after reading. -/
theorem orElse_eq_map_open? {α : Type} (usual : α) (read : Datum → Option α)
    (found : Option Datum) :
    orElse usual read found = (open? read found).map fun value => value.getD usual := by
  cases found with
  | none => rfl
  | some d =>
    show read d = ((read d).map some).map fun value => value.getD usual
    cases read d <;> rfl

theorem assistant_ofDatum? (surplus : Surplus) (d : Datum) :
    AssistantSettings.ofDatum? surplus d = (ofAssistant? surplus d).map assistant := by
  unfold AssistantSettings.ofDatum? ofAssistant?
  simp only [orElse_eq_map_open? defaultModel, orElse_eq_map_open? defaultBaseUrl,
    orElse_eq_map_open? defaultTimeout, Option.bind_eq_bind, Option.map_bind, Option.bind_map]
  congr 1
  funext found
  simp only [Function.comp_apply]
  -- Only a list of as many fields as there are names is looked into.
  obtain _ | ⟨_, _ | ⟨_, _ | ⟨_, _ | ⟨_, _ | ⟨_, _ | _⟩⟩⟩⟩⟩ := found
  case cons.cons.cons.cons.cons.nil =>
    simp only [Option.map_bind, Function.comp_def, Option.map_some]
    rfl
  all_goals rfl

theorem display_ofDatum? (terminal : Bool) (surplus : Surplus) (d : Datum) :
    DisplaySettings.ofDatum? terminal surplus d =
      (ofDisplay? surplus d).map (display terminal) := by
  unfold DisplaySettings.ofDatum? ofDisplay?
  simp only [orElse_eq_map_open? false, orElse_eq_map_open? terminal, Option.bind_eq_bind,
    Option.map_bind, Option.bind_map]
  congr 1
  funext found
  simp only [Function.comp_apply]
  obtain _ | ⟨_, _ | ⟨_, _ | ⟨_, _ | _⟩⟩⟩ := found
  case cons.cons.cons.nil =>
    simp only [Option.map_bind, Function.comp_def, Option.map_some]
    rfl
  all_goals rfl

theorem orElse_map {α β : Type} (f : α → β) (usual : α) (read : Datum → Option α)
    (read' : Datum → Option β) (h : ∀ d, read' d = (read d).map f) (found : Option Datum) :
    orElse (f usual) read' found = (orElse usual read found).map f := by
  cases found with
  | none => rfl
  | some d => exact h d

/-- **The usual values can be filled in after a file has been read.** -/
theorem settings_ofDatum? (terminal : Bool) (surplus : Surplus) (d : Datum) :
    Settings.ofDatum? terminal surplus d = (ofDatum? surplus d).map (settings terminal) := by
  have hassistant (found : Option Datum) : orElse {} (AssistantSettings.ofDatum? surplus) found =
      (orElse {} (ofAssistant? surplus) found).map assistant :=
    orElse_map assistant {} _ _ (assistant_ofDatum? surplus) found
  have hdisplay (found : Option Datum) :
      orElse { color := terminal } (DisplaySettings.ofDatum? terminal surplus) found =
        (orElse {} (ofDisplay? surplus) found).map (display terminal) :=
    orElse_map (display terminal) {} _ _ (display_ofDatum? terminal surplus) found
  unfold Settings.ofDatum? ofDatum?
  simp only [hassistant, hdisplay, Option.bind_eq_bind, Option.map_bind, Option.bind_map]
  congr 1
  funext found
  simp only [Function.comp_apply]
  obtain _ | ⟨_, _ | ⟨_, _ | _⟩⟩ := found
  case cons.cons.nil =>
    simp only [Option.map_bind, Function.comp_def, Option.map_some]
    rfl
  all_goals rfl

variable (sources : Sources)

/-- Reads what a TOML document sets. -/
def ofToml (content : String) : Except SettingsError Layer :=
  match (Toml.read content).bind (ofDatum? .ignored) with
  | some l => .ok l
  | none => .error (.toml (sources.readers.toml content))

/-- Reads what a JSON text sets. -/
def ofJson (content : String) : Except SettingsError Layer :=
  match (Json.read content).bind (ofDatum? .refused) with
  | some l => .ok l
  | none => .error (.json (sources.readers.json content))

/-- Reads what a text sets, in the format that the extension of its file says; without an
extension both formats are tried. -/
def ofText (extension : Option String) (content : String) : Except SettingsError Layer :=
  match extension with
  | some "toml" => ofToml sources content
  | some "json" => ofJson sources content
  | some other => .error (.unknownFormat other)
  | none =>
    match ofToml sources content with
    | .ok l => .ok l
    | .error _ => ofJson sources content

/-- Reads what a file sets. -/
def ofFile (path : String) : Except SettingsError Layer :=
  match sources.disk.readText path with
  | .ok content => ofText sources (Path.extension? path) content
  | .error fault => .error (.io fault)

theorem settings_ofToml (content : String) :
    Settings.ofToml sources content =
      (ofToml sources content).map (settings sources.terminal) := by
  have hread : (Toml.read content).bind (Settings.ofDatum? sources.terminal .ignored) =
      ((Toml.read content).bind (ofDatum? .ignored)).map (settings sources.terminal) := by
    rw [Option.map_bind]
    congr 1
    funext d
    exact settings_ofDatum? sources.terminal .ignored d
  rw [Settings.ofToml, ofToml, hread]
  cases (Toml.read content).bind (ofDatum? .ignored) <;> rfl

theorem settings_ofJson (content : String) :
    Settings.ofJson sources content =
      (ofJson sources content).map (settings sources.terminal) := by
  have hread : (Json.read content).bind (Settings.ofDatum? sources.terminal .refused) =
      ((Json.read content).bind (ofDatum? .refused)).map (settings sources.terminal) := by
    rw [Option.map_bind]
    congr 1
    funext d
    exact settings_ofDatum? sources.terminal .refused d
  rw [Settings.ofJson, ofJson, hread]
  cases (Json.read content).bind (ofDatum? .refused) <;> rfl

theorem settings_ofText (extension : Option String) (content : String) :
    Settings.ofText sources extension content =
      (ofText sources extension content).map (settings sources.terminal) := by
  cases extension with
  | none =>
    rw [Settings.ofText, ofText, settings_ofToml]
    cases ofToml sources content with
    | ok l => rfl
    | error e => exact settings_ofJson sources content
  | some other =>
    by_cases htoml : other = "toml"
    · subst htoml
      exact settings_ofToml sources content
    · by_cases hjson : other = "json"
      · subst hjson
        exact settings_ofJson sources content
      · have hrefused : Settings.ofText sources (some other) content =
            .error (.unknownFormat other) :=
          Settings.ofText.eq_3 sources content other htoml hjson
        have hrefused' : ofText sources (some other) content = .error (.unknownFormat other) :=
          ofText.eq_3 sources content other htoml hjson
        rw [hrefused, hrefused']
        rfl

/-- The settings of a file are those of its layer, and they fail alike. -/
theorem settings_ofFile (path : String) :
    Settings.ofFile sources path = (ofFile sources path).map (settings sources.terminal) := by
  unfold Settings.ofFile ofFile
  cases sources.disk.readText path with
  | error fault => rfl
  | ok content => exact settings_ofText sources _ content

end Layer
end MarkupDesk.Settings
