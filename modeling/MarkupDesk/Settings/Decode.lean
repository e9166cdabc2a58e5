import MarkupDesk.Data.Datum
import MarkupDesk.Settings.Basic

/-!
# Settings in data files

A settings file holds a record with the fields `ai` and `output`, both of them
records of settings.  Every field may be missing, and fields with other names are
left out.  A record may also be given as a list of its fields in order; what is
missing at its end has its usual value.  Whether there is color is usually up to
whether there is a terminal.
-/
namespace MarkupDesk

open Datum

/-- Reads how the assistant is reached. -/
def AssistantSettings.ofDatum? (surplus : Surplus) (d : Datum) : Option AssistantSettings := do
  let names := ["api_key", "model", "base_url", "timeout_seconds", "temperature"]
  match ← d.fields surplus names with
  | [apiKey, model, baseUrl, timeout, temperature] =>
    some
      { apiKey := ← orElse none (optional? text?) apiKey
        model := ← orElse defaultModel text? model
        baseUrl := ← orElse defaultBaseUrl text? baseUrl
        timeout := ← orElse defaultTimeout (below? UInt64.size) timeout
        temperature := ← orElse none (optional? single?) temperature }
  | _ => none

/-- Reads how much is shown. -/
def DisplaySettings.ofDatum? (terminal : Bool) (surplus : Surplus) (d : Datum) :
    Option DisplaySettings := do
  match ← d.fields surplus ["verbose", "quiet", "color"] with
  | [verbose, quiet, color] =>
    some
      { verbose := ← orElse false bool? verbose
        quiet := ← orElse false bool? quiet
        color := ← orElse terminal bool? color }
  | _ => none

/-- Reads all settings. -/
def Settings.ofDatum? (terminal : Bool) (surplus : Surplus) (d : Datum) : Option Settings := do
  match ← d.fields surplus ["ai", "output"] with
  | [assistant, display] =>
    some
      { assistant := ← orElse {} (AssistantSettings.ofDatum? surplus) assistant
        display := ← orElse { color := terminal } (DisplaySettings.ofDatum? terminal surplus)
          display }
  | _ => none

end MarkupDesk
