import MarkupDesk.Proofs.Workspace.History
import MarkupDesk.Proofs.Workspace.Turn

/-!
# What the output is exported as

The output of the desk and the view under which it is exported are two fields, and
not every operation that writes the one sets the other: a layout, a minified document
and a conversion set the view that fits them, but a repaired document and a loaded
file are laid out under the view that is there (`Writer.setsView`).

`writes` is the history of the output: everything that a session has written to it,
with its writer; `Writing` lists the ways to write.  The output is the last text of the
history (`output_after`), the view belongs to the last writer that set it
(`view_after`), and a download is labelled for what it is unless these two are at odds:
it is XML from a repair or an upload, and a conversion was the last to set the view
(`fits_download_iff`).
-/
namespace MarkupDesk

open Assistant (Job)

/-- Who writes to the output. -/
inductive Writer where
  | formatter
  | minifier
  | assistant (job : Job)
  | upload
  deriving DecidableEq, Repr

/-- A text that is written to the output. -/
structure Write where
  writer : Writer
  text : String
  deriving DecidableEq, Repr

/-- The view that fits what a writer writes. -/
def Writer.view : Writer → View
  | .assistant .convert => .json
  | _ => .xml

/-- Whether a writer sets the view. -/
def Writer.setsView : Writer → Bool
  | .formatter | .minifier | .assistant .convert => true
  | .assistant _ | .upload => false

theorem Writer.view_eq_xml_iff (writer : Writer) :
    writer.view = .xml ↔ writer ≠ .assistant .convert := by
  rcases writer with _ | _ | (_ | _ | _) | _ <;> decide

theorem Writer.eq_of_not_setsView {writer : Writer} (h : ¬ writer.setsView = true)
    (hgenerate : writer ≠ .assistant .generate) :
    writer = .assistant .repair ∨ writer = .upload := by
  rcases writer with _ | _ | (_ | _ | _) | _ <;> simp [Writer.setsView] at h hgenerate ⊢

/-- A download has the name and the media type of what this writer writes: of JSON for
a conversion, and of XML for every other text. -/
def Download.Fits (d : Download) (writer : Writer) : Prop :=
  (d.fileName = "formatted.json" ∧ d.mediaType = "application/json" ↔
    writer = .assistant .convert) ∧
  (d.fileName = "formatted.xml" ∧ d.mediaType = "application/xml" ↔
    writer = .formatter ∨ writer = .minifier ∨ writer = .assistant .repair ∨ writer = .upload)

namespace Workspace

/-- Whether the document is there and passes the check. -/
def passes (w : Workspace) (a : Advisers) : Bool :=
  !w.isBlank && (a.checker.diagnose w.input).isNone

/-- What becomes of the result of a job in the output. -/
def rendition : Job → String → String
  | .repair, result => Markup.format result
  | .convert, result => result
  | .generate, _ => ""

/-- What an operation writes to the output, if it writes. -/
def written? (w : Workspace) (s : Surroundings) : Operation → Option Write
  | .format => if w.passes s.toAdvisers then some ⟨.formatter, Markup.format w.input⟩ else none
  | .minify => if w.passes s.toAdvisers then some ⟨.minifier, Markup.minify w.input⟩ else none
  | .assist job =>
    if w.Declines job then none
    else
      match s.assistant job (w.document job) with
      | some (.ok result) => some ⟨.assistant job, rendition job result⟩
      | _ => none
  | .load path =>
    match loaded? s.disk path with
    | some text =>
      if (s.checker.diagnose text).isNone then some ⟨.upload, Markup.format text⟩ else none
    | none => none
  | _ => none

/-- What a session writes to the output, in order. -/
def writes (w : Workspace) (operations : List (Surroundings × Operation)) : List Write :=
  w.history written? operations

/-- The view after a write: the one that fits it if the writer sets the view, and
otherwise the one that was there. -/
def viewAfter (v : View) (e : Write) : View := if e.writer.setsView then e.writer.view else v

/-- **An operation shows in the output and the view as what it writes**, and not at all
if it writes nothing. -/
theorem output_view_perform (w : Workspace) (s : Surroundings) (operation : Operation) :
    (w.perform s operation).workspace.output =
        ((w.written? s operation).map Write.text).getD w.output ∧
      (w.perform s operation).workspace.view =
        ((w.written? s operation).map (viewAfter w.view)).getD w.view := by
  cases operation with
  | setInput text => exact ⟨rfl, rfl⟩
  | validate =>
    rw [perform, validate, take_checked]
    cases w.isBlank <;> cases s.checker.diagnose w.input <;> exact ⟨rfl, rfl⟩
  | format =>
    rw [perform, format, take_checked, written?, passes]
    cases w.isBlank <;> cases s.checker.diagnose w.input <;> exact ⟨rfl, rfl⟩
  | minify =>
    rw [perform, minify, take_checked, written?, passes]
    cases w.isBlank <;> cases s.checker.diagnose w.input <;> exact ⟨rfl, rfl⟩
  | assist job =>
    rw [perform, workspace_take_assist, written?]
    by_cases hdeclines : w.Declines job
    · rw [if_pos hdeclines, if_pos hdeclines]
      exact ⟨rfl, rfl⟩
    · rw [if_neg hdeclines, if_neg hdeclines]
      rcases s.assistant job (w.document job) with _ | _ | result
      · exact ⟨rfl, rfl⟩
      · exact ⟨rfl, rfl⟩
      · cases job <;> exact ⟨rfl, rfl⟩
  | load path =>
    rw [workspace_perform_load, written?]
    cases loaded? s.disk path with
    | none => exact ⟨rfl, rfl⟩
    | some text => cases h : s.checker.diagnose text <;> simp [h, viewAfter, Writer.setsView]
  | save => simp [written?]
  | copyInput => simp [perform, written?]
  | copyOutput => simp [perform, written?]

/-- The ways in which an operation writes to the output. -/
inductive Writing (w : Workspace) (s : Surroundings) : Operation → Write → Prop where
  | formatted :
      w.passes s.toAdvisers = true → Writing w s .format ⟨.formatter, Markup.format w.input⟩
  | minified :
      w.passes s.toAdvisers = true → Writing w s .minify ⟨.minifier, Markup.minify w.input⟩
  | assisted {job : Job} {result : String} :
      ¬ w.Declines job → s.assistant job (w.document job) = some (.ok result) →
        Writing w s (.assist job) ⟨.assistant job, rendition job result⟩
  | uploaded {path text : String} :
      loaded? s.disk path = some text → s.checker.diagnose text = none →
        Writing w s (.load path) ⟨.upload, Markup.format text⟩

theorem writing_of_written? {w : Workspace} {s : Surroundings} {operation : Operation}
    {e : Write} (h : w.written? s operation = some e) : w.Writing s operation e := by
  cases operation with
  | format =>
    rw [written?] at h
    split at h <;> cases h
    exact .formatted ‹_›
  | minify =>
    rw [written?] at h
    split at h <;> cases h
    exact .minified ‹_›
  | assist job =>
    rw [written?] at h
    split at h
    · cases h
    · split at h <;> cases h
      exact .assisted ‹_› ‹_›
  | load path =>
    rw [written?] at h
    split at h
    · split at h <;> cases h
      exact .uploaded ‹_› (Option.isNone_iff_eq_none.mp ‹_›)
    · cases h
  | _ => cases h

/-! ## The history of the output -/

/-- **The output is the last text of its history.** -/
theorem output_after (w : Workspace) (operations : List (Surroundings × Operation)) :
    (w.after operations).output =
      ((w.writes operations).getLast?.map Write.text).getD w.output := by
  have hset (w : Workspace) (s : Surroundings) (operation : Operation) :
      (w.perform s operation).workspace.output =
        ((w.written? s operation).bind fun e => some e.text).getD w.output := by
    rw [(output_view_perform w s operation).1]
    cases w.written? s operation <;> rfl
  rw [component_after hset, history_bind, List.filterMap_eq_map', List.getLast?_map]
  rfl

/-- **The view is that of the last writer who set it.** -/
theorem view_after (w : Workspace) (operations : List (Surroundings × Operation)) :
    (w.after operations).view =
      (((w.writes operations).filter (·.writer.setsView)).getLast?.map (·.writer.view)).getD
        w.view := by
  have hset (w : Workspace) (s : Surroundings) (operation : Operation) :
      (w.perform s operation).workspace.view =
        ((w.written? s operation).bind fun e =>
          (Option.guard (·.writer.setsView) e).map (·.writer.view)).getD w.view := by
    rw [(output_view_perform w s operation).2]
    cases w.written? s operation with
    | none => rfl
    | some e => cases h : e.writer.setsView <;> simp [h, viewAfter, Option.guard]
  rw [component_after hset, history_bind, ← List.map_filterMap, List.filterMap_eq_filter,
    List.getLast?_map]
  rfl

/-- A sample that was made up is new input, and nothing to export. -/
theorem text_eq_empty_of_last {w : Workspace} {operations : List (Surroundings × Operation)}
    {e : Write} (h : (w.writes operations).getLast? = some e)
    (hwriter : e.writer = .assistant .generate) : e.text = "" := by
  obtain ⟨before, s, operation, later, _, hwritten, _⟩ := exists_of_getLast?_history h
  cases writing_of_written? hwritten with
  | assisted =>
    cases hwriter
    rfl
  | formatted | minified | uploaded => cases hwriter

/-- The label of a download fits a writer when the view does. -/
theorem fits_iff_view_eq (v : View) (content : String) {writer : Writer}
    (h : writer ≠ .assistant .generate) :
    (Download.mk v.fileName v.mediaType content).Fits writer ↔ v = writer.view := by
  have hxml : View.xml.fileName = "formatted.xml" := by decide
  have hjson : View.json.fileName = "formatted.json" := by decide
  cases v with
  | xml =>
    rcases writer with _ | _ | (_ | _ | _) | _ <;>
      simp [Download.Fits, hxml, View.mediaType, Writer.view] at h ⊢
  | json =>
    rcases writer with _ | _ | (_ | _ | _) | _ <;>
      simp [Download.Fits, hjson, View.mediaType, Writer.view] at h ⊢

/-- The last entry of a list, if it passes a test, is the last that does. -/
theorem getLast?_filter_of_getLast? {α : Type} {p : α → Bool} {l : List α} {a : α}
    (h : l.getLast? = some a) (ha : p a = true) : (l.filter p).getLast? = some a := by
  obtain ⟨init, rfl⟩ := List.getLast?_eq_some_iff.mp h
  rw [List.filter_append, List.filter_cons_of_pos ha, List.filter_nil, List.getLast?_concat]

/-- The view of the last writer who set it fits the last writer of all, unless this one
is a repair or an upload and the other one a conversion. -/
theorem view_eq_view_last_iff {history : List Write} {e : Write}
    (hlast : history.getLast? = some e) (hgenerate : e.writer ≠ .assistant .generate) :
    ((history.filter (·.writer.setsView)).getLast?.map (·.writer.view)).getD .xml =
        e.writer.view ↔
      ¬ ((e.writer = .assistant .repair ∨ e.writer = .upload) ∧
        ∃ c ∈ (history.filter (·.writer.setsView)).getLast?, c.writer = .assistant .convert) := by
  by_cases hsets : e.writer.setsView = true
  · rw [getLast?_filter_of_getLast? hlast hsets]
    refine iff_of_true rfl ?_
    rintro ⟨hw | hw, _⟩ <;> rw [hw] at hsets <;> cases hsets
  · have hw := Writer.eq_of_not_setsView hsets hgenerate
    have hxml : e.writer.view = .xml := by rcases hw with hw | hw <;> rw [hw] <;> rfl
    rw [hxml]
    cases (history.filter (·.writer.setsView)).getLast? with
    | none => simp
    | some c => simpa [hw] using c.writer.view_eq_xml_iff

/-- **A download is labelled for what it is, except for one case.**  In every session on
a new workspace, the file that the output is offered as holds the last text of the
history, and its name and media type fit the writer of that text, unless it comes from
a repair or an upload and the last writer to set the view was a conversion. -/
theorem fits_download_iff {operations : List (Surroundings × Operation)} {d : Download}
    (h : (({} : Workspace).after operations).download? = some d) :
    ∃ e ∈ (({} : Workspace).writes operations).getLast?, d.content = e.text ∧
      (d.Fits e.writer ↔
        ¬ ((e.writer = .assistant .repair ∨ e.writer = .upload) ∧
          ∃ c ∈ ((({} : Workspace).writes operations).filter (·.writer.setsView)).getLast?,
            c.writer = .assistant .convert)) := by
  have houtput := output_after {} operations
  have hview := view_after {} operations
  rw [download?] at h
  split at h
  · cases h
  · rename_i hne
    obtain rfl := Option.some.inj h
    cases hlast : (({} : Workspace).writes operations).getLast? with
    | none =>
      rw [hlast] at houtput
      exact absurd houtput hne
    | some e =>
      rw [hlast] at houtput
      -- There is something to download, so the last write is not the one beside a new sample.
      have hgenerate : e.writer ≠ .assistant .generate := fun hw => by
        have := text_eq_empty_of_last hlast hw
        exact hne (houtput.trans this)
      refine ⟨e, rfl, houtput, ?_⟩
      rw [fits_iff_view_eq _ _ hgenerate, hview]
      exact view_eq_view_last_iff hlast hgenerate

/-- Surroundings in which every document passes the check, and the assistant always
answers with this text. -/
def obliging (reply : String) : Surroundings where
  checker := fun _ => none
  assistant := fun _ _ => some (.ok reply)
  disk := ⟨fun _ => .nothing .notFound, fun _ => none⟩
  target := fun _ => .ok ()
  clipboard := fun _ => .ok ()

/-- A document that is laid out after a conversion sets the view back. -/
theorem fits_download_formatted :
    let operations := [(obliging "", .setInput "<a/>"), (obliging "{}", .assist .convert),
      (obliging "", .format), (obliging "<b/>", .assist .repair)]
    let d : Download := ⟨"formatted.xml", "application/xml", "<b/>"⟩
    (({} : Workspace).after operations).download? = some d ∧ d.Fits (.assistant .repair) := by
  intro operations d
  have h : (({} : Workspace).after operations).download? = some d := by decide +kernel
  have hwrites : ({} : Workspace).writes operations =
      [⟨.assistant .convert, "{}"⟩, ⟨.formatter, "<a/>"⟩, ⟨.assistant .repair, "<b/>"⟩] := by
    decide +kernel
  obtain ⟨e, he, _, hfits⟩ := fits_download_iff h
  rw [hwrites] at he hfits
  cases he
  exact ⟨h, hfits.mpr (by decide)⟩

/-- **Not every download is labelled for what it is.**  A document that is repaired after
a conversion is exported as JSON. -/
theorem not_forall_fits_download :
    ¬ ∀ (operations : List (Surroundings × Operation)) (d : Download),
      (({} : Workspace).after operations).download? = some d →
        ∃ e ∈ (({} : Workspace).writes operations).getLast?, d.Fits e.writer := by
  intro h
  obtain ⟨e, he, hfits⟩ := h
    [(obliging "", .setInput "<a/>"), (obliging "{}", .assist .convert),
      (obliging "<b/>", .assist .repair)]
    ⟨"formatted.json", "application/json", "<b/>"⟩ (by decide +kernel)
  have hwrites : ({} : Workspace).writes [(obliging "", .setInput "<a/>"),
      (obliging "{}", .assist .convert), (obliging "<b/>", .assist .repair)] =
      [⟨.assistant .convert, "{}"⟩, ⟨.assistant .repair, "<b/>"⟩] := by
    decide +kernel
  rw [hwrites] at he
  cases he
  have hname := (hfits.2.mpr (.inr (.inr (.inl rfl)))).1
  exact absurd hname (by decide)

end Workspace
end MarkupDesk
