import Workbench.Proofs.Document
import Workbench.Proofs.Text.Blank
import Workbench.Proofs.Transfer.Run

/-!
# What is exported is what is imported

A workflow travels as a file: one program asks for it and saves its document, another one reads the
document and recreates the workflow.

* `eq_reread_of_parse`: whoever accepts a written document has the fields of the document that was
  written. Only the value of the graph may have changed, by being read a second time.
* `parse_ungraphed`: the document of a workflow without a graph is refused for this reason.
* `transfer_faithful`: the workflow that an import asks for has the description, the icon and the
  mode of the exported one, and its graph is saved character by character.
-/
namespace Workbench

open Dialogue (Peer)
open Workflow (Detail Document)

/-- There is no graph, or a blank text in its place. -/
def Workflow.Detail.Ungraphed (d : Detail) : Prop :=
  ∀ raw, d.schemaJson = some raw → Text.isBlankText raw = true

namespace Workflow.Document

open Text (bytes)

variable {d : Detail} {source exportedBy : Option String} {now : Instant} {document : Document}

/-- What is saved of a workflow. -/
def exported (d : Detail) (source exportedBy : Option String) (now : Instant) : List UInt8 :=
  bytes (codec.prettyText (ofDetail d source exportedBy now))

theorem held_ofDetail (d : Detail) (source exportedBy : Option String) (now : Instant) :
    Json.Held (ofDetail d source exportedBy now).schema :=
  (readable_schemaValue d.schemaJson).2

/-- An accepted document is the one that was written. -/
theorem eq_reread_of_parse {written : Document} (hheld : Json.Held written.schema)
    (hformat : written.format = formatMark)
    (h : parse (bytes (codec.prettyText written)) = .ok document) : document = written.reread := by
  by_cases hdepth : written.schema.depth < Json.maxNesting
  · rw [parse_prettyText_eq hheld hformat hdepth] at h
    split at h
    · exact (Except.ok.inj h).symm
    · cases h
  -- A value that leaves no room for its level is refused, so that nothing is accepted here.
  · obtain ⟨place, hrefused⟩ := parse_prettyText_tooDeep hheld (not_lt.1 hdepth)
    rw [hrefused] at h
    cases h

/-! ## Workflows without a graph -/

theorem filter_ungraphed (h : d.Ungraphed) :
    d.schemaJson.filter (fun raw => ! Text.isBlankText raw) = none :=
  Text.filter_blank_eq_none_iff.mpr h

theorem schemaValue_ungraphed (h : d.Ungraphed) : schemaValue d.schemaJson = .null := by
  rw [schemaValue, filter_ungraphed h]

theorem schemaText_ungraphed (h : d.Ungraphed) :
    (ofDetail d source exportedBy now).reread.schemaText = none := by
  have hvalue : (ofDetail d source exportedBy now).reread.schema = .null := by
    rw [reread, ofDetail, schemaValue_ungraphed h]
    rfl
  have hraw : (ofDetail d source exportedBy now).reread.schemaJson.filter
      (fun raw => ! Text.isBlankText raw) = none := filter_ungraphed h
  rw [schemaText, hraw, hvalue]
  rfl

theorem parse_ungraphed (h : d.Ungraphed) :
    parse (exported d source exportedBy now) = .error .missingSchema := by
  have hdepth : (ofDetail d source exportedBy now).schema.depth < Json.maxNesting := by
    rw [ofDetail, schemaValue_ungraphed h]
    exact Nat.zero_lt_succ 126
  rw [exported, parse_prettyText_eq (held_ofDetail ..) rfl hdepth, schemaText_ungraphed h]
  rfl

/-! ## Workflows whose document is accepted -/

theorem schemaJson_of_parse
    (h : parse (exported d source exportedBy now) = .ok document) :
    ∃ raw, d.schemaJson = some raw ∧ Text.isBlankText raw = false := by
  by_contra hnone
  have hungraphed : d.Ungraphed := by
    intro raw hraw
    by_contra hblank
    exact hnone ⟨raw, hraw, Bool.eq_false_iff.2 hblank⟩
  rw [parse_ungraphed hungraphed] at h
  cases h

/-- The graph of an accepted document is the text that the backend stored. -/
theorem schemaText_of_parse
    (h : parse (exported d source exportedBy now) = .ok document) :
    ∃ raw, d.schemaJson = some raw ∧ document.schemaText = some raw := by
  obtain ⟨raw, hraw, hblank⟩ := schemaJson_of_parse h
  refine ⟨raw, hraw, ?_⟩
  rw [eq_reread_of_parse (held_ofDetail ..) rfl h]
  exact schemaText_of_raw hraw hblank

end Workflow.Document

/-! ## Export and import -/

variable {log : Log} {d : Detail} {graph spaceId : String} {file : PickedFile} {at_ : Civil}

/-- The import of an accepted file, once it has been picked: the workflow that is asked for is, if
there is one, the one that the graph is saved in. -/
inductive Recreation (request : NewWorkflow) (graph : String) : Log → Prop
  | notCreated (e : ApiError) (message : String) :
      Recreation request graph
        [⟨.create request, .error e⟩,
         ⟨.alert .error message, ()⟩]
  | created (workflowId : String) (reply : Except ApiError Unit) (level : AlertLevel)
      (message : String) :
      Recreation request graph
        [⟨.create request, .ok workflowId⟩,
         ⟨.save request.spaceId workflowId graph, reply⟩,
         ⟨.alert level message, ()⟩]

/-- What becomes of a workflow whose document `built` is written to a file, when the file is
imported with the exchanges `log` after it has been picked. -/
structure Faithful (d : Detail) (built : Document) (file : PickedFile) (spaceId : String)
    (at_ : Civil) (log : Log) : Prop where
  fields : ∀ document, Document.parse file.contents = .ok document →
    document = { built with schema := built.schema.reread }
  recreated : ∀ document, Document.parse file.contents = .ok document →
    ∃ raw, d.schemaJson = some raw ∧
      Recreation ⟨spaceId, importedName d.name at_, d.description, d.iconUri, d.mode⟩ raw log
  refused : d.Ungraphed → Document.parse file.contents = .error .missingSchema ∧
    log = [⟨.alert .error s!"Import failed: {TransferError.missingSchema.message}", ()⟩]

theorem Saving.calls_of_detail {workflowId : String} {exportedBy : Option String} {now : Instant}
    {result : Except TransferError (Option String)}
    (h : Saving spaceId workflowId exportedBy now
      (⟨.detail spaceId workflowId, .ok (some d)⟩ :: log) result) :
    log.map Sigma.fst = [.download (Document.fileName d.name d.workflowId)
      (Document.exported d (some spaceId) exportedBy now)] := by
  cases h <;> rfl

section Picked

variable {created : Option String}
  (h : Import spaceId at_ (⟨.pick, .ok (some file)⟩ :: log) created)

include h

theorem Import.log_of_refused {e : TransferError}
    (hparse : Document.parse file.contents = .error e) :
    log = [⟨.alert .error s!"Import failed: {e.message}", ()⟩] := by
  cases h with
  | refused h =>
    obtain rfl := Except.error.inj (h.symm.trans hparse)
    rfl
  | notCreated h | notSaved h | imported h => cases h.symm.trans hparse

theorem Import.recreation {document : Document}
    (hparse : Document.parse file.contents = .ok document)
    (hgraph : document.schemaText = some graph) :
    Recreation (document.request spaceId at_) graph log := by
  cases h with
  | refused h => cases h.symm.trans hparse
  | notCreated h e =>
    obtain rfl := Except.ok.inj (h.symm.trans hparse)
    exact .notCreated e _
  | notSaved h hschema workflowId e =>
    obtain rfl := Except.ok.inj (h.symm.trans hparse)
    obtain rfl := Option.some.inj (hschema.symm.trans hgraph)
    exact .created workflowId (.error e) .error _
  | imported h hschema workflowId =>
    obtain rfl := Except.ok.inj (h.symm.trans hparse)
    obtain rfl := Option.some.inj (hschema.symm.trans hgraph)
    exact .created workflowId (.ok ()) .success _

end Picked

/-- The import of a file that an export has written. -/
theorem Import.faithful {source exportedBy : Option String} {now : Instant}
    {created : Option String} (hfile : file.contents = Document.exported d source exportedBy now)
    (h : Import spaceId at_ (⟨.pick, .ok (some file)⟩ :: log) created) :
    Faithful d (.ofDetail d source exportedBy now) file spaceId at_ log := by
  refine ⟨?_, ?_, ?_⟩
  · intro document hparse
    rw [hfile] at hparse
    exact Document.eq_reread_of_parse (Document.held_ofDetail ..) rfl hparse
  · intro document hparse
    have hwritten := hparse
    rw [hfile] at hwritten
    obtain ⟨raw, hraw, hgraph⟩ := Document.schemaText_of_parse hwritten
    have hrecreation := h.recreation hparse hgraph
    rw [Document.eq_reread_of_parse (Document.held_ofDetail ..) rfl hwritten] at hrecreation
    exact ⟨raw, hraw, hrecreation⟩
  · intro hungraphed
    have hrefused : Document.parse file.contents = .error .missingSchema := by
      rw [hfile]
      exact Document.parse_ungraphed hungraphed
    exact ⟨hrefused, h.log_of_refused hrefused⟩

section Transfer

variable {σ τ : Type} {exporter : Peer Call Call.Reply σ} {s : σ}
  {importer : Peer Call Call.Reply τ} {t : τ} {source workflowId : String}

/-- **Transfer is faithful.** Once the backend has detailed a workflow, its document is saved. From
this file, whoever imports it gets the fields of the document, and recreates the workflow with the
graph as the backend stored it, or is told that there is no graph. -/
theorem transfer_faithful (exportedBy : Option String) (now : Instant)
    (hdetail : (exporter (.detail source workflowId) s).1 = .ok (some d))
    (hfile : file.contents = Document.exported d (some source) exportedBy now)
    (hpick : (importer .pick t).1 = .ok (some file)) (spaceId : String) (at_ : Civil) :
    ((saveDocument source workflowId exportedBy now).transcript exporter s).2.1 =
        [.detail source workflowId,
         .download (Document.fileName d.name d.workflowId) file.contents] ∧
      ∃ log, (importWorkflow spaceId at_).exchanges importer t =
          ⟨.pick, .ok (some file)⟩ :: log ∧
        Faithful d (.ofDetail d (some source) exportedBy now) file spaceId at_ log := by
  obtain ⟨saveLog, hsaveLog⟩ : ∃ log, (saveDocument source workflowId exportedBy now).exchanges
      exporter s = ⟨.detail source workflowId, .ok (some d)⟩ :: log :=
    Dialogue.exists_exchanges_call_bind hdetail _
  obtain ⟨log, hlog⟩ : ∃ log, (importWorkflow spaceId at_).exchanges importer t =
      ⟨.pick, .ok (some file)⟩ :: log :=
    Dialogue.exists_exchanges_call_bind hpick _
  have hsave := yields_saveDocument
    (Dialogue.yields_transcript exporter (saveDocument source workflowId exportedBy now) s)
  have himport := yields_importWorkflow
    (Dialogue.yields_transcript importer (importWorkflow spaceId at_) t)
  rw [hsaveLog] at hsave
  rw [hlog] at himport
  refine ⟨?_, log, hlog, himport.faithful hfile⟩
  rw [Dialogue.transcript_calls, hsaveLog, List.map_cons, hsave.calls_of_detail, hfile]

def sampleDetail : Detail where
  workflowId := "7"
  name := "Größe \"a\\b\""
  description := "erste\nZeile"
  iconUri := some "icons/7"
  iconUrl := none
  createTime := some (-9223372036854775808)
  updateTime := some 1700000000123
  creator := ⟨some "u1", none⟩
  mode := .chatflow
  schemaType := some "dag"
  schemaJson := some " \x7b\"nodes\": [1.50, 1e3, \"ä\"]\x7d"

def sampleExport : PickedFile :=
  ⟨"flow.json", Document.exported sampleDetail (some "space-1") (some "u1") ⟨0, 0⟩⟩

/-- The sample is accepted, and its graph is saved with all its blanks and zeros. -/
theorem transfer_faithful_sample :
    (obliging (some sampleDetail) sampleExport (.detail "space-1" "7") ()).1 =
        .ok (some sampleDetail) ∧
      sampleExport.contents =
        Document.exported sampleDetail (some "space-1") (some "u1") ⟨0, 0⟩ ∧
      (obliging (some sampleDetail) sampleExport .pick ()).1 = .ok (some sampleExport) ∧
      (((saveDocument "space-1" "7" (some "u1") ⟨0, 0⟩).transcript
          (obliging (some sampleDetail) sampleExport) ()).2.1 =
          [.detail "space-1" "7",
           .download (Document.fileName sampleDetail.name sampleDetail.workflowId)
            sampleExport.contents] ∧
        ∃ log, (importWorkflow "space-2" (⟨0, 0⟩ : Instant).civil).exchanges
            (obliging (some sampleDetail) sampleExport) () =
            ⟨.pick, .ok (some sampleExport)⟩ :: log ∧
          Faithful sampleDetail (.ofDetail sampleDetail (some "space-1") (some "u1") ⟨0, 0⟩)
            sampleExport "space-2" (⟨0, 0⟩ : Instant).civil log) ∧
      ((importWorkflow "space-2" (⟨0, 0⟩ : Instant).civil).transcript
          (obliging (some sampleDetail) sampleExport) ()).2.1 =
        [.pick,
         .create ⟨"space-2", "Größe \"a\\b\"_imported_19700101000000", "erste\nZeile",
          some "icons/7", .chatflow⟩,
         .save "space-2" "9001" " \x7b\"nodes\": [1.50, 1e3, \"ä\"]\x7d",
         .alert .success
          "Workflow imported as \"Größe \"a\\b\"_imported_19700101000000\""] := by
  refine ⟨rfl, rfl, rfl, ?_, by decide +kernel⟩
  exact transfer_faithful (some "u1") ⟨0, 0⟩ rfl rfl rfl "space-2" (⟨0, 0⟩ : Instant).civil

end Transfer

end Workbench
