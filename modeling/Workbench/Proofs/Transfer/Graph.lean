import Workbench.Proofs.Document.Format
import Workbench.Proofs.Transfer.Export
import Workbench.Proofs.Transfer.Faithful

/-!
# Graphs that come as values

A document may have its graph as a value alone. The first import writes this value, and what it
saves is the text of the graph from then on: an export of the new workflow carries this text, and
importing that export saves it again, character by character.

* `isBlankText_compact`, `read_compact`: a value is written as a text that counts as a graph, and
  comes back if it has no floats;
* `ordered_schema`, `depth_schema_lt`: what is accepted as a document has a value that was read, and
  leaves room for the level that it stands on;
* `recreates_of_parse`, `carries_of_read`: how a graph gets out of a file, and from a workflow into
  the next file;
* `graph_kept`: hence a graph that came as a value stays the same from the first import on.
-/
namespace Workbench

open Dialogue (Peer)
open Text (bytes)
open Workflow (Detail Document)

/-! ## The text of a value -/

namespace Json

variable {v : Json}

theorem isBlankText_compact (h : Integral v) : Text.isBlankText (compact v) = false := by
  cases h with
  | null => decide
  | bool b => cases b <;> decide
  | @int n _ =>
    -- whatever its sign, a number has a digit
    obtain ⟨c, tail, hdigits⟩ := List.exists_cons_of_ne_nil
      (Nat.toDigits_ne_nil (n := n.natAbs) (b := 10))
    have hc := allDigits_toDigits n.natAbs c (by rw [hdigits]; exact List.mem_cons_self)
    refine Text.isBlankText_eq_false (c := c) ?_ (not_blank_of_isDigit hc)
    simp [compact, write, writeNumber, hdigits]
  | str s =>
    refine Text.isBlankText_eq_false (c := '"') ?_ rfl
    simp [compact, write, writeString]
  | @arr vs _ =>
    refine Text.isBlankText_eq_false (c := '[') ?_ rfl
    cases vs <;> simp [compact, write]
  | @obj ms _ =>
    refine Text.isBlankText_eq_false (c := '\x7b') ?_ rfl
    cases ms <;> simp [compact, write]

/-- A value that was read is read again from its text if it has no floats. -/
theorem read_compact (ho : Ordered v) (hi : Integral v) (hdepth : v.depth ≤ maxNesting) :
    read (bytes (compact v)) = .ok v := by
  have h := read_write blank_compact hi.held 0 hdepth
  rwa [reread_eq_self ho hi] at h

end Json

/-! ## The value of an accepted document -/

namespace Workflow.Document

variable {contents : List UInt8} {document : Document}

theorem exists_members_of_parse (h : parse contents = .ok document) :
    ∃ ms, Json.read contents = .ok (.obj ms) ∧ codec.decode (.obj ms) = .ok document := by
  unfold parse at h
  split at h
  · cases h
  · rename_i v hread
    obtain ⟨hmark, hdecode, -⟩ := ofJson_eq_ok_iff.mp h
    obtain ⟨ms, rfl, -⟩ := hasMark_iff.mpr hmark
    exact ⟨ms, hread, hdecode⟩

theorem schema_eq_null_or_mem {ms : List (String × Json)} (hv : Json.Ordered (.obj ms))
    (h : codec.decode (.obj ms) = .ok document) :
    document.schema = .null ∨ ("schema", document.schema) ∈ ms := by
  obtain ⟨hschema, -⟩ := schema_decodes hv h
  cases hmember : ms.lookup "schema" with
  | none =>
    rw [hmember] at hschema
    exact .inl ((value_eq_null_iff hschema).mpr (.inl rfl))
  | some v =>
    rw [hmember] at hschema
    obtain rfl : v = document.schema := Except.ok.inj hschema
    exact .inr (Json.mem_of_lookup hmember)

theorem ordered_schema (h : parse contents = .ok document) : Json.Ordered document.schema := by
  obtain ⟨ms, hread, hdecode⟩ := exists_members_of_parse h
  have hordered := Json.ordered_of_read hread
  rcases schema_eq_null_or_mem hordered hdecode with hnull | hmem
  · rw [hnull]
    exact .null
  · cases hordered with
    | obj _ hms => exact hms _ hmem

theorem depth_schema_lt (h : parse contents = .ok document) :
    document.schema.depth < Json.maxNesting := by
  obtain ⟨ms, hread, hdecode⟩ := exists_members_of_parse h
  rcases schema_eq_null_or_mem (Json.ordered_of_read hread) hdecode with hnull | hmem
  · rw [hnull]
    exact Nat.zero_lt_succ 126
  · have hdepth := (Json.readable_of_read hread).depth_le
    exact Nat.lt_succ_of_le (Json.depth_obj_le_succ_iff (n := 126).mpr hdepth _ hmem)

/-- Without a text, the graph of an accepted document is the text of the value. -/
theorem schemaText_of_value (h : parse contents = .ok document)
    (hraw : ∀ raw, document.schemaJson = some raw → Text.isBlankText raw = true) :
    document.schemaText = some (Json.compact document.schema) := by
  obtain ⟨graph, hgraph⟩ := exists_schemaText h
  rw [schemaText, Text.filter_blank_eq_none_iff.mpr hraw] at hgraph ⊢
  dsimp only at hgraph ⊢
  split at hgraph
  · cases hgraph
  · rename_i hnull
    rw [if_neg hnull]

end Workflow.Document

/-! ## From file to workflow and back -/

variable {file : PickedFile} {document : Document} {d : Detail} {graph : String}

/-- Whoever imports this file recreates its workflow with this graph. -/
def PickedFile.Recreates (file : PickedFile) (graph : String) : Prop :=
  ∃ document, Document.parse file.contents = .ok document ∧
    ∀ {σ : Type} (importer : Peer Call Call.Reply σ) (s : σ) (spaceId : String) (at_ : Civil),
      (importer .pick s).1 = .ok (some file) →
      ∃ log, (importWorkflow spaceId at_).exchanges importer s = ⟨.pick, .ok (some file)⟩ :: log ∧
        Recreation (document.request spaceId at_) graph log

/-- Whoever exports this workflow saves a file with which it is recreated with this graph. -/
def Workflow.Detail.Carries (d : Detail) (graph : String) : Prop :=
  ∀ {σ : Type} (exporter : Peer Call Call.Reply σ) (s : σ) (r : Resource)
    (exportedBy : Option String) (now : Instant) (workflowId source : String),
    r.id = some workflowId → workflowId ≠ "" → r.spaceId = some source → source ≠ "" →
    (exporter (.detail source workflowId) s).1 = .ok (some d) →
    ∃ name contents, ((exportWorkflow r exportedBy now).transcript exporter s).2.1 =
        [.detail source workflowId, .download name contents] ∧
      ∀ file : PickedFile, file.contents = contents → file.Recreates graph

theorem recreates_of_parse (hparse : Document.parse file.contents = .ok document)
    (hgraph : document.schemaText = some graph) : file.Recreates graph := by
  refine ⟨document, hparse, fun importer s spaceId at_ hpick => ?_⟩
  obtain ⟨log, hlog⟩ : ∃ log, (importWorkflow spaceId at_).exchanges importer s =
      ⟨.pick, .ok (some file)⟩ :: log :=
    Dialogue.exists_exchanges_call_bind hpick _
  have himport := yields_importWorkflow
    (Dialogue.yields_transcript importer (importWorkflow spaceId at_) s)
  rw [hlog] at himport
  exact ⟨log, hlog, himport.recreation hparse hgraph⟩

/-- An export carries a graph that leaves room for the level on which its value will stand. -/
theorem carries_of_read {v : Json} (hraw : d.schemaJson = some graph)
    (hblank : Text.isBlankText graph = false) (hread : Json.read (bytes graph) = .ok v)
    (hdepth : v.depth < Json.maxNesting) : d.Carries graph := by
  intro σ exporter s r exportedBy now workflowId source hid hidne hspace hspacene hdetail
  have hexport := yields_exportWorkflow_steps
    (Dialogue.yields_transcript exporter (exportWorkflow r exportedBy now) s)
  obtain ⟨reply, rest, hlog, hsaved⟩ := hexport.addressed hid hidne hspace hspacene
  obtain rfl : reply = .ok (some d) := (Dialogue.reply_of_exchanges hlog).symm.trans hdetail
  obtain ⟨answer, rfl⟩ := hsaved
  refine ⟨_, _, by rw [Dialogue.transcript_calls, hlog]; rfl, fun file hfile => ?_⟩
  have hother : ¬(Document.schemaValue d.schemaJson).depth = Json.maxNesting := by
    rw [hraw, Document.schemaValue_of_read hread hblank]
    exact hdepth.ne
  have hparse := Document.parse_exported d (some source) exportedBy now hraw hblank
  rw [if_neg hother, ← hfile] at hparse
  exact recreates_of_parse hparse (Document.schemaText_of_raw hraw hblank)

/-- **A graph that came as a value is kept.** If the value has no floats, its text reads back as the
value, and it is the graph that is saved by the import, and by every import of every later
export. -/
theorem graph_kept (hparse : Document.parse file.contents = .ok document)
    (hraw : ∀ raw, document.schemaJson = some raw → Text.isBlankText raw = true)
    (hintegral : document.schema.Integral) :
    ∃ graph, Json.read (bytes graph) = .ok document.schema ∧ file.Recreates graph ∧
      ∀ d : Detail, d.schemaJson = some graph → d.Carries graph := by
  have hdepth := Document.depth_schema_lt hparse
  have hread := Json.read_compact (Document.ordered_schema hparse) hintegral hdepth.le
  refine ⟨Json.compact document.schema, hread, ?_, fun d hd => ?_⟩
  · exact recreates_of_parse hparse (Document.schemaText_of_value hparse hraw)
  · exact carries_of_read hd (Json.isBlankText_compact hintegral) hread hdepth

/-- A document with its graph as a value, and a blank in the place of the text. -/
def valueOnly : Document where
  format := Document.formatMark
  version := Document.currentVersion
  workflowId := "7"
  name := "Flow"
  description := ""
  iconUri := none
  iconUrl := none
  createTime := none
  updateTime := none
  creatorId := none
  creatorName := none
  mode := .workflow
  schemaType := none
  schema := .obj [("edges", .arr []), ("nodes", .arr [.num (.int (-7)), .str "a \"b\""])]
  schemaJson := some " "
  origin := none

def valueOnlyFile : PickedFile := ⟨"flow.json", bytes (Document.codec.prettyText valueOnly)⟩

theorem integral_valueOnly : valueOnly.schema.Integral := by
  refine .obj (List.forall_mem_cons.mpr ⟨.arr nofun, List.forall_mem_singleton.mpr (.arr ?_)⟩)
  exact List.forall_mem_cons.mpr ⟨.int (by decide), List.forall_mem_singleton.mpr (.str _)⟩

theorem graph_kept_valueOnly :
    Document.parse valueOnlyFile.contents = .ok valueOnly ∧
      (∀ raw, valueOnly.schemaJson = some raw → Text.isBlankText raw = true) ∧
      valueOnly.schema.Integral ∧
      ∃ graph, Json.read (bytes graph) = .ok valueOnly.schema ∧ valueOnlyFile.Recreates graph ∧
        ∀ d : Detail, d.schemaJson = some graph → d.Carries graph := by
  have hparse : Document.parse valueOnlyFile.contents = .ok valueOnly :=
    Document.parse_prettyText integral_valueOnly.held rfl rfl (by decide)
  have hraw : ∀ raw, valueOnly.schemaJson = some raw → Text.isBlankText raw = true := by
    rintro raw ⟨⟩
    rfl
  exact ⟨hparse, hraw, integral_valueOnly, graph_kept hparse hraw integral_valueOnly⟩

end Workbench
