import Workbench.Proofs.Json.Shape
import Workbench.Proofs.Text.Blank
import Workbench.Proofs.Transfer.Run

/-!
# What is accepted as a document

A file is judged in four steps, and the first that fails is the one that is reported: it has to be
JSON, to bear the mark of the format, to have the parts of a document in their shapes, and to have a
graph. The graph is the last thing that could be missing, so that an import does not fail for want
of one later on.

* `takes_eq`: the values that are documents, part by part;
* `schema_decodes`: the two forms of the graph, as the value says;
* `ofJson_judged`: what becomes of a value;
* `creates_of_parse`: where the import of an accepted document goes on;
* `parse_judged`: what becomes of a file.
-/
namespace Workbench.Workflow

open Dialogue (Yields)
open Json (Codec Field Ordered Part isText isInt64 isName orNull)

variable {v : Json} {mark : String}

/-- The parts of an object, or the items of an array, that say where a document comes from. -/
def Origin.parts : List Part :=
  [⟨"exported_at", true, isText⟩, ⟨"exported_by", false, orNull isText⟩,
   ⟨"source_space_id", false, orNull isText⟩, ⟨"exporter", false, orNull isText⟩]

theorem Origin.takes_eq (hv : Ordered v) : Origin.codec.takes v = v.fits Origin.parts := by
  have htext := Part.alike_of_takes Json.string_takes
  have htexts := Part.alike_of_takes Json.optionString_takes
  refine (Json.record_takes (by decide) (by rfl) hv).trans (Json.fits_congr ?_ hv)
  exact .cons (htext ..) <| .cons (htexts ..) <| .cons (htexts ..) <| .cons (htexts ..) .nil

/-- The first two items are there, and the others may be absent. -/
example : (Json.arr [.str "2024-05-01T00:00:00+00:00", .null]).fits Origin.parts = true := by decide

namespace Document

/-- The parts of a document. -/
def parts : List Part :=
  [⟨"type", true, isText⟩, ⟨"version", true, isText⟩, ⟨"workflow_id", true, isText⟩,
   ⟨"name", true, isText⟩, ⟨"description", false, isText⟩, ⟨"icon_uri", false, orNull isText⟩,
   ⟨"icon_url", false, orNull isText⟩, ⟨"create_time", false, orNull isInt64⟩,
   ⟨"update_time", false, orNull isInt64⟩, ⟨"creator_id", false, orNull isText⟩,
   ⟨"creator_name", false, orNull isText⟩,
   ⟨"flow_mode", false, isName ["workflow", "chatflow", "imageflow"]⟩,
   ⟨"schema_type", false, orNull isText⟩, ⟨"schema", false, fun _ => true⟩,
   ⟨"schema_json", false, orNull isText⟩,
   ⟨"export_metadata", false, orNull (Json.fits Origin.parts)⟩]

theorem takes_eq (hv : Ordered v) : codec.takes v = v.fits parts := by
  have htext := Part.alike_of_takes Json.string_takes
  have htexts := Part.alike_of_takes Json.optionString_takes
  have htimes := Part.alike_of_takes ((Json.option_takes Codec.int64).trans
    (congrArg orNull Json.int64_takes))
  have hmode := Part.alike_of_takes (Json.ofNames_takes FlowMode.all FlowMode.name)
  have hany := Part.alike_of_takes Json.any_takes
  have horigin : Part.Alike ⟨"export_metadata", false, Origin.codec.option.takes⟩
      ⟨"export_metadata", false, orNull (Json.fits Origin.parts)⟩ :=
    ⟨rfl, rfl, fun {w} hw => by
      rw [Json.option_takes]
      exact congrArg (w.isNull || ·) (Origin.takes_eq hw)⟩
  refine (Json.record_takes (by decide) (by rfl) hv).trans (Json.fits_congr ?_ hv)
  exact .cons (htext ..) <| .cons (htext ..) <| .cons (htext ..) <| .cons (htext ..) <|
    .cons (htext ..) <| .cons (htexts ..) <| .cons (htexts ..) <| .cons (htimes ..) <|
    .cons (htimes ..) <| .cons (htexts ..) <| .cons (htexts ..) <| .cons (hmode ..) <|
    .cons (htexts ..) <| .cons (hany ..) <| .cons (htexts ..) <| .cons horigin .nil

/-! ## The order of the checks -/

/-- The value is an object of this type. -/
def HasMark (v : Json) (mark : String) : Prop :=
  ∃ ms, v = .obj ms ∧ ms.lookup "type" = some (.str mark)

theorem hasMark_iff : HasMark v mark ↔ (v.get? "type").bind Json.str? = some mark := by
  simp only [HasMark, Option.bind_eq_some_iff, Json.str?_eq_some_iff, exists_eq_right]
  cases v <;> simp [Json.get?]

/-- There is neither a value nor a text for the graph. -/
def Graphless (v : Json) : Prop :=
  (v.get? "schema" = none ∨ v.get? "schema" = some .null) ∧
  (v.get? "schema_json" = none ∨ v.get? "schema_json" = some .null ∨
    ∃ raw, v.get? "schema_json" = some (.str raw) ∧ Text.isBlankText raw = true)

/-- What becomes of a value that is to be a document. -/
structure Judged (v : Json) (result : Except TransferError Document) : Prop where
  unmarked : ¬HasMark v formatMark →
    ∃ found, result = .error (.wrongFormat found) ∧ ∀ mark, found = some mark ↔ HasMark v mark
  misshapen : HasMark v formatMark → v.fits parts = false →
    ∃ p, result = .error (.invalidJson ⟨p, none⟩)
  graphless : HasMark v formatMark → v.fits parts = true → Graphless v →
    result = .error .missingSchema
  accepted : HasMark v formatMark → v.fits parts = true → ¬Graphless v →
    ∃ d graph, result = .ok d ∧ codec.decode v = .ok d ∧ d.schemaText = some graph

/-- There is a graph unless the value is `null` and the text is missing or blank. -/
theorem schemaText_eq_none {d : Document} : d.schemaText = none ↔
    d.schema = .null ∧ ∀ raw, d.schemaJson = some raw → Text.isBlankText raw = true := by
  have hnull : d.schema.isNull = true ↔ d.schema = .null := by
    cases d.schema <;> simp [Json.isNull]
  rw [schemaText, ← Text.filter_blank_eq_none_iff, ← hnull]
  cases d.schemaJson.filter (! Text.isBlankText ·) <;> simp

/-- The two forms of the graph, as the members of a document say. -/
theorem schema_decodes {ms : List (String × Json)} {d : Document} (hv : Ordered (.obj ms))
    (h : codec.decode (.obj ms) = .ok d) :
    (Field.default "schema" .any .null).Decodes (ms.lookup "schema") d.schema ∧
      (Field.optional "schema_json" .string).Decodes (ms.lookup "schema_json") d.schemaJson := by
  cases hv with
  | obj hnames _ =>
    obtain ⟨row, hrow, rfl⟩ := (Json.record_decode_iff (by decide) hnames.nodup).mp h
    obtain ⟨format, version, id, name, desc, uri, url, created, updated, creatorId, creatorName,
      mode, type, schema, schemaJson, origin, ⟨⟩⟩ := row
    obtain ⟨-, -, -, -, -, -, -, -, -, -, -, -, -, hschema, hraw, -⟩ := hrow
    exact ⟨hschema, hraw⟩

theorem value_eq_null_iff {name : String} {member : Option Json} {schema : Json}
    (h : (Field.default name .any .null).Decodes member schema) :
    schema = .null ↔ member = none ∨ member = some .null := by
  cases member with
  | none =>
    rcases h with h | h <;> cases h
    exact ⟨fun _ => .inl rfl, fun _ => rfl⟩
  | some w =>
    cases h
    simp

theorem text_blank_iff {name : String} {member : Option Json} {raw? : Option String}
    (h : (Field.optional name .string).Decodes member raw?) :
    (∀ raw, raw? = some raw → Text.isBlankText raw = true) ↔
      member = none ∨ member = some .null ∨
        ∃ raw, member = some (.str raw) ∧ Text.isBlankText raw = true := by
  cases member with
  | none =>
    rcases h with h | h <;> cases h
    exact ⟨fun _ => .inl rfl, fun _ => nofun⟩
  | some w =>
    cases w with
    | null | str =>
      cases h
      simp
    | bool | num | arr | obj => cases h

/-- A document has no graph if its value has none. -/
theorem schemaText_eq_none_iff {d : Document} (hv : Ordered v) (hmark : HasMark v mark)
    (h : codec.decode v = .ok d) : d.schemaText = none ↔ Graphless v := by
  obtain ⟨ms, rfl, -⟩ := hmark
  obtain ⟨hschema, hraw⟩ := schema_decodes hv h
  exact schemaText_eq_none.trans (and_congr (value_eq_null_iff hschema) (text_blank_iff hraw))

theorem ofJson_unmarked (hmark : ¬HasMark v formatMark) :
    ofJson v = .error (.wrongFormat ((v.get? "type").bind Json.str?)) :=
  if_neg (mt hasMark_iff.mpr hmark)

theorem ofJson_marked (hmark : HasMark v formatMark) :
    ofJson v = match codec.decode v with
      | .error p => .error (.invalidJson ⟨p, none⟩)
      | .ok d => if d.schemaText.isSome then .ok d else .error .missingSchema := by
  rw [ofJson, hasMark_iff.mp hmark]
  rfl

/-- A value is judged by its mark, then by its parts, and by its graph in the end. -/
theorem ofJson_judged (hv : Ordered v) : Judged v (ofJson v) := by
  have htakes := takes_eq hv
  by_cases hmark : HasMark v formatMark
  · rw [ofJson_marked hmark]
    unfold Codec.takes at htakes
    cases hdecode : codec.decode v with
    | error p =>
      rw [hdecode] at htakes
      have hmisfit : ¬v.fits parts = true := by
        rw [← htakes]
        exact Bool.false_ne_true
      exact ⟨absurd hmark, fun _ _ => ⟨p, rfl⟩, fun _ h => absurd h hmisfit,
        fun _ h => absurd h hmisfit⟩
    | ok d =>
      rw [hdecode] at htakes
      have hgraph := schemaText_eq_none_iff hv hmark hdecode
      refine ⟨absurd hmark, fun _ h => ?_, fun _ _ h => ?_, fun _ _ h => ?_⟩
      · rw [h] at htakes
        cases htakes
      · simp [hgraph.mpr h]
      · obtain ⟨graph, hsome⟩ := Option.ne_none_iff_exists'.mp (mt hgraph.mp h)
        exact ⟨d, graph, by simp [hsome], hdecode, hsome⟩
  · rw [ofJson_unmarked hmark]
    exact ⟨fun _ => ⟨_, rfl, fun _ => hasMark_iff.symm⟩, fun h => absurd h hmark,
      fun h => absurd h hmark, fun h => absurd h hmark⟩

/-! ## Files -/

/-- The import of an accepted document goes on to the request for its workflow. -/
theorem creates_of_parse {contents : List UInt8} {d : Document} {spaceId : String} {now : Civil}
    {log : Log} {result : Except TransferError (String × String)}
    (hparse : parse contents = .ok d) (h : Yields (createFrom contents spaceId now) log result) :
    (∃ reply rest, log = ⟨.create (d.request spaceId now), reply⟩ :: rest) ∧
      result ≠ .error .missingSchema := by
  rcases yields_createFrom h with ⟨e, hrefused, -⟩ |
    ⟨d', graph, haccepted, -, ⟨e, rfl, rfl⟩ | ⟨workflowId, reply, rfl, rfl⟩⟩
  · cases hrefused.symm.trans hparse
  · obtain rfl := Except.ok.inj (haccepted.symm.trans hparse)
    exact ⟨⟨_, _, rfl⟩, nofun⟩
  · obtain rfl := Except.ok.inj (haccepted.symm.trans hparse)
    exact ⟨⟨_, _, rfl⟩, by cases reply <;> nofun⟩

/-- **Exactly the documents of the format are accepted**, and what is wrong with any other file is
the first thing that is. The graph is not missed a second time: the import of an accepted document
goes on to the request for its workflow. -/
theorem parse_judged (contents : List UInt8) :
    (match Json.read contents with
      | .error e => parse contents = .error (.invalidJson e)
      | .ok v => Judged v (parse contents)) ∧
    ∀ (d : Document) (spaceId : String) (now : Civil) (log : Log)
      (result : Except TransferError (String × String)), parse contents = .ok d →
      Yields (createFrom contents spaceId now) log result →
      (∃ reply rest, log = ⟨.create (d.request spaceId now), reply⟩ :: rest) ∧
        result ≠ .error .missingSchema := by
  refine ⟨?_, fun d spaceId now log result => creates_of_parse⟩
  unfold parse
  cases hread : Json.read contents with
  | error e => rfl
  | ok v => exact ofJson_judged (Json.ordered_of_read hread)

end Document

end Workbench.Workflow
