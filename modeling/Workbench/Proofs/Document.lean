import Workbench.Transfer
import Workbench.Proofs.Json.Readable
import Workbench.Proofs.Models
import Workbench.Proofs.Text.Blank

/-!
# Exported documents are accepted

The document of a workflow carries the graph twice, as the text that the backend stores and as the
value of this text, which stands one level deeper in the document than in the text. Reading allows
127 levels.

* `rereads`: a document comes back with its fields as they were, only the numbers and the order of
  the members in the graph's value are those of a second reading.
* `parse_prettyText`: a written document is accepted, unless its value is nested too deeply.
* `parse_exported`: the document of a workflow with a graph is accepted, unless the graph is nested
  exactly as deeply as a text may be. Graphs that are nested more deeply have no value, and their
  documents are accepted.
-/
namespace Workbench.Workflow

open Json (Held Codec Field Fields depth_optionString)
open Text (bytes)

theorem Origin.depth_le (o : Origin) : (Origin.codec.encode o).depth ≤ 1 := by
  refine Json.depth_obj_le_succ_iff.mp (Fields.forall_mem_encode (P := (Json.depth · ≤ 0)) ?_)
  exact ⟨Nat.zero_le _, depth_optionString _ _, depth_optionString _ _, depth_optionString _ _,
    trivial⟩

namespace Document

/-- The document as which a document is read after it has been written. -/
def reread (d : Document) : Document := { d with schema := d.schema.reread }

theorem rereads (d : Document) : codec.Rereads d d.reread := by
  have hstring (o : Option String) := (optionString_lawful o 0).rereads
  have hint (o : Option Int64) := (optionInt64_lawful o 0).rereads
  have horigin : Origin.codec.option.Rereads d.origin d.origin :=
    (Json.option_lawful fun o _ => ⟨o.lawful 0, rfl⟩).rereads
  refine Json.record_rereads (by decide) rfl ?_
  exact ⟨Json.string_rereads _, Json.string_rereads _, Json.string_rereads _, Json.string_rereads _,
    Json.string_rereads _, hstring _, hstring _, hint _, hint _, hstring _, hstring _,
    (d.mode.lawful 0).rereads, hstring _, Json.any_rereads _, hstring _, horigin, trivial⟩

theorem held_encode {d : Document} (h : Held d.schema) : Held (codec.encode d) := by
  have hstring (o : Option String) := (optionString_lawful o 0).held
  have hint (o : Option Int64) := (optionInt64_lawful o 0).held
  have horigin : Held (Origin.codec.option.encode d.origin) :=
    (Json.option_lawful fun o _ => ⟨o.lawful 0, rfl⟩).held
  refine .obj (Fields.forall_mem_encode ?_)
  exact ⟨.str _, .str _, .str _, .str _, .str _, hstring _, hstring _, hint _, hint _, hstring _,
    hstring _, .str _, hstring _, h, hstring _, horigin, trivial⟩

/-- The mark and the value are members of a written document. -/
theorem exists_members (d : Document) :
    ∃ ms, codec.encode d = .obj ms ∧ (ms.map Prod.fst).Nodup ∧ ("type", .str d.format) ∈ ms ∧
      ("schema", d.schema) ∈ ms :=
  ⟨_, rfl, Fields.nodup_encode (by decide) _, List.mem_of_getElem? (i := 0) rfl,
    List.mem_of_getElem? (i := 13) rfl⟩

/-- The value stands one level below the document, and its other parts take one level at most. -/
theorem depth_encode_le_iff (d : Document) (n : Nat) :
    (codec.encode d).depth ≤ n + 2 ↔ d.schema.depth ≤ n + 1 := by
  constructor
  · intro h
    obtain ⟨ms, hms, -, -, hschema⟩ := exists_members d
    rw [hms] at h
    exact Json.depth_obj_le_succ_iff.mpr h _ hschema
  · intro h
    have hstring (o : Option String) := depth_optionString o (n + 1)
    have hint := Json.depth_option (c := Codec.int64) (n := n + 1) fun _ => Nat.zero_le _
    have horigin := Json.depth_option (c := Origin.codec) (n := n + 1) fun o =>
      o.depth_le.trans (Nat.le_add_left 1 n)
    have hzero : 0 ≤ n + 1 := Nat.zero_le _
    refine Json.depth_obj_le_succ_iff.mp
      (Fields.forall_mem_encode (P := (Json.depth · ≤ n + 1)) ?_)
    exact ⟨hzero, hzero, hzero, hzero, hzero, hstring _, hstring _, hint _, hint _, hstring _,
      hstring _, hzero, hstring _, h, hstring _, horigin _, trivial⟩

theorem get?_type (d : Document) : (codec.encode d).reread.get? "type" = some (.str d.format) := by
  obtain ⟨ms, hms, hnd, htype, -⟩ := exists_members d
  rw [hms]
  exact Json.lookup_eq_some_of_mem (m := ("type", .str d.format)) (Json.nodup_rereadMembers hnd)
    ((Json.mem_rereadMembers hnd).mpr ⟨_, htype, rfl⟩)

/-- The value of a document with the mark is accepted if there is a graph. -/
theorem ofJson_encode {d : Document} (hformat : d.format = formatMark) :
    ofJson (codec.encode d).reread =
      if d.reread.schemaText.isSome = true then .ok d.reread else .error .missingSchema := by
  have hmark : ((codec.encode d).reread.get? "type").bind Json.str? = some formatMark := by
    rw [get?_type, ← hformat]
    rfl
  simp only [ofJson, hmark, if_true]
  rw [rereads d]
  rfl

section Parse

variable {d : Document} (hheld : Held d.schema)

include hheld

/-- Whether a written document is accepted depends on its graph alone, if its value leaves room for
the level it stands on. -/
theorem parse_prettyText_eq (hformat : d.format = formatMark)
    (hdepth : d.schema.depth < Json.maxNesting) : parse (bytes (codec.prettyText d)) =
      if d.reread.schemaText.isSome = true then .ok d.reread else .error .missingSchema := by
  have hfits := (depth_encode_le_iff d 125).mpr (Nat.le_of_lt_succ hdepth)
  rw [parse, Codec.prettyText, Json.pretty,
    Json.read_write Json.blank_pretty (held_encode hheld) 0 hfits]
  exact ofJson_encode hformat

/-- **Written documents are accepted** if their value leaves room for the level it stands on. -/
theorem parse_prettyText (hformat : d.format = formatMark)
    (hgraph : d.reread.schemaText.isSome = true) (hdepth : d.schema.depth < Json.maxNesting) :
    parse (bytes (codec.prettyText d)) = .ok d.reread := by
  rw [parse_prettyText_eq hheld hformat hdepth, if_pos hgraph]

theorem parse_prettyText_tooDeep (hdepth : Json.maxNesting ≤ d.schema.depth) :
    ∃ place, parse (bytes (codec.prettyText d)) =
      .error (.invalidJson ⟨.fault .tooDeep, some place⟩) := by
  have hdeep : ¬ (codec.encode d).depth ≤ 127 := fun h =>
    absurd ((depth_encode_le_iff d 125).mp h) (not_le.mpr hdepth)
  obtain ⟨place, hread⟩ :=
    Json.read_write_tooDeep Json.blank_pretty (held_encode hheld) 0 (not_le.mp hdeep)
  exact ⟨place, by rw [parse, Codec.prettyText, Json.pretty, hread]⟩

end Parse

/-! ## Documents of workflows -/

/-- The value of a graph can be written and read, unless it has to stand on a lower level. -/
theorem readable_schemaValue (raw : Option String) :
    Json.Readable Json.maxNesting (schemaValue raw) := by
  unfold schemaValue
  split
  · split
    · rename_i v hread
      exact Json.readable_of_read hread
    · exact ⟨Nat.zero_le _, .null⟩
  · exact ⟨Nat.zero_le _, .null⟩

/-- A text for the graph is the graph, whatever its value. -/
theorem schemaText_of_raw {d : Document} {raw : String} (hraw : d.schemaJson = some raw)
    (hblank : Text.isBlankText raw = false) : d.schemaText = some raw := by
  rw [schemaText, hraw, Text.filter_blank_eq_self hblank]

theorem schemaValue_of_read {raw : String} {v : Json} (hread : Json.read (bytes raw) = .ok v)
    (hblank : Text.isBlankText raw = false) : schemaValue (some raw) = v := by
  rw [schemaValue, Text.filter_blank_eq_self hblank]
  simp only [hread]

/-- **Exported documents are accepted**, with all that was exported, unless the graph is nested
exactly as deeply as a text may be. -/
theorem parse_exported (d : Detail) (spaceId exportedBy : Option String) (now : Instant)
    {raw : String} (hraw : d.schemaJson = some raw) (hblank : Text.isBlankText raw = false) :
    if (schemaValue d.schemaJson).depth = Json.maxNesting then
      ∃ place, parse (bytes (codec.prettyText (ofDetail d spaceId exportedBy now))) =
        .error (.invalidJson ⟨.fault .tooDeep, some place⟩)
    else
      parse (bytes (codec.prettyText (ofDetail d spaceId exportedBy now))) =
        .ok (ofDetail d spaceId exportedBy now).reread := by
  obtain ⟨hdepth, hheld⟩ := readable_schemaValue d.schemaJson
  split
  · rename_i hmax
    exact parse_prettyText_tooDeep hheld hmax.ge
  · rename_i hother
    have hgraph : (ofDetail d spaceId exportedBy now).reread.schemaText = some raw :=
      schemaText_of_raw hraw hblank
    exact parse_prettyText hheld rfl (by rw [hgraph]; rfl) (lt_of_le_of_ne hdepth hother)

/-- A workflow of which nothing but the graph matters. -/
def plainDetail (graph : String) : Detail :=
  ⟨"7", "Flow", "", none, none, none, none, ⟨none, none⟩, .workflow, none, some graph⟩

theorem parse_exported_empty :
    (plainDetail "\x7b\x7d").schemaJson = some "\x7b\x7d" ∧
      Text.isBlankText "\x7b\x7d" = false ∧
      parse (bytes (codec.prettyText (ofDetail (plainDetail "\x7b\x7d") none none ⟨0, 0⟩))) =
        .ok (ofDetail (plainDetail "\x7b\x7d") none none ⟨0, 0⟩).reread := by
  have hgraph : (plainDetail "\x7b\x7d").schemaJson = some "\x7b\x7d" := rfl
  have hblank : Text.isBlankText "\x7b\x7d" = false := by decide
  have h := parse_exported (plainDetail "\x7b\x7d") none none ⟨0, 0⟩ hgraph hblank
  rw [if_neg (by decide)] at h
  exact ⟨hgraph, hblank, h⟩

/-- An array in an array, `n` times. -/
def nest : Nat → Json
  | 0 => .arr []
  | n + 1 => .arr [nest n]

theorem depth_nest (n : Nat) : (nest n).depth = n + 1 := by
  induction n with
  | zero => rfl
  | succ n ih => simp [nest, Json.depth, Json.depthItems, ih, Nat.add_comm]

theorem reread_nest (n : Nat) : (nest n).reread = nest n := by
  induction n with
  | zero => rfl
  | succ n ih => simp [nest, Json.reread, Json.rereadItems, ih]

theorem held_nest (n : Nat) : Held (nest n) := by
  induction n with
  | zero => exact .arr (by simp)
  | succ n ih => exact .arr (by simpa using ih)

theorem isBlankText_compact_nest (n : Nat) : Text.isBlankText (Json.compact (nest n)) = false := by
  refine Text.isBlankText_eq_false (c := '[') ?_ rfl
  cases n <;> simp [Json.compact, nest, Json.write]

theorem schemaValue_compact_nest {n : Nat} (hn : n < Json.maxNesting) :
    schemaValue (some (Json.compact (nest n))) = nest n := by
  have h := Json.read_write Json.blank_compact (held_nest n) 0 (by rw [depth_nest]; exact hn)
  rw [reread_nest] at h
  exact schemaValue_of_read h (isBlankText_compact_nest n)

theorem schema_ofDetail_nest {n : Nat} (hn : n < Json.maxNesting) (now : Instant) :
    (ofDetail (plainDetail (Json.compact (nest n))) none none now).schema = nest n :=
  schemaValue_compact_nest hn

/-- A graph of 127 arrays in each other can be stored and exported, but the export is refused. -/
theorem parse_exported_nested :
    (plainDetail (Json.compact (nest 126))).schemaJson = some (Json.compact (nest 126)) ∧
      Text.isBlankText (Json.compact (nest 126)) = false ∧
      ¬ ∃ document, parse (bytes (codec.prettyText
        (ofDetail (plainDetail (Json.compact (nest 126))) none none ⟨0, 0⟩))) = .ok document := by
  refine ⟨rfl, isBlankText_compact_nest 126, ?_⟩
  rintro ⟨document, haccepted⟩
  have hschema := schema_ofDetail_nest (n := 126) (by decide) ⟨0, 0⟩
  obtain ⟨place, hrefused⟩ := parse_prettyText_tooDeep
    (d := ofDetail (plainDetail (Json.compact (nest 126))) none none ⟨0, 0⟩)
    (by rw [hschema]; exact held_nest 126) (by rw [hschema, depth_nest]; decide)
  rw [haccepted] at hrefused
  cases hrefused

end Document

end Workbench.Workflow
