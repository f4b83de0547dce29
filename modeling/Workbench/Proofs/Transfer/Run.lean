import Workbench.Transfer
import Workbench.Proofs.Dialogue

/-!
# How an export and an import go

Both are a line of calls that ends at the first failure. `Saving` and `Import` list the ends of
these lines, each with all that has been said by then, and every run has one of them:

* `yields_saveDocument`: the workflow is asked for once, and what is saved is its document;
* `yields_createFrom`: a document is accepted before its workflow is created, and the workflow is
  created before its graph is saved;
* `yields_importWorkflow`: an import ends with one alert, unless the user picks no file.
-/
namespace Workbench

open Dialogue (Yields Peer)
open Workflow (Detail Document)

variable {log : Log}

/-! ## Export -/

/-- The runs of `saveDocument`. -/
inductive Saving (spaceId workflowId : String) (exportedBy : Option String) (now : Instant) :
    Log → Except TransferError (Option String) → Prop
  | failed (e : ApiError) :
      Saving spaceId workflowId exportedBy now [⟨.detail spaceId workflowId, .error e⟩]
        (.error (.api e))
  | absent :
      Saving spaceId workflowId exportedBy now [⟨.detail spaceId workflowId, .ok none⟩] (.ok none)
  | notSaved (d : Detail) (message : String) :
      Saving spaceId workflowId exportedBy now
        [⟨.detail spaceId workflowId, .ok (some d)⟩,
         ⟨.download (Document.fileName d.name d.workflowId) (Text.bytes
            (Document.codec.prettyText (.ofDetail d (some spaceId) exportedBy now))),
          .error message⟩]
        (.error (.file message))
  | saved (d : Detail) (path : String) :
      Saving spaceId workflowId exportedBy now
        [⟨.detail spaceId workflowId, .ok (some d)⟩,
         ⟨.download (Document.fileName d.name d.workflowId) (Text.bytes
            (Document.codec.prettyText (.ofDetail d (some spaceId) exportedBy now))),
          .ok path⟩]
        (.ok (some path))

theorem yields_saveDocument {spaceId workflowId : String} {exportedBy : Option String}
    {now : Instant} {result : Except TransferError (Option String)}
    (h : Yields (saveDocument spaceId workflowId exportedBy now) log result) :
    Saving spaceId workflowId exportedBy now log result := by
  rcases Dialogue.yields_call_bind.1 h with ⟨e | _ | d, _, rfl, hrest⟩
  · obtain ⟨rfl, rfl⟩ := Dialogue.yields_pure.1 hrest
    exact .failed e
  · obtain ⟨rfl, rfl⟩ := Dialogue.yields_pure.1 hrest
    exact .absent
  · rcases Dialogue.yields_call_bind.1 hrest with ⟨message | path, _, rfl, hdone⟩
    · obtain ⟨rfl, rfl⟩ := Dialogue.yields_pure.1 hdone
      exact .notSaved d message
    · obtain ⟨rfl, rfl⟩ := Dialogue.yields_pure.1 hdone
      exact .saved d path

/-- The path that a finished export has to show. -/
def savedPath : Except TransferError (Option String) → Option String
  | .ok path => path
  | .error _ => none

theorem yields_exportWorkflow {r : Resource} {exportedBy : Option String} {now : Instant}
    {path : Option String} (h : Yields (exportWorkflow r exportedBy now) log path) :
    ((Text.nonEmpty r.id = none ∨ Text.nonEmpty r.spaceId = none) ∧ log = [] ∧ path = none) ∨
    ∃ workflowId spaceId result, Text.nonEmpty r.id = some workflowId ∧
      Text.nonEmpty r.spaceId = some spaceId ∧
      Saving spaceId workflowId exportedBy now log result ∧ path = savedPath result := by
  unfold exportWorkflow at h
  split at h
  · rename_i workflowId spaceId hid hspace
    have hpure (result : Except TransferError (Option String)) :
        (match result with
          | .ok path => pure path
          | .error _ => pure none : Talk (Option String)) = pure (savedPath result) := by
      cases result <;> rfl
    obtain ⟨result, hsave, rfl⟩ := (Dialogue.yields_bind_pure hpure).1 h
    exact .inr ⟨workflowId, spaceId, result, hid, hspace, yields_saveDocument hsave, rfl⟩
  · rename_i hids
    obtain ⟨rfl, rfl⟩ := Dialogue.yields_pure.1 h
    refine .inl ⟨?_, rfl, rfl⟩
    cases hid : Text.nonEmpty r.id with
    | none => exact .inl rfl
    | some workflowId =>
      cases hspace : Text.nonEmpty r.spaceId with
      | none => exact .inr rfl
      | some spaceId => exact absurd hspace (hids workflowId spaceId hid)

/-! ## Import -/

namespace Workflow.Document

/-- A value is accepted if it bears the mark, describes a document, and has a graph. -/
theorem ofJson_eq_ok_iff {v : Json} {d : Document} : ofJson v = .ok d ↔
    (v.get? "type").bind Json.str? = some formatMark ∧ codec.decode v = .ok d ∧
      d.schemaText.isSome = true := by
  by_cases hmark : (v.get? "type").bind Json.str? = some formatMark
  · simp only [ofJson, hmark, if_true, true_and]
    cases codec.decode v with
    | error p =>
      constructor
      · intro h; cases h
      · rintro ⟨h, -⟩; cases h
    | ok d' =>
      dsimp only
      split
      · rename_i hgraph
        constructor
        · rintro ⟨⟩; exact ⟨rfl, hgraph⟩
        · rintro ⟨⟨⟩, -⟩; rfl
      · rename_i hnone
        constructor
        · intro h; cases h
        · rintro ⟨⟨⟩, hgraph⟩; exact absurd hgraph hnone
  · simp only [ofJson, hmark, if_false, false_and, iff_false]
    intro h; cases h

theorem exists_schemaText {contents : List UInt8} {d : Document} (h : parse contents = .ok d) :
    ∃ schema, d.schemaText = some schema := by
  unfold parse at h
  split at h
  · cases h
  · exact Option.isSome_iff_exists.1 (ofJson_eq_ok_iff.1 h).2.2

end Workflow.Document

/-- Nothing is created from a document that is refused, and what is created is saved with the graph
of the document under the id that it has been given. -/
theorem yields_createFrom {contents : List UInt8} {spaceId : String} {now : Civil}
    {result : Except TransferError (String × String)}
    (h : Yields (createFrom contents spaceId now) log result) :
    (∃ e, Document.parse contents = .error e ∧ log = [] ∧ result = .error e) ∨
    ∃ d schema, Document.parse contents = .ok d ∧ d.schemaText = some schema ∧
      ((∃ e, log = [⟨.create (d.request spaceId now), .error e⟩] ∧ result = .error (.api e)) ∨
       ∃ workflowId reply, log = [⟨.create (d.request spaceId now), .ok workflowId⟩,
          ⟨.save spaceId workflowId schema, reply⟩] ∧
        result = match reply with
          | .error e => .error (.api e)
          | .ok () => .ok (workflowId, importedName d.name now)) := by
  unfold createFrom at h
  split at h
  · rename_i e hparse
    obtain ⟨rfl, rfl⟩ := Dialogue.yields_pure.1 h
    exact .inl ⟨e, hparse, rfl, rfl⟩
  · rename_i d hparse
    obtain ⟨schema, hschema⟩ := Document.exists_schemaText hparse
    rw [hschema] at h
    refine .inr ⟨d, schema, hparse, hschema, ?_⟩
    rcases Dialogue.yields_call_bind.1 h with ⟨e | workflowId, _, rfl, hrest⟩
    · obtain ⟨rfl, rfl⟩ := Dialogue.yields_pure.1 hrest
      exact .inl ⟨e, rfl, rfl⟩
    · refine .inr ⟨workflowId, ?_⟩
      rcases Dialogue.yields_call_bind.1 hrest with ⟨e | ⟨⟩, _, rfl, hdone⟩
      · obtain ⟨rfl, rfl⟩ := Dialogue.yields_pure.1 hdone
        exact ⟨.error e, rfl, rfl⟩
      · obtain ⟨rfl, rfl⟩ := Dialogue.yields_pure.1 hdone
        exact ⟨.ok (), rfl, rfl⟩

/-- The runs of `importWorkflow`. -/
inductive Import (spaceId : String) (now : Civil) : Log → Option String → Prop
  | cancelled : Import spaceId now [⟨.pick, .ok none⟩] none
  | unreadable (message : String) :
      Import spaceId now
        [⟨.pick, .error message⟩,
         ⟨.alert .error s!"Import failed: {message}", ()⟩] none
  | refused {file : PickedFile} {e : TransferError} (h : Document.parse file.contents = .error e) :
      Import spaceId now
        [⟨.pick, .ok (some file)⟩,
         ⟨.alert .error s!"Import failed: {e.message}", ()⟩] none
  | notCreated {file : PickedFile} {d : Document} (h : Document.parse file.contents = .ok d)
      (e : ApiError) :
      Import spaceId now
        [⟨.pick, .ok (some file)⟩,
         ⟨.create (d.request spaceId now), .error e⟩,
         ⟨.alert .error s!"Import failed: {e.message}", ()⟩] none
  | notSaved {file : PickedFile} {d : Document} {schema : String}
      (h : Document.parse file.contents = .ok d) (hschema : d.schemaText = some schema)
      (workflowId : String) (e : ApiError) :
      Import spaceId now
        [⟨.pick, .ok (some file)⟩,
         ⟨.create (d.request spaceId now), .ok workflowId⟩,
         ⟨.save spaceId workflowId schema, .error e⟩,
         ⟨.alert .error s!"Import failed: {e.message}", ()⟩] none
  | imported {file : PickedFile} {d : Document} {schema : String}
      (h : Document.parse file.contents = .ok d) (hschema : d.schemaText = some schema)
      (workflowId : String) :
      Import spaceId now
        [⟨.pick, .ok (some file)⟩,
         ⟨.create (d.request spaceId now), .ok workflowId⟩,
         ⟨.save spaceId workflowId schema, .ok ()⟩,
         ⟨.alert .success s!"Workflow imported as \"{importedName d.name now}\"", ()⟩]
        (some workflowId)

theorem yields_importFailure {message : String} {created : Option String}
    (h : Yields (importFailure message) log created) :
    log = [⟨.alert .error s!"Import failed: {message}", ()⟩] ∧ created = none := by
  rcases Dialogue.yields_call_bind.1 h with ⟨⟨⟩, _, rfl, hdone⟩
  obtain ⟨rfl, rfl⟩ := Dialogue.yields_pure.1 hdone
  exact ⟨rfl, rfl⟩

theorem yields_importWorkflow {spaceId : String} {now : Civil} {created : Option String}
    (h : Yields (importWorkflow spaceId now) log created) : Import spaceId now log created := by
  rcases Dialogue.yields_call_bind.1 h with ⟨message | _ | file, _, rfl, hrest⟩
  · obtain ⟨rfl, rfl⟩ := yields_importFailure hrest
    exact .unreadable message
  · obtain ⟨rfl, rfl⟩ := Dialogue.yields_pure.1 hrest
    exact .cancelled
  · obtain ⟨_, _, result, rfl, hcreate, hend⟩ := Dialogue.yields_bind.1 hrest
    rcases yields_createFrom hcreate with ⟨e, hparse, rfl, rfl⟩ |
      ⟨d, schema, hparse, hschema, ⟨e, rfl, rfl⟩ | ⟨workflowId, e | ⟨⟩, rfl, rfl⟩⟩
    · obtain ⟨rfl, rfl⟩ := yields_importFailure hend
      exact .refused hparse
    · obtain ⟨rfl, rfl⟩ := yields_importFailure hend
      exact .notCreated hparse e
    · obtain ⟨rfl, rfl⟩ := yields_importFailure hend
      exact .notSaved hparse hschema workflowId e
    · rcases Dialogue.yields_call_bind.1 hend with ⟨⟨⟩, _, rfl, hdone⟩
      obtain ⟨rfl, rfl⟩ := Dialogue.yields_pure.1 hdone
      exact .imported hparse hschema workflowId

/-! ## A world in which all goes well -/

/-- Everything is there and succeeds, but the list cannot be reloaded. -/
def obliging (detail : Option Detail) (file : PickedFile) : Peer Call Call.Reply Unit
  | .detail _ _, s => (.ok detail, s)
  | .create _, s => (.ok "9001", s)
  | .save _ _ _, s => (.ok (), s)
  | .register _, s => (.ok (), s)
  | .probe _, s => (.error (.network "unreachable"), s)
  | .pick, s => (.ok (some file), s)
  | .download name _, s => (.ok name, s)
  | .alert _ _, s => ((), s)
  | .handle .refresh, s => (.error ["offline"], s)
  | .handle _, s => (.ok (), s)

end Workbench
