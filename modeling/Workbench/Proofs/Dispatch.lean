import Workbench.Dispatch
import Workbench.Proofs.Menu
import Workbench.Proofs.Transfer.Run

/-!
# What an action comes to

Whatever the outside world replies, an action on a row

* is refused before anything is called, unless its first entry in the menu of the row can be chosen,
  and else makes one call to its own handler (`dispatch_routed`);
* reaches a handler over which the backend decides exactly if the backend allows that on a workflow.
  The exceptions are copying and deleting, for which an entry of the hook comes before the built-in
  one and decides in place of the backend (`calls_handler_iff`, `copies_unasked`);
* as an import, ends in one of the ways of `ImportInto`, and has the list reloaded only after the
  new workflow has its graph (`dispatch_import`).
-/
namespace Workbench

open Dialogue (Yields Peer)

variable {viewer : Viewer} {hook : Menu.Hook} {now : Instant} {action : Action} {r : Resource}
  {key : ActionKey} {handling : Handling} {log : Log} {result : Except DispatchError Outcome}

theorem dispatch_eq_perform (h : (Menu.build r viewer hook).offers action = true) :
    dispatch viewer hook now action r = Dispatch.perform viewer now action r :=
  if_pos h

theorem yields_dispatch_refused (h : (Menu.build r viewer hook).offers action = false)
    (hrun : Yields (dispatch viewer hook now action r) log result) :
    log = [] ∧ result = .error (.unavailable action.id) := by
  rw [dispatch, if_neg (by simp [h])] at hrun
  exact Dialogue.yields_pure.1 hrun

/-! ## Handlers -/

theorem EditTarget.of?_eq_none_iff :
    EditTarget.of? r = none ↔ Text.nonEmpty r.id = none ∨ Text.nonEmpty r.spaceId = none := by
  cases hid : Text.nonEmpty r.id <;> cases hspace : Text.nonEmpty r.spaceId <;>
    simp [EditTarget.of?, hid, hspace]

/-- What the handler of an action is asked to do. Export and import have none, and an editor needs a
target. -/
def Action.handling? (r : Resource) : Action → Option Handling
  | .edit => (EditTarget.of? r).map .edit
  | .switchToChatflow => some (.switchToChatflow r)
  | .switchToWorkflow => some (.switchToWorkflow r)
  | .transferOut | .transferIn => none
  | .publish => some (.publish r)
  | .copy => some (.copy r)
  | .delete => some (.delete r)
  | .custom id => some (.custom id r)

/-- The result of an action whose handler has answered. -/
def Action.resultOf (action : Action) : Except (List String) Unit → Except DispatchError Outcome
  | .ok () => .ok .handled
  | .error causes => .error (.handler action.id (": ".intercalate causes))

theorem yields_delegate (h : Yields (Dispatch.delegate action handling) log result) :
    ∃ reply, log = [⟨.handle handling, reply⟩] ∧ result = action.resultOf reply := by
  rcases Dialogue.yields_call_bind.1 h with ⟨causes | ⟨⟩, _, rfl, hdone⟩
  · obtain ⟨rfl, rfl⟩ := Dialogue.yields_pure.1 hdone
    exact ⟨.error causes, rfl, rfl⟩
  · obtain ⟨rfl, rfl⟩ := Dialogue.yields_pure.1 hdone
    exact ⟨.ok (), rfl, rfl⟩

theorem perform_eq_delegate (h : action.handling? r = some handling) :
    Dispatch.perform viewer now action r = Dispatch.delegate action handling := by
  cases action with
  | edit =>
    obtain ⟨target, htarget, rfl⟩ := Option.map_eq_some_iff.1 h
    rw [Dispatch.perform, htarget]
  | transferOut | transferIn => cases h
  | switchToChatflow | switchToWorkflow | publish | copy | delete | custom id =>
    obtain rfl := Option.some.inj h
    rfl

theorem yields_perform_handled (h : action.handling? r = some handling)
    (hrun : Yields (Dispatch.perform viewer now action r) log result) :
    ∃ reply, log = [⟨.handle handling, reply⟩] ∧ result = action.resultOf reply := by
  rw [perform_eq_delegate h] at hrun
  exact yields_delegate hrun

theorem yields_edit_missingIds (h : EditTarget.of? r = none)
    (hrun : Yields (Dispatch.perform viewer now .edit r) log result) :
    log = [] ∧ result = .error (.missingIds Action.edit.id) := by
  rw [Dispatch.perform, h] at hrun
  exact Dialogue.yields_pure.1 hrun

/-- An action other than export and import has a handler, if an editor finds its target. -/
theorem exists_handling (hout : action ≠ .transferOut) (hin : action ≠ .transferIn)
    (htarget : action = .edit → EditTarget.of? r ≠ none) :
    ∃ handling, action.handling? r = some handling := by
  cases action with
  | edit =>
    obtain ⟨target, h⟩ := Option.ne_none_iff_exists'.1 (htarget rfl)
    exact ⟨.edit target, by rw [Action.handling?, h, Option.map_some]⟩
  | transferOut => exact absurd rfl hout
  | transferIn => exact absurd rfl hin
  | switchToChatflow | switchToWorkflow | publish | copy | delete | custom id => exact ⟨_, rfl⟩

/-- How an action is routed: what is called for it, and what comes back. -/
structure Routed (viewer : Viewer) (hook : Menu.Hook) (action : Action) (r : Resource) (log : Log)
    (result : Except DispatchError Outcome) : Prop where
  refused : (∀ e, (Menu.build r viewer hook).entries.find? (·.action == action) = some e →
      e.visible = false ∨ e.enabled = false) →
    log = [] ∧ result = .error (.unavailable action.id)
  otherKinds : r.kind ≠ .workflow → log = [] ∧ result = .error (.unavailable action.id)
  missingIds : ∀ e, (Menu.build r viewer hook).entries.find? (·.action == action) = some e →
    e.visible = true → e.enabled = true → action = .edit →
    Text.nonEmpty r.id = none ∨ Text.nonEmpty r.spaceId = none →
    log = [] ∧ result = .error (.missingIds action.id)
  delegated : ∀ e, (Menu.build r viewer hook).entries.find? (·.action == action) = some e →
    e.visible = true → e.enabled = true → action ≠ .transferOut → action ≠ .transferIn →
    (action = .edit → Text.nonEmpty r.id ≠ none ∧ Text.nonEmpty r.spaceId ≠ none) →
    ∃ handling reply, action.handling? r = some handling ∧ log = [⟨.handle handling, reply⟩] ∧
      result = action.resultOf reply

theorem yields_dispatch_routed (h : Yields (dispatch viewer hook now action r) log result) :
    Routed viewer hook action r log result := by
  have hperform {e : Entry} (hfirst : (Menu.build r viewer hook).find? action = some e)
      (hvisible : e.visible = true) (henabled : e.enabled = true) :
      Yields (Dispatch.perform viewer now action r) log result := by
    rwa [dispatch_eq_perform] at h
    exact Menu.offers_iff.2 ⟨e, hfirst, Entry.isActionable_iff.2 ⟨hvisible, henabled⟩⟩
  refine ⟨?_, ?_, ?_, ?_⟩
  · intro hclosed
    exact yields_dispatch_refused (Menu.offers_eq_false_iff.2 hclosed) h
  · intro hkind
    refine yields_dispatch_refused ?_ h
    exact Bool.eq_false_iff.2 fun hoffers => hkind (Menu.kind_of_offers hoffers)
  · rintro e hfirst hvisible henabled rfl hids
    exact yields_edit_missingIds (EditTarget.of?_eq_none_iff.2 hids)
      (hperform hfirst hvisible henabled)
  · intro e hfirst hvisible henabled hout hin hids
    obtain ⟨handling, hhandling⟩ := exists_handling (r := r) hout hin fun hedit hnone =>
      (EditTarget.of?_eq_none_iff.1 hnone).elim (hids hedit).1 (hids hedit).2
    obtain ⟨reply, hlog, hresult⟩ :=
      yields_perform_handled hhandling (hperform hfirst hvisible henabled)
    exact ⟨handling, reply, hhandling, hlog, hresult⟩

/-- **Complete mediation.** Whatever the menu, the row and the replies are, nothing is called for an
action before its entry has been looked up, and then only its own handler, once. -/
theorem dispatch_routed {σ : Type} (viewer : Viewer) (hook : Menu.Hook) (now : Instant)
    (action : Action) (r : Resource) (peer : Peer Call Call.Reply σ) (s : σ) :
    Routed viewer hook action r ((dispatch viewer hook now action r).exchanges peer s)
      ((dispatch viewer hook now action r).transcript peer s).1 :=
  yields_dispatch_routed (Dialogue.yields_transcript peer _ s)

/-! ## Import -/

/-- The runs of `Dispatch.importInto`. -/
inductive ImportInto (r : Resource) (now : Instant) : Log → Option String → Prop
  | noSpace (h : Text.nonEmpty r.spaceId = none) :
      ImportInto r now [⟨.alert .error "Import failed: no target space selected", ()⟩] none
  | ended {spaceId : String} {log : Log} (h : Text.nonEmpty r.spaceId = some spaceId)
      (hrun : Import spaceId now.civil log none) : ImportInto r now log none
  | imported {spaceId : String} {log : Log} {workflowId : String}
      (h : Text.nonEmpty r.spaceId = some spaceId)
      (hrun : Import spaceId now.civil log (some workflowId)) (reply : Except (List String) Unit) :
      ImportInto r now (log ++ [⟨.handle .refresh, reply⟩]) (some workflowId)

theorem yields_importInto {created : Option String}
    (h : Yields (Dispatch.importInto r now) log created) : ImportInto r now log created := by
  unfold Dispatch.importInto at h
  split at h
  · rename_i hspace
    rcases Dialogue.yields_call_bind.1 h with ⟨⟨⟩, _, rfl, hdone⟩
    obtain ⟨rfl, rfl⟩ := Dialogue.yields_pure.1 hdone
    exact .noSpace hspace
  · rename_i spaceId hspace
    rcases Dialogue.yields_bind.1 h with ⟨log₁, _, _ | workflowId, rfl, hrun, hend⟩
    · obtain ⟨rfl, rfl⟩ := Dialogue.yields_pure.1 hend
      rw [List.append_nil]
      exact .ended hspace (yields_importWorkflow hrun)
    · obtain ⟨reply, _, rfl, hdone⟩ := Dialogue.yields_call_bind.1 hend
      obtain ⟨rfl, rfl⟩ := Dialogue.yields_pure.1 hdone
      exact .imported hspace (yields_importWorkflow hrun) reply

theorem yields_perform_transferIn
    (h : Yields (Dispatch.perform viewer now .transferIn r) log result) :
    ∃ created, result = .ok (.imported created) ∧ ImportInto r now log created := by
  obtain ⟨created, hinto, rfl⟩ := (Dialogue.yields_bind_pure fun _ => rfl).1 h
  exact ⟨created, rfl, yields_importInto hinto⟩

def sampleRow : Resource :=
  { Resource.empty with id := some "7", spaceId := some "space-1", name := "Flow" }

def sampleFile : PickedFile where
  name := "flow.json"
  contents := Text.bytes ("\x7b\"type\":\"coze_workflow_export\",\"version\":\"1.0\"," ++
    "\"workflow_id\":\"7\",\"name\":\"Flow\",\"schema_json\":\"\x7b\x7d\"\x7d")

/-- **An import ends in a known way.** Against any peer it has one of the seven runs that
`ImportInto` lists together with `Import`. -/
theorem dispatch_import {σ : Type} {viewer : Viewer} {hook : Menu.Hook} (now : Instant)
    {r : Resource} (h : (Menu.build r viewer hook).offers .transferIn = true)
    (peer : Peer Call Call.Reply σ) (s : σ) :
    ∃ created,
      ((dispatch viewer hook now .transferIn r).transcript peer s).1 = .ok (.imported created) ∧
        ImportInto r now ((dispatch viewer hook now .transferIn r).exchanges peer s) created := by
  rw [dispatch_eq_perform h]
  exact yields_perform_transferIn (Dialogue.yields_transcript peer _ s)

/-- The new workflow counts although the list could not be reloaded. -/
theorem dispatch_import_sample :
    (Menu.build sampleRow ⟨"u1", .standard⟩ Menu.noHook).offers .transferIn = true ∧
    (∃ created,
      ((dispatch ⟨"u1", .standard⟩ Menu.noHook ⟨0, 0⟩ .transferIn sampleRow).transcript
          (obliging none sampleFile) ()).1 = .ok (.imported created) ∧
        ImportInto sampleRow ⟨0, 0⟩ ((dispatch ⟨"u1", .standard⟩ Menu.noHook ⟨0, 0⟩ .transferIn
          sampleRow).exchanges (obliging none sampleFile) ()) created) ∧
    ((dispatch ⟨"u1", .standard⟩ Menu.noHook ⟨0, 0⟩ .transferIn sampleRow).transcript
        (obliging none sampleFile) ()).2.1 =
      [.pick,
       .create ⟨"space-1", "Flow_imported_19700101000000", "", none, .workflow⟩,
       .save "space-1" "9001" "\x7b\x7d",
       .alert .success "Workflow imported as \"Flow_imported_19700101000000\"",
       .handle .refresh] :=
  ⟨by decide, dispatch_import ⟨0, 0⟩ (by decide) (obliging none sampleFile) (), by decide +kernel⟩

/-! ## Handlers that the backend decides on -/

/-- The key under which the backend decides on what a handler is asked to do. -/
def Handling.key? : Handling → Option ActionKey
  | .edit _ => some .edit
  | .switchToChatflow _ => some .switchToChatflow
  | .switchToWorkflow _ => some .switchToWorkflow
  | .copy _ => some .copy
  | .delete _ => some .delete
  | .publish _ | .custom _ _ | .refresh => none

theorem key?_of_handling? (h : action.handling? r = some handling) :
    handling.key? = action.key? := by
  cases action with
  | edit =>
    obtain ⟨target, -, rfl⟩ := Option.map_eq_some_iff.1 h
    rfl
  | transferOut | transferIn => cases h
  | switchToChatflow | switchToWorkflow | publish | copy | delete | custom id =>
    obtain rfl := Option.some.inj h
    rfl

/-- An export talks to no handler. -/
theorem Saving.not_handle {spaceId workflowId : String} {exportedBy : Option String}
    {result : Except TransferError (Option String)}
    (h : Saving spaceId workflowId exportedBy now log result) :
    .handle handling ∉ log.map Sigma.fst := by
  cases h <;> simp

/-- An import talks to no handler before it has ended. -/
theorem Import.not_handle {spaceId : String} {now : Civil} {created : Option String}
    (h : Import spaceId now log created) : .handle handling ∉ log.map Sigma.fst := by
  cases h <;> simp

theorem ImportInto.eq_refresh {created : Option String} (h : ImportInto r now log created)
    (hmem : .handle handling ∈ log.map Sigma.fst) : handling = .refresh := by
  cases h with
  | noSpace => simp at hmem
  | ended _ hrun => exact absurd hmem hrun.not_handle
  | imported _ hrun =>
    rw [List.map_append, List.mem_append] at hmem
    rcases hmem with hmem | hmem
    · exact absurd hmem hrun.not_handle
    · simpa using hmem

/-- Without a handler of its own an action at most has the list reloaded. -/
theorem eq_refresh_of_perform_unhandled (h : action.handling? r = none)
    (hrun : Yields (Dispatch.perform viewer now action r) log result)
    (hmem : .handle handling ∈ log.map Sigma.fst) : handling = .refresh := by
  cases action with
  | edit =>
    obtain ⟨rfl, -⟩ := yields_edit_missingIds (Option.map_eq_none_iff.1 h) hrun
    cases hmem
  | transferOut =>
    obtain ⟨path, hexport, -⟩ := (Dialogue.yields_bind_pure fun _ => rfl).1 hrun
    rcases yields_exportWorkflow hexport with ⟨-, rfl, -⟩ | ⟨_, _, _, -, -, hsave, -⟩
    · cases hmem
    · exact absurd hmem hsave.not_handle
  | transferIn =>
    obtain ⟨created, -, hinto⟩ := yields_perform_transferIn hrun
    exact hinto.eq_refresh hmem
  | switchToChatflow | switchToWorkflow | publish | copy | delete | custom id => cases h

/-- The handlers that an action reaches: its own, or the one that reloads the list. -/
theorem handling_of_perform (hrun : Yields (Dispatch.perform viewer now action r) log result)
    (hmem : .handle handling ∈ log.map Sigma.fst) :
    action.handling? r = some handling ∨ handling = .refresh := by
  cases hown : action.handling? r with
  | none => exact .inr (eq_refresh_of_perform_unhandled hown hrun hmem)
  | some own =>
    obtain ⟨reply, rfl, -⟩ := yields_perform_handled hown hrun
    obtain rfl : handling = own := by simpa using hmem
    exact .inl rfl

theorem yields_dispatch_calls_iff (h : Yields (dispatch viewer hook now action r) log result) :
    handling.key? = some key ∧ .handle handling ∈ log.map Sigma.fst ↔
      action.key? = some key ∧ action.handling? r = some handling ∧ r.kind = .workflow ∧
        Menu.Granted hook r action key := by
  constructor
  · rintro ⟨hkey, hmem⟩
    cases hoffers : (Menu.build r viewer hook).offers action with
    | false =>
      obtain ⟨rfl, -⟩ := yields_dispatch_refused hoffers h
      cases hmem
    | true =>
      rw [dispatch_eq_perform hoffers] at h
      rcases handling_of_perform h hmem with hown | rfl
      · rw [key?_of_handling? hown] at hkey
        exact ⟨hkey, hown, (Menu.offers_iff_granted hkey).1 hoffers⟩
      · -- on the reloading of the list the backend has no word
        cases hkey
  · rintro ⟨hkey, hown, hgranted⟩
    rw [dispatch_eq_perform ((Menu.offers_iff_granted hkey).2 hgranted)] at h
    obtain ⟨reply, rfl, -⟩ := yields_perform_handled hown h
    exact ⟨(key?_of_handling? hown).trans hkey, List.mem_cons_self⟩

/-- **The backend decides**, whatever the hook adds, except that an entry of the hook for copying
or deleting decides in its place. -/
theorem calls_handler_iff {σ : Type} (viewer : Viewer) (hook : Menu.Hook) (now : Instant)
    (action : Action) (r : Resource) (peer : Peer Call Call.Reply σ) (s : σ) (handling : Handling)
    (key : ActionKey) :
    handling.key? = some key ∧
        .handle handling ∈ ((dispatch viewer hook now action r).transcript peer s).2.1 ↔
      action.key? = some key ∧ action.handling? r = some handling ∧ r.kind = .workflow ∧
        Menu.Granted hook r action key := by
  rw [Dialogue.transcript_calls]
  exact yields_dispatch_calls_iff (Dialogue.yields_transcript peer _ s)

/-- An entry of the hook has a workflow copied of which the backend has not said a word. -/
theorem copies_unasked :
    sampleRow.permissions = [] ∧ ¬ sampleRow.Allows .copy ∧
      ((dispatch ⟨"u1", .standard⟩ (fun _ => [.make .copy "Copy" true true]) ⟨0, 0⟩ .copy
        sampleRow).transcript (obliging none sampleFile) ()).2.1 = [.handle (.copy sampleRow)] := by
  refine ⟨rfl, ?_, by decide⟩
  rintro ⟨p, hp, -⟩
  cases hp

end Workbench
