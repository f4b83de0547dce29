import Workbench.Proofs.Dispatch

/-!
# Who may publish

Publishing is for the creator of a workflow that the store knows, where the front end has it
switched on; for image workflows the front end has a switch of its own (`MayPublish`). The backend's
permissions have no part in this, and neither has the hook: its rows stand behind the built-in row,
so whatever they say of publishing is never looked at.

* `find?_build_publish`: the first entry for publishing is the built-in one;
* `offers_publish_iff`: hence publishing is offered exactly to those who may;
* `publishes_iff`: hence the handler for publishing is called exactly if it is asked for by one of
  them, and then with this row and once.
-/
namespace Workbench

open Dialogue (Yields Peer)

/-- The viewer may publish the row. -/
structure MayPublish (r : Resource) (viewer : Viewer) : Prop where
  isWorkflow : r.kind = .workflow
  switchedOn : viewer.flags.publish = true
  imagesToo : r.mode = .imageflow → viewer.flags.imageflowPublish = true
  isCreator : r.creatorId = some viewer.userId
  isProduct : (Extension.parse r.extension).pluginId ≠ 0

variable {viewer : Viewer} {hook : Menu.Hook} {now : Instant} {action : Action} {r : Resource}
  {log : Log} {result : Except DispatchError Outcome}

theorem publishVisible_iff : Menu.publishVisible r viewer = true ↔
    viewer.flags.publish = true ∧ (r.mode = .imageflow → viewer.flags.imageflowPublish = true) ∧
      r.creatorId = some viewer.userId ∧ (Extension.parse r.extension).pluginId ≠ 0 := by
  simp only [Menu.publishVisible, Resource.isCreatedBy, Resource.storeExtension, Bool.and_eq_true,
    Bool.or_eq_true, bne_iff_ne, beq_iff_eq, and_assoc, ne_eq, Decidable.imp_iff_not_or]

theorem find?_build_publish (h : r.kind = .workflow) :
    (Menu.build r viewer hook).find? .publish =
      some (.make .publish (Menu.publishLabel r) (Menu.publishVisible r viewer) true) :=
  Menu.find?_build_row h (by simp [Menu.builtInRows, Entry.make])

theorem offers_publish_iff :
    (Menu.build r viewer hook).offers .publish = true ↔ MayPublish r viewer := by
  have hfirst (h : r.kind = .workflow) : (Menu.build r viewer hook).offers .publish =
      Menu.publishVisible r viewer := by
    rw [Menu.offers, find?_build_publish h, Option.any_some, Entry.isActionable_make,
      Bool.and_true]
  constructor
  · intro hoffers
    have hkind : r.kind = .workflow := Menu.kind_of_offers hoffers
    rw [hfirst hkind, publishVisible_iff] at hoffers
    obtain ⟨hflag, himages, hcreator, hproduct⟩ := hoffers
    exact ⟨hkind, hflag, himages, hcreator, hproduct⟩
  · rintro ⟨hkind, hflag, himages, hcreator, hproduct⟩
    rw [hfirst hkind, publishVisible_iff]
    exact ⟨hflag, himages, hcreator, hproduct⟩

theorem dispatch_publish (h : MayPublish r viewer) :
    dispatch viewer hook now .publish r = Dispatch.delegate .publish (.publish r) :=
  dispatch_eq_perform (offers_publish_iff.mpr h)

theorem dispatch_publish_refused (h : ¬MayPublish r viewer) :
    dispatch viewer hook now .publish r = pure (.error (.unavailable Action.publish.id)) :=
  if_neg fun hoffers => h (offers_publish_iff.mp hoffers)

/-- Only publishing itself reaches its handler. -/
theorem action_of_handling_publish {r' : Resource}
    (h : action.handling? r = some (.publish r')) : action = .publish ∧ r' = r := by
  cases action with
  | edit =>
    obtain ⟨target, -, htarget⟩ := Option.map_eq_some_iff.mp h
    cases htarget
  | publish =>
    cases h
    exact ⟨rfl, rfl⟩
  | switchToChatflow | switchToWorkflow | transferOut | transferIn | copy | delete | custom id =>
    cases h

theorem yields_dispatch_publishes (h : Yields (dispatch viewer hook now action r) log result)
    {r' : Resource} (hmem : .handle (.publish r') ∈ log.map Sigma.fst) :
    action = .publish ∧ MayPublish r viewer ∧ log.map Sigma.fst = [.handle (.publish r)] := by
  cases hoffers : (Menu.build r viewer hook).offers action with
  | false =>
    obtain ⟨rfl, -⟩ := yields_dispatch_refused hoffers h
    cases hmem
  | true =>
    rw [dispatch_eq_perform hoffers] at h
    rcases handling_of_perform h hmem with hown | hrefresh
    · obtain ⟨rfl, rfl⟩ := action_of_handling_publish hown
      obtain ⟨reply, rfl, -⟩ := yields_perform_handled hown h
      exact ⟨rfl, offers_publish_iff.mp hoffers, rfl⟩
    · cases hrefresh

/-- **Only those who may publish do.** The handler for publishing is called exactly if publishing is
asked for by a viewer who may, whatever the hook adds, and then once and for this row. -/
theorem publishes_iff {σ : Type} (viewer : Viewer) (hook : Menu.Hook) (now : Instant)
    (action : Action) (r : Resource) (peer : Peer Call Call.Reply σ) (s : σ) :
    ((∃ r', .handle (.publish r') ∈
          ((dispatch viewer hook now action r).transcript peer s).2.1) ↔
        action = .publish ∧ MayPublish r viewer) ∧
      (action = .publish → MayPublish r viewer →
        ((dispatch viewer hook now action r).transcript peer s).2.1 = [.handle (.publish r)]) ∧
      ∀ hook', dispatch viewer hook' now .publish r = dispatch viewer hook now .publish r := by
  have honce (haction : action = .publish) (hmay : MayPublish r viewer) :
      ((dispatch viewer hook now action r).transcript peer s).2.1 = [.handle (.publish r)] := by
    rw [haction, dispatch_publish hmay, Dialogue.transcript_calls]
    obtain ⟨reply, hlog, -⟩ := yields_delegate (Dialogue.yields_transcript peer
      (Dispatch.delegate .publish (.publish r)) s)
    rw [hlog]
    rfl
  refine ⟨⟨?_, ?_⟩, honce, fun hook' => ?_⟩
  · rintro ⟨r', hmem⟩
    rw [Dialogue.transcript_calls] at hmem
    obtain ⟨haction, hmay, -⟩ :=
      yields_dispatch_publishes (Dialogue.yields_transcript peer _ s) hmem
    exact ⟨haction, hmay⟩
  · rintro ⟨haction, hmay⟩
    rw [honce haction hmay]
    exact ⟨r, List.mem_cons_self⟩
  · by_cases hmay : MayPublish r viewer
    · rw [dispatch_publish hmay, dispatch_publish hmay]
    · rw [dispatch_publish_refused hmay, dispatch_publish_refused hmay]

/-- A row that its creator may publish. -/
def publishableRow : Resource :=
  { sampleRow with creatorId := some "u1", extension := some "\x7b\"plugin_id\":\" 88\"\x7d" }

/-- A hook that hides publishing is not listened to. -/
theorem publishes_iff_hiding :
    MayPublish publishableRow ⟨"u1", { Flags.standard with publish := true }⟩ ∧
      ((dispatch ⟨"u1", { Flags.standard with publish := true }⟩
        (fun _ => [.hidden .publish "Publish"]) ⟨0, 0⟩ .publish publishableRow).transcript
          (obliging none sampleFile) ()).2.1 = [.handle (.publish publishableRow)] := by
  have hproduct : (Extension.parse publishableRow.extension).pluginId ≠ 0 := by decide +kernel
  have hmay : MayPublish publishableRow ⟨"u1", { Flags.standard with publish := true }⟩ :=
    ⟨rfl, rfl, by decide, rfl, hproduct⟩
  exact ⟨hmay, (publishes_iff _ _ _ _ _ _ ()).2.1 rfl hmay⟩

end Workbench
