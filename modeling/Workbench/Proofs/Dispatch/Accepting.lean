import Workbench.Proofs.Dispatch
import Workbench.Proofs.Menu.Shown

/-!
# What is shown is what is accepted

An action is accepted unless it is answered as unavailable; what comes of it then, an error of its
handler included, is another matter.

* `accepted_iff_offers`: an action is accepted exactly if the menu offers it;
* `accepted_iff_shown`: hence, with a hook that adds custom actions under different ids only,
  exactly if the menu shows an entry for it that is visible and enabled.
-/
namespace Workbench

open Dialogue (Yields Peer)

variable {viewer : Viewer} {hook : Menu.Hook} {now : Instant} {action : Action} {r : Resource}
  {log : Log} {result : Except DispatchError Outcome}

/-- The action was not refused as unavailable. -/
def Accepted (result : Except DispatchError Outcome) : Prop :=
  ∀ id, result ≠ .error (.unavailable id)

theorem accepted_ok (outcome : Outcome) : Accepted (.ok outcome) := by
  intro id h
  cases h

theorem accepted_resultOf (action : Action) (reply : Except (List String) Unit) :
    Accepted (action.resultOf reply) := by
  intro id h
  cases reply <;> cases h

theorem accepted_perform (h : Yields (Dispatch.perform viewer now action r) log result) :
    Accepted result := by
  cases hown : action.handling? r with
  | some handling =>
    obtain ⟨reply, -, rfl⟩ := yields_perform_handled hown h
    exact accepted_resultOf action reply
  | none =>
    cases action with
    | edit =>
      obtain ⟨-, rfl⟩ := yields_edit_missingIds (Option.map_eq_none_iff.mp hown) h
      intro id herror
      cases herror
    | transferOut =>
      obtain ⟨path, -, rfl⟩ := (Dialogue.yields_bind_pure fun _ => rfl).mp h
      exact accepted_ok _
    | transferIn =>
      obtain ⟨created, rfl, -⟩ := yields_perform_transferIn h
      exact accepted_ok _
    | switchToChatflow | switchToWorkflow | publish | copy | delete | custom id => cases hown

theorem accepted_iff_offers (h : Yields (dispatch viewer hook now action r) log result) :
    Accepted result ↔ (Menu.build r viewer hook).offers action = true := by
  cases hoffers : (Menu.build r viewer hook).offers action with
  | false =>
    obtain ⟨-, rfl⟩ := yields_dispatch_refused hoffers h
    simp [Accepted]
  | true =>
    rw [dispatch_eq_perform hoffers] at h
    simp [accepted_perform h]

/-- **Menu and dispatcher agree.** With a hook that adds custom actions only, each under an id of
its own, an action is accepted exactly if an entry for it is shown that is visible and enabled, and
no built-in entry is enabled without being visible. -/
theorem accepted_iff_shown {σ : Type} {hook : Menu.Hook} {r : Resource}
    (h : Menu.CustomOnly (hook r)) (viewer : Viewer) (now : Instant) (action : Action)
    (peer : Peer Call Call.Reply σ) (s : σ) :
    (Accepted ((dispatch viewer hook now action r).transcript peer s).1 ↔
      ∃ e ∈ (Menu.build r viewer hook).shown,
        e.action = action ∧ e.visible = true ∧ e.enabled = true) ∧
    ∀ e ∈ (Menu.build r viewer hook).entries, e.action ∈ Action.builtIn →
      e.enabled = true → e.visible = true := by
  constructor
  · rw [accepted_iff_offers (Dialogue.yields_transcript peer _ s),
      Menu.offers_iff_shown (Menu.nodup_actions h)]
  · intro e he hbuiltIn henabled
    exact Menu.visible_of_enabled he (fun hhook => h.not_builtIn hhook hbuiltIn) henabled

/-- One custom entry that is enabled but not visible, and one for opening the row. -/
def pinning : Menu.Hook := fun _ =>
  [⟨.custom "pin", "Pin", true, false⟩, .make (.custom "open") "Open" true true]

theorem accepted_iff_shown_pinning :
    Menu.CustomOnly (pinning sampleRow) ∧
      Accepted ((dispatch ⟨"u1", .standard⟩ pinning ⟨0, 0⟩ (.custom "open") sampleRow).transcript
        (obliging none sampleFile) ()).1 ∧
      ¬Accepted ((dispatch ⟨"u1", .standard⟩ pinning ⟨0, 0⟩ (.custom "pin") sampleRow).transcript
        (obliging none sampleFile) ()).1 := by
  have honly : Menu.CustomOnly (pinning sampleRow) := ⟨by simp [pinning, Entry.make], by decide⟩
  refine ⟨honly, ?_, ?_⟩
  · rw [(accepted_iff_shown honly _ _ _ _ ()).1]
    decide
  · rw [(accepted_iff_shown honly _ _ _ _ ()).1]
    decide

end Workbench
