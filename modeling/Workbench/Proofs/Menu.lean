import Workbench.Menu

/-!
# Who decides on a menu entry

The backend decides on five actions, each under a key of its own (`Action.key?`). In the menu of a
workflow the rows of the hook stand behind the built-in rows but before the control with copying and
deleting, so an entry of the hook for one of these two comes first (`foremost?`).

* `find?_build`: the first entry for an action in the menu of a workflow is one of the built-in
  rows, of the hook or of the control, in this order;
* `offers_iff_granted`: an action with a key is offered exactly if the resource is a workflow and
  the first word of the backend on the key allows it, except that an entry of the hook that comes
  first decides instead;
* `kind_of_offers`: the menu of any other resource offers nothing, whatever the hook adds.
-/
namespace Workbench

/-- The key under which the backend decides on an action. -/
def Action.key? : Action → Option ActionKey
  | .edit => some .edit
  | .switchToChatflow => some .switchToChatflow
  | .switchToWorkflow => some .switchToWorkflow
  | .copy => some .copy
  | .delete => some .delete
  | .transferOut | .transferIn | .publish | .custom _ => none

/-- The first word of the backend on an action allows it. -/
def Resource.Allows (r : Resource) (key : ActionKey) : Prop :=
  ∃ p, r.permissions.find? (·.key == key) = some p ∧ p.enable = true

namespace Entry

theorem isActionable_iff {e : Entry} :
    e.isActionable = true ↔ e.visible = true ∧ e.enabled = true := by
  rw [isActionable, Bool.and_eq_true]

theorem isActionable_make (action : Action) (label : String) (visible enabled : Bool) :
    (make action label visible enabled).isActionable = (visible && enabled) := by
  cases visible <;> rfl

end Entry

namespace Menu

variable {m : Menu} {r : Resource} {viewer : Viewer} {hook : Hook} {action : Action}
  {key : ActionKey} {label : String}

theorem offers_iff :
    m.offers action = true ↔ ∃ e, m.find? action = some e ∧ e.isActionable = true := by
  rw [offers, Option.any_eq_true]

theorem offers_eq_false_iff : m.offers action = false ↔
    ∀ e, m.find? action = some e → e.visible = false ∨ e.enabled = false := by
  rw [← Bool.not_eq_true, offers_iff, not_exists]
  refine forall_congr' fun e => ?_
  rw [not_and, Entry.isActionable, Bool.not_eq_true, Bool.and_eq_false_iff]

/-! ## Entries that the backend decides on -/

@[simp]
theorem gated_action : (gated r key action label).action = action := by
  unfold gated
  split <;> rfl

theorem isActionable_gated : (gated r key action label).isActionable = true ↔ r.Allows key := by
  unfold gated
  split
  · rename_i p hp
    rw [Entry.isActionable_make, Bool.true_and]
    constructor
    · intro h; exact ⟨p, hp, h⟩
    · rintro ⟨q, hq, h⟩
      obtain rfl : p = q := Option.some.inj (hp.symm.trans hq)
      exact h
  · rename_i hnone
    constructor
    · intro h; cases h
    · rintro ⟨q, hq, -⟩; cases hnone.symm.trans hq

/-! ## The menu of a row -/

theorem not_isActionable_concealed : ∀ e ∈ (concealed r).entries, e.isActionable = false := by
  simp [concealed, entries, Entry.hidden, Entry.isActionable_make]

theorem kind_of_offers (h : (build r viewer hook).offers action = true) : r.kind = .workflow := by
  refine Decidable.byContradiction fun hkind => ?_
  obtain ⟨e, hfind, hopen⟩ := offers_iff.1 h
  rw [build, if_neg hkind] at hfind
  rw [not_isActionable_concealed e (List.mem_of_find?_eq_some hfind)] at hopen
  cases hopen

theorem find?_build (h : r.kind = .workflow) : (build r viewer hook).find? action =
    ((builtInRows r viewer).find? (·.action == action)).or
      (((hook r).find? (·.action == action)).or
        ([copyEntry r, deleteEntry r].find? (·.action == action))) := by
  rw [build, if_pos h, find?, entries, List.find?_append, List.find?_append, Option.or_assoc]

/-- The entry of the hook that comes before the built-in one. -/
def foremost? (hook : Hook) (r : Resource) (action : Action) : Option Entry :=
  if action = .copy ∨ action = .delete then (hook r).find? (·.action == action) else none

/-- The entry of the hook that comes first lets an action be chosen or, without one, the backend
allows it. -/
def Granted (hook : Hook) (r : Resource) (action : Action) (key : ActionKey) : Prop :=
  match foremost? hook r action with
  | some e => e.isActionable = true
  | none => r.Allows key

/-- A built-in row comes before all that the hook adds. -/
theorem find?_build_row {e : Entry} (h : r.kind = .workflow)
    (hrow : (builtInRows r viewer).find? (·.action == action) = some e) :
    (build r viewer hook).find? action = some e := by
  rw [find?_build h, hrow, Option.some_or]

/-- An entry of the control comes after all that the hook adds. -/
theorem find?_build_control {e : Entry} (h : r.kind = .workflow)
    (hrows : (builtInRows r viewer).find? (·.action == action) = none)
    (hcontrol : [copyEntry r, deleteEntry r].find? (·.action == action) = some e) :
    (build r viewer hook).find? action =
      some (((hook r).find? (·.action == action)).getD e) := by
  rw [find?_build h, hrows, hcontrol, Option.none_or]
  cases (hook r).find? (·.action == action) <;> rfl

theorem find?_build_copy (h : r.kind = .workflow) : (build r viewer hook).find? .copy =
    some ((foremost? hook r .copy).getD (copyEntry r)) :=
  find?_build_control h (by simp [builtInRows, Entry.make]) (by simp [copyEntry])

theorem find?_build_delete (h : r.kind = .workflow) : (build r viewer hook).find? .delete =
    some ((foremost? hook r .delete).getD (deleteEntry r)) :=
  find?_build_control h (by simp [builtInRows, Entry.make]) (by simp [copyEntry, deleteEntry])

/-- The first entry for an action with a key is the built-in one, unless the hook's comes first. -/
theorem exists_find?_build (h : r.kind = .workflow) (hkey : action.key? = some key) :
    ∃ label, (build r viewer hook).find? action =
      some ((foremost? hook r action).getD (gated r key action label)) := by
  cases action with
  | edit =>
    obtain rfl := Option.some.inj hkey
    exact ⟨"Edit", find?_build_row h (by simp [builtInRows, foremost?])⟩
  | switchToChatflow =>
    obtain rfl := Option.some.inj hkey
    exact ⟨"Switch to chatflow", find?_build_row h (by simp [builtInRows, foremost?])⟩
  | switchToWorkflow =>
    obtain rfl := Option.some.inj hkey
    exact ⟨"Switch to workflow", find?_build_row h (by simp [builtInRows, foremost?])⟩
  | copy =>
    obtain rfl := Option.some.inj hkey
    exact ⟨"Copy", find?_build_copy h⟩
  | delete =>
    obtain rfl := Option.some.inj hkey
    exact ⟨"Delete", find?_build_delete h⟩
  | transferOut | transferIn | publish | custom id => cases hkey

theorem offers_iff_granted (hkey : action.key? = some key) :
    (build r viewer hook).offers action = true ↔
      r.kind = .workflow ∧ Granted hook r action key := by
  have hfirst (h : r.kind = .workflow) :
      (build r viewer hook).offers action = true ↔ Granted hook r action key := by
    obtain ⟨label, hfind⟩ : ∃ label, (build r viewer hook).find? action =
        some ((foremost? hook r action).getD (gated r key action label)) :=
      exists_find?_build h hkey
    rw [offers, hfind, Option.any_some, Granted]
    cases foremost? hook r action with
    | some e => exact .rfl
    | none => exact isActionable_gated
  constructor
  · intro h
    exact ⟨kind_of_offers h, (hfirst (kind_of_offers h)).1 h⟩
  · rintro ⟨hkind, hgranted⟩
    exact (hfirst hkind).2 hgranted

end Menu
end Workbench
