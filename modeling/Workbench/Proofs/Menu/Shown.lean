import Mathlib.Data.List.Nodup
import Workbench.Proofs.Menu

/-!
# What a menu shows

A menu is drawn from its visible rows and the control beside them (`shown`), but an action is looked
up among all entries, of which the first one counts. The two come apart only where several entries
are for one action.

* `offers_iff_shown`: if no action has two entries, an action is offered exactly if an entry for it
  is shown that is visible and enabled;
* `nodup_actions`: no action has two entries if the hook adds custom actions only, each under an id
  of its own (`CustomOnly`);
* `visible_of_enabled`: no built-in entry is enabled without being visible, whatever the hook adds.
-/
namespace Workbench.Menu

/-- The entries that are drawn: the visible rows, and the control. -/
def shown (m : Menu) : List Entry := m.visibleRows ++ [m.control.copy, m.control.delete]

/-- The entries are for custom actions, each under an id of its own. -/
structure CustomOnly (es : List Entry) : Prop where
  custom : ∀ e ∈ es, ∃ id, e.action = .custom id
  distinct : (es.map (·.action.id)).Nodup

variable {m : Menu} {r : Resource} {viewer : Viewer} {hook : Hook} {action : Action} {e : Entry}
  {key : ActionKey} {label : String} {es : List Entry}

/-! ## Looking up and showing -/

theorem mem_shown_iff : e ∈ m.shown ↔
    (e ∈ m.rows ∧ e.visible = true) ∨ e = m.control.copy ∨ e = m.control.delete := by
  simp [shown, visibleRows]

theorem mem_entries_iff : e ∈ m.entries ↔
    e ∈ m.rows ∨ e = m.control.copy ∨ e = m.control.delete := by
  simp [entries]

/-- Nothing that is visible is left out. -/
theorem mem_shown_of_visible (h : e.visible = true) : e ∈ m.shown ↔ e ∈ m.entries := by
  rw [mem_shown_iff, mem_entries_iff, h]
  simp

theorem find?_of_nodup (hnd : (es.map (·.action)).Nodup) (he : e ∈ es) :
    es.find? (·.action == e.action) = some e := by
  induction es with
  | nil => cases he
  | cons first rest ih =>
    rw [List.map_cons, List.nodup_cons] at hnd
    rcases List.mem_cons.mp he with rfl | he
    · simp
    · have hne : first.action ≠ e.action := fun hsame =>
        hnd.1 (hsame ▸ List.mem_map_of_mem he)
      simp [hne, ih hnd.2 he]

theorem offers_iff_shown (hnd : (m.entries.map (·.action)).Nodup) :
    m.offers action = true ↔
      ∃ e ∈ m.shown, e.action = action ∧ e.visible = true ∧ e.enabled = true := by
  rw [offers_iff]
  constructor
  · rintro ⟨e, hfind, hopen⟩
    obtain ⟨hvisible, henabled⟩ := Entry.isActionable_iff.mp hopen
    have haction : e.action = action := by simpa using List.find?_some hfind
    have hmem : e ∈ m.entries := List.mem_of_find?_eq_some hfind
    exact ⟨e, (mem_shown_of_visible hvisible).mpr hmem, haction, hvisible, henabled⟩
  · rintro ⟨e, hshown, rfl, hvisible, henabled⟩
    have hmem : e ∈ m.entries := (mem_shown_of_visible hvisible).mp hshown
    exact ⟨e, find?_of_nodup hnd hmem, Entry.isActionable_iff.mpr ⟨hvisible, henabled⟩⟩

/-! ## One entry for each action -/

theorem CustomOnly.nodup (h : CustomOnly es) : (es.map (·.action)).Nodup := by
  have hids : ((es.map (·.action)).map Action.id).Nodup := by
    rw [List.map_map]
    exact h.distinct
  exact List.Nodup.of_map Action.id hids

theorem CustomOnly.not_builtIn (h : CustomOnly es) (he : e ∈ es) : e.action ∉ Action.builtIn := by
  obtain ⟨id, hid⟩ := h.custom e he
  rw [hid]
  simp [Action.builtIn]

theorem actions_concealed : (concealed r).entries.map (·.action) = Action.builtIn := rfl

/-- The actions of a menu are the built-in ones and those of the hook. -/
theorem actions_build (hkind : r.kind = .workflow) :
    ((build r viewer hook).entries.map (·.action)).Perm
      (Action.builtIn ++ (hook r).map (·.action)) := by
  -- the control stands behind the rows of the hook
  have hactions : (build r viewer hook).entries.map (·.action) =
      [.edit, .switchToChatflow, .switchToWorkflow, .transferOut, .transferIn, .publish] ++
        (hook r).map (·.action) ++ [.copy, .delete] := by
    rw [build, if_pos hkind]
    simp [entries, builtInRows, copyEntry, deleteEntry, Entry.make]
  have hcontrol : ((hook r).map Entry.action ++ [Action.copy, Action.delete]).Perm
      ([Action.copy, Action.delete] ++ (hook r).map Entry.action) := List.perm_append_comm
  rw [hactions, List.append_assoc]
  exact hcontrol.append_left _

theorem nodup_actions (h : CustomOnly (hook r)) :
    ((build r viewer hook).entries.map (·.action)).Nodup := by
  have hbuiltIn : Action.builtIn.Nodup := by decide
  by_cases hkind : r.kind = .workflow
  · rw [(actions_build hkind).nodup_iff]
    refine hbuiltIn.append h.nodup fun action hbuiltIn hmem => ?_
    obtain ⟨e, he, rfl⟩ := List.mem_map.mp hmem
    exact h.not_builtIn he hbuiltIn
  · rw [build, if_neg hkind, actions_concealed]
    exact hbuiltIn

/-! ## Enabled and visible -/

theorem visible_of_enabled_make {visible enabled : Bool}
    (h : (Entry.make action label visible enabled).enabled = true) :
    (Entry.make action label visible enabled).visible = true := by
  simp only [Entry.make, Bool.and_eq_true] at h
  exact h.1

theorem visible_of_enabled_gated (h : (gated r key action label).enabled = true) :
    (gated r key action label).visible = true := by
  unfold gated at h ⊢
  split at h
  · exact visible_of_enabled_make h
  · exact visible_of_enabled_make h

theorem visible_of_enabled_builtInRows (he : e ∈ builtInRows r viewer) (h : e.enabled = true) :
    e.visible = true := by
  simp only [builtInRows, List.mem_cons, List.not_mem_nil, or_false] at he
  rcases he with rfl | rfl | rfl | rfl | rfl | rfl
  · exact visible_of_enabled_gated h
  · exact visible_of_enabled_gated h
  · exact visible_of_enabled_gated h
  · exact visible_of_enabled_make h
  · exact visible_of_enabled_make h
  · exact visible_of_enabled_make h

theorem not_enabled_concealed : ∀ e ∈ (concealed r).entries, e.enabled = false := by
  simp [concealed, entries, Entry.hidden, Entry.make]

/-- An entry that is not the hook's is visible when it is enabled. -/
theorem visible_of_enabled (he : e ∈ (build r viewer hook).entries) (hown : e ∉ hook r)
    (h : e.enabled = true) : e.visible = true := by
  by_cases hkind : r.kind = .workflow
  · rw [build, if_pos hkind, mem_entries_iff, List.mem_append] at he
    rcases he with (hrow | hhook) | rfl | rfl
    · exact visible_of_enabled_builtInRows hrow h
    · exact absurd hhook hown
    · exact visible_of_enabled_gated h
    · exact visible_of_enabled_gated h
  · rw [build, if_neg hkind] at he
    rw [not_enabled_concealed e he] at h
    cases h

end Workbench.Menu
