import Workbench.Proofs.ImportDialog
import Workbench.Proofs.Transfer.Run

/-!
# The choice in the import dialog

Ids get into the choice one by one or all at once, and the list that they come from may hold one id
several times, if a scanner reported it so. Choosing all then chooses it as often, and switching it
off takes out one of its entries only.

What is handed over in the end does not depend on any of this: whoever commits gives away the part
of the list whose ids are chosen, however often and in whatever order that happened.

* `toggle_tells_once`: an id is chosen at most as often as it is listed, and a toggle reports truly
  what it did unless the id was chosen several times;
* `commit_by_choice`: a commit hands over the chosen part of the list, or fails if there is none.
-/
namespace Workbench.ImportDialog

variable {d d' : ImportDialog}

/-! ## Switching -/

/-- An id that is there once is taken out; in any other case it is there afterwards. -/
theorem mem_toggleId_self {id : String} {ids : List String} :
    id ∈ toggleId id ids ↔ ids.count id ≠ 1 := by
  rw [← List.count_pos_iff, Page.count_toggleId, if_pos rfl]
  split <;> omega

theorem toggle_eq_ok {id : String} {chosen : Bool} (h : (d.toggle id).2 = .ok chosen) :
    (d.toggle id).1.selected = toggleId id d.selected ∧ chosen = !d.selected.contains id := by
  unfold toggle at h ⊢
  split at h
  · rename_i hid
    rw [if_pos hid]
    exact ⟨rfl, (Except.ok.inj h).symm⟩
  · cases h

/-- No id is chosen more often than it is listed. -/
def Listed (d : ImportDialog) : Prop :=
  ∀ id, d.selected.count id ≤ (d.scanned.map (·.id)).count id

theorem listed_change (h : d.Listed) (hc : Change d d') : d'.Listed := by
  intro id
  cases hc with
  | scanned => simp
  | read => simp
  | @toggled app happ =>
    -- the id that is switched stands in the list, so it may be chosen at least once
    have hlisted : 0 < (d.scanned.map (·.id)).count app.id :=
      List.count_pos_iff.2 (List.mem_map_of_mem happ)
    have hid := h id
    change (toggleId app.id d.selected).count id ≤ (d.scanned.map (·.id)).count id
    rw [Page.count_toggleId]
    split
    · rename_i heq
      subst heq
      split <;> omega
    · exact hid
  | selectedAll => exact le_rfl
  | cleared => exact Nat.zero_le _
  | committed => exact le_rfl
  | refused => exact h id

theorem Reachable.listed (h : d.Reachable) : d.Listed := h.keeps listed_change fun _ => le_rfl

/-- A choice that is a set, on which a toggle reports what it did. -/
structure Truthful (d : ImportDialog) : Prop where
  selected_nodup : d.selected.Nodup
  toggle_tells : ∀ ⦃id chosen⦄, (d.toggle id).2 = .ok chosen →
    (id ∈ (d.toggle id).1.selected ↔ chosen = true)

/-- When the choice of a dialog is to be trusted. -/
structure Trust (d : ImportDialog) : Prop where
  listed : d.Listed
  tells_iff : ∀ ⦃id chosen⦄, (d.toggle id).2 = .ok chosen →
    ((id ∈ (d.toggle id).1.selected ↔ chosen = true) ↔ d.selected.count id ≤ 1)
  truthful : (d.scanned.map (·.id)).Nodup → d.Truthful
  truthful_of_read : d.IsRead → d.Truthful

theorem toggle_tells_iff {id : String} {chosen : Bool} (h : (d.toggle id).2 = .ok chosen) :
    (id ∈ (d.toggle id).1.selected ↔ chosen = true) ↔ d.selected.count id ≤ 1 := by
  obtain ⟨hselected, rfl⟩ := toggle_eq_ok h
  have hchosen : (!d.selected.contains id) = true ↔ d.selected.count id = 0 := by
    simp [List.count_eq_zero]
  rw [hselected, mem_toggleId_self, hchosen]
  omega

theorem Listed.truthful (h : d.Listed) (hids : (d.scanned.map (·.id)).Nodup) : d.Truthful where
  selected_nodup := List.nodup_iff_count_le_one.2 fun id =>
    (h id).trans (List.nodup_iff_count_le_one.1 hids id)
  toggle_tells id _ hok :=
    (toggle_tells_iff hok).2 ((h id).trans (List.nodup_iff_count_le_one.1 hids id))

/-- **A toggle tells the truth about what is chosen once.** In any dialog that a session can leave
behind, whatever the scanners reported in it. -/
theorem toggle_tells_once (h : d.Reachable) : d.Trust where
  listed := h.listed
  tells_iff _ _ := toggle_tells_iff
  truthful := h.listed.truthful
  truthful_of_read hread := h.listed.truthful (h.sound.normal_of_read hread).ids_nodup

/-! ## Three apps from a text -/

def pasted : String := "[\x7b\"id\": \"a\"\x7d, \x7b\"id\": \"b\"\x7d, \x7b\"id\": \"c\"\x7d]"

def pastedApps : List App :=
  [⟨"a", "a", "", .chat, none⟩, ⟨"b", "b", "", .chat, none⟩, ⟨"c", "c", "", .chat, none⟩]

/-- The pasted apps after the last and then the first of them have been switched on. -/
def switchedOn : ImportDialog := ⟨pastedApps, ["c", "a"], some .text⟩

/-- The pasted apps after all of them have been chosen and the second has been switched off. -/
def switchedOff : ImportDialog := ⟨pastedApps, ["a", "c"], some .text⟩

theorem reachable_switchedOn : switchedOn.Reachable :=
  ⟨Unit, obliging none ⟨"", []⟩, (), [.loadText pasted, .toggle "c", .toggle "a"],
    by decide +kernel⟩

theorem reachable_switchedOff : switchedOff.Reachable :=
  ⟨Unit, obliging none ⟨"", []⟩, (), [.loadText pasted, .selectAll, .toggle "b"],
    by decide +kernel⟩

theorem toggle_tells_once_pasted :
    switchedOn.Reachable ∧ switchedOn.IsRead ∧ switchedOn.Truthful ∧ switchedOn.Listed :=
  ⟨reachable_switchedOn, .inr rfl,
    (toggle_tells_once reachable_switchedOn).truthful_of_read (.inr rfl),
    (toggle_tells_once reachable_switchedOn).listed⟩

/-! ## Two apps of one id from a scanner -/

def twins : List App := [⟨"app-1", "One", "", .chat, none⟩, ⟨"app-1", "Two", "", .chat, none⟩]

/-- The twins after both have been chosen. -/
def bothChosen : ImportDialog := ⟨twins, ["app-1", "app-1"], some .url⟩

/-- The choice holds the id twice, and a toggle that says it is not chosen any more leaves it in. -/
theorem toggle_of_twins_untrue :
    bothChosen.Reachable ∧ ¬ bothChosen.selected.Nodup ∧
      (bothChosen.toggle "app-1").2 = .ok false ∧
      "app-1" ∈ (bothChosen.toggle "app-1").1.selected :=
  ⟨⟨Unit, obliging none ⟨"", []⟩, (),
      [.scanUrl (.fixed twins) ⟨"http://dify.test", "key"⟩, .selectAll], by decide +kernel⟩,
    by decide, rfl, by decide⟩

/-! ## Committing -/

/-- The dialog turns a commit down: nobody is given anything, and the dialog stays as it is. -/
def Refuses (d : ImportDialog) : Prop :=
  ∀ receive, d.commitTo receive = pure (d, .error .emptySelection)

/-- A commit gives `apps` away, once and to whoever receives them, and leaves an empty dialog. -/
def HandsOver (d : ImportDialog) (apps : List App) : Prop :=
  ∀ receive, d.commitTo receive = do
    receive apps
    return (empty, .ok apps.length)

/-- Two dialogs with the same list in which the same ids are chosen. -/
structure SameChoice (d d' : ImportDialog) : Prop where
  scanned_eq : d'.scanned = d.scanned
  mem_selected_iff : ∀ id, id ∈ d'.selected ↔ id ∈ d.selected

theorem refuses_of_chosen_nil (h : d.chosen = []) : d.Refuses := by
  intro receive
  simp [commitTo, commit, h]

theorem handsOver_of_chosen_ne_nil (h : d.chosen ≠ []) : d.HandsOver d.chosen := by
  intro receive
  simp [commitTo, commit, h]

theorem not_handsOver_of_refuses (h : d.Refuses) (apps : List App) : ¬ d.HandsOver apps := by
  intro happs
  have heq := (h fun _ => pure ()).symm.trans (happs fun _ => pure ())
  cases heq

/-- What is handed over is the chosen part of the list and nothing else: a receiver that calls for
help at any other list would notice. -/
theorem handsOver_iff {apps : List App} :
    d.HandsOver apps ↔ d.chosen ≠ [] ∧ apps = d.chosen := by
  constructor
  · intro h
    have hne : d.chosen ≠ [] := fun hnil =>
      not_handsOver_of_refuses (refuses_of_chosen_nil hnil) apps h
    refine ⟨hne, ?_⟩
    by_contra happs
    let watch : List App → Talk Unit := fun list =>
      if list = d.chosen then pure () else Talk.alert .error "unexpected list"
    have heq := (handsOver_of_chosen_ne_nil hne watch).symm.trans (h watch)
    simp only [watch, if_pos, if_neg happs] at heq
    cases heq
  · rintro ⟨hne, rfl⟩
    exact handsOver_of_chosen_ne_nil hne

theorem refuses_iff : d.Refuses ↔ d.chosen = [] := by
  refine ⟨fun h => ?_, refuses_of_chosen_nil⟩
  by_contra hne
  exact not_handsOver_of_refuses h _ (handsOver_of_chosen_ne_nil hne)

theorem chosen_eq : d.chosen = d.scanned.filter fun app => app.id ∈ d.selected := by
  simp [chosen]

/-- The test for an empty choice is made on the chosen part of the list. On a sound dialog this is
a test of the choice itself, since every chosen id is the id of a listed app. -/
theorem Sound.chosen_eq_nil_iff (h : Sound d) : d.chosen = [] ↔ d.selected = [] := by
  rw [chosen_eq, List.filter_eq_nil_iff]
  constructor
  · intro hnone
    refine List.eq_nil_iff_forall_not_mem.2 fun id hid => ?_
    obtain ⟨app, happ, rfl⟩ := h.selected_scanned id hid
    exact hnone app happ (decide_eq_true hid)
  · intro hnil
    simp [hnil]

theorem SameChoice.chosen_eq (h : SameChoice d d') : d'.chosen = d.chosen := by
  simp only [ImportDialog.chosen_eq, h.scanned_eq, h.mem_selected_iff]

theorem chosen_selectAll (d : ImportDialog) : d.selectAll.chosen = d.scanned := by
  rw [chosen_eq]
  refine List.filter_eq_self.2 fun app happ => decide_eq_true ?_
  exact List.mem_map_of_mem happ

/-- What a commit does with the dialog. -/
structure CommitsChoice (d : ImportDialog) : Prop where
  refuses_iff : d.Refuses ↔ d.selected = []
  handsOver : d.selected ≠ [] → d.HandsOver (d.scanned.filter fun app => app.id ∈ d.selected)
  handsOver_iff : ∀ ⦃d'⦄, SameChoice d d' → ∀ apps, d'.HandsOver apps ↔ d.HandsOver apps
  handsOver_all : d.scanned ≠ [] → d.selectAll.HandsOver d.scanned

/-- **A commit hands over the choice.** In any dialog that a session can leave behind, a commit
fails exactly if nothing is chosen, and gives away the chosen part of the list otherwise. How the
choice came about does not matter. -/
theorem commit_by_choice (h : d.Reachable) : d.CommitsChoice where
  refuses_iff := by
    rw [ImportDialog.refuses_iff, h.sound.chosen_eq_nil_iff]
  handsOver hne := by
    rw [← chosen_eq]
    exact handsOver_of_chosen_ne_nil (mt h.sound.chosen_eq_nil_iff.1 hne)
  handsOver_iff _ hsame apps := by
    rw [ImportDialog.handsOver_iff, ImportDialog.handsOver_iff, hsame.chosen_eq]
  handsOver_all hne := by
    rw [ImportDialog.handsOver_iff, chosen_selectAll]
    exact ⟨hne, rfl⟩

/-- The choice of both ways is the same, and so is what a commit hands over. -/
theorem commit_by_choice_either_way :
    switchedOn.Reachable ∧ switchedOff.Reachable ∧ SameChoice switchedOn switchedOff ∧
      switchedOn.CommitsChoice ∧
      switchedOff.HandsOver [⟨"a", "a", "", .chat, none⟩, ⟨"c", "c", "", .chat, none⟩] := by
  have hsame : SameChoice switchedOn switchedOff :=
    ⟨rfl, by simp [switchedOn, switchedOff, or_comm]⟩
  have hcommit := commit_by_choice reachable_switchedOn
  exact ⟨reachable_switchedOn, reachable_switchedOff, hsame, hcommit,
    (hcommit.handsOver_iff hsame _).2 (hcommit.handsOver (by decide))⟩

end Workbench.ImportDialog
