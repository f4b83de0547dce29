import Mathlib.Data.List.Nodup
import Workbench.Proofs.Page.Session

/-!
# The choice on the page

`Consistent` is the invariant of the page: the chosen ids are distinct ids of apps that were found,
and the state of the page says truly whether there is anything to choose from or anything
registered. A choice is pruned whenever the apps are replaced, which is what keeps it among them.

* `consistent_change`: every change keeps the page consistent;
* `ids_selectedApps`: on a consistent page no chosen id gets lost on the way to its app;
* `consistent_session`: the page is consistent after any session.
-/
namespace Workbench.Page

open Dialogue (Peer)

structure Consistent (p : Page) : Prop where
  selected_nodup : p.selected.Nodup
  selected_scanned : ∀ id ∈ p.selected, ∃ app ∈ p.scanned, app.id = id
  not_scanning : p.state ≠ .scanning
  not_registering : p.state ≠ .registering
  of_idle : p.state = .idle → p.scanned = []
  of_scanned : p.state = .scanned → p.scanned ≠ []
  of_registered : p.state = .registered → p.imported ≠ []

theorem consistent_start (c : Connection) : Consistent (start c) where
  selected_nodup := List.nodup_nil
  selected_scanned := by simp [start]
  not_scanning := by simp [start]
  not_registering := by simp [start]
  of_idle := fun _ => rfl
  of_scanned := by simp [start]
  of_registered := by simp [start]

/-! ## Choosing -/

/-- Switching an id takes one of its entries out, or puts one in if there is none. -/
theorem count_toggleId {id x : String} {ids : List String} :
    (toggleId id ids).count x =
      if x = id then (if ids.count id = 0 then 1 else ids.count id - 1) else ids.count x := by
  unfold toggleId
  split
  · rename_i hid
    have hcount : 0 < ids.count id := List.count_pos_iff.2 (List.contains_iff_mem.1 hid)
    by_cases hx : x = id
    · rw [if_pos hx, if_neg (Nat.ne_of_gt hcount), hx, List.count_erase_self]
    · rw [if_neg hx, List.count_erase_of_ne hx]
  · rename_i hid
    have hcount : ids.count id = 0 :=
      List.count_eq_zero.2 fun hmem => hid (List.contains_iff_mem.2 hmem)
    rw [List.count_append]
    by_cases hx : x = id
    · rw [if_pos hx, if_pos hcount, hx, hcount, List.count_singleton_self]
    · rw [if_neg hx, List.count_singleton, if_neg (by simpa using Ne.symm hx), Nat.add_zero]

theorem nodup_toggleId {id : String} {ids : List String} (h : ids.Nodup) :
    (toggleId id ids).Nodup := by
  rw [List.nodup_iff_count_le_one] at h ⊢
  intro x
  rw [count_toggleId]
  split
  · have hid := h id
    split <;> omega
  · exact h x

theorem mem_of_mem_toggleId {id x : String} {ids : List String} (h : x ∈ toggleId id ids) :
    x ∈ ids ∨ x = id := by
  rw [← List.count_pos_iff, count_toggleId] at h
  split at h
  · rename_i hx
    exact .inr hx
  · exact .inl (List.count_pos_iff.1 h)

theorem exists_find?_of_mem {scanned : List App} {id : String}
    (h : ∃ app ∈ scanned, app.id = id) : ∃ app, scanned.find? (·.id == id) = some app := by
  obtain ⟨app, happ, hid⟩ := h
  rw [← Option.isSome_iff_exists, List.find?_isSome]
  exact ⟨app, happ, beq_iff_eq.2 hid⟩

/-- Each id finds its app, and the app that it finds has this id. -/
theorem ids_filterMap_find {scanned : List App} {ids : List String}
    (h : ∀ id ∈ ids, ∃ app ∈ scanned, app.id = id) :
    (ids.filterMap fun id => scanned.find? (·.id == id)).map (·.id) = ids := by
  induction ids with
  | nil => rfl
  | cons id ids ih =>
    obtain ⟨found, hfound⟩ := exists_find?_of_mem (h id List.mem_cons_self)
    have hfid : found.id = id := by simpa using List.find?_some hfound
    rw [List.filterMap_cons, hfound, List.map_cons, hfid,
      ih fun x hx => h x (List.mem_cons_of_mem _ hx)]

theorem ids_selectedApps {p : Page} (h : Consistent p) : p.selectedApps.map (·.id) = p.selected :=
  ids_filterMap_find h.selected_scanned

theorem scanned_ne_nil {p : Page} (h : p.selectedApps ≠ []) : p.scanned ≠ [] := by
  intro hs
  apply h
  simp [selectedApps, hs]

/-! ## Changes -/

theorem stateAfterScan_cases (p : Page) (apps : List App) :
    (apps = [] ∧ p.state = .registered ∧ p.stateAfterScan apps = .registered) ∨
      (apps = [] ∧ p.stateAfterScan apps = .idle) ∨
      (apps ≠ [] ∧ p.stateAfterScan apps = .scanned) := by
  unfold stateAfterScan
  cases apps with
  | nil => by_cases h : p.state = .registered <;> simp [h]
  | cons app apps => simp

theorem consistent_withScanned {p : Page} (h : Consistent p) (apps : List App) :
    Consistent (p.withScanned apps) := by
  have hsel : ∀ id ∈ (p.withScanned apps).selected, ∃ app ∈ apps, app.id = id := by
    intro id hid
    obtain ⟨-, hany⟩ := List.mem_filter.1 hid
    obtain ⟨app, happ, heq⟩ := List.any_eq_true.1 hany
    exact ⟨app, happ, eq_of_beq heq⟩
  have hstate : (p.withScanned apps).state = p.stateAfterScan apps := rfl
  refine ⟨h.selected_nodup.filter _, hsel, ?_, ?_, ?_, ?_, ?_⟩ <;> rw [hstate] <;>
    rcases p.stateAfterScan_cases apps with ⟨he, hr, hs⟩ | ⟨he, hs⟩ | ⟨he, hs⟩ <;>
    simp only [hs, ne_eq, reduceCtorEq, not_false_eq_true, false_implies, forall_const]
  · exact he
  · exact he
  · exact h.of_registered hr

theorem consistent_withReport {p : Page} (h : Consistent p) {b : Course}
    (happs : b.apps = p.selectedApps) (hne : b.apps ≠ []) (now : Int64) :
    Consistent (p.withReport ⟨b.tasks⟩ now) := by
  have hsel : (p.withReport ⟨b.tasks⟩ now).selected =
      if b.refused = none then [] else p.selected := by
    simp only [withReport, b.isSuccess_iff]
  have hstate : (p.withReport ⟨b.tasks⟩ now).state =
      if b.refused = none then .registered else .scanned := by
    simp only [withReport, b.isSuccess_iff]
  refine ⟨?_, ?_, ?_, ?_, ?_, ?_, ?_⟩
  · rw [hsel]; split
    · exact List.nodup_nil
    · exact h.selected_nodup
  · rw [hsel]; split
    · simp
    · exact h.selected_scanned
  all_goals rw [hstate]
  · split <;> simp
  · split <;> simp
  · split <;> simp
  · intro _
    rw [happs] at hne
    exact scanned_ne_nil (p := p) hne
  · split
    · rename_i hnone
      intro _ himported
      -- without a refusal every app of the batch has an entry
      have hlen := b.refused_eq_none_iff.1 hnone
      have hledger : b.accepted = [] := by
        simpa [withReport, ledger, b.succeeded_eq] using (List.append_eq_nil_iff.1 himported).2
      rw [hledger] at hlen
      exact hne (List.eq_nil_of_length_eq_zero hlen.symm)
    · simp

theorem consistent_change {p : Page} {op : Op} {log : Log} {q : Page} (h : Consistent p)
    (hc : Change p op log q) : Consistent q := by
  cases hc with
  | setConnection c =>
    exact ⟨h.selected_nodup, h.selected_scanned, h.not_scanning, h.not_registering, h.of_idle,
      h.of_scanned, h.of_registered⟩
  | scanned => exact consistent_withScanned h _
  | toggled happ =>
    refine ⟨nodup_toggleId h.selected_nodup, ?_, h.not_scanning, h.not_registering, h.of_idle,
      h.of_scanned, h.of_registered⟩
    intro id hid
    rcases mem_of_mem_toggleId hid with hid | rfl
    · exact h.selected_scanned id hid
    · exact ⟨_, happ, rfl⟩
  | registered hv happs hne => exact consistent_withReport h happs hne _
  | refused => exact h

/-- **The choice stays true to the scan.** After any session, against any peer, the page is
consistent, and the chosen apps are those of all chosen ids in the order of the choice. -/
theorem consistent_session {σ : Type} (c : Connection) (ops : List Op)
    (peer : Peer Call Call.Reply σ) (s : σ) :
    Consistent (((start c).session ops).transcript peer s).1 ∧
      (((start c).session ops).transcript peer s).1.selectedApps.map (·.id) =
        (((start c).session ops).transcript peer s).1.selected := by
  have h := session_invariant consistent_change peer (consistent_start c) ops s
  exact ⟨h, ids_selectedApps h⟩

end Workbench.Page
