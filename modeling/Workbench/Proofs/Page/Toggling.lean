import Mathlib.Algebra.Ring.Parity
import Mathlib.Data.List.Dedup
import Workbench.Proofs.Page.Selection
import Workbench.Proofs.Transfer.Run

/-!
# Toggling one id after the other

An id that is toggled leaves the choice or joins it at the end, so a list of toggles leaves behind
two things: the ids that it does not name, where they were, and behind them those of its own ids
that are chosen in the end, each where it was named last.

* `mem_switched_iff`: an id changes sides as often as it is named;
* `switched_eq`: the choice after any list of toggles, in its order;
* `Page.toggled_of_reachable`: so it goes on any page that a session can leave behind, as long as
  the ids are those of found apps.
-/
namespace Workbench

/-! ## Switching -/

/-- The chosen ids after all of `ids` have been switched. -/
def switched (chosen ids : List String) : List String :=
  ids.foldl (fun chosen id => toggleId id chosen) chosen

theorem mem_toggleId_iff {id x : String} {chosen : List String} (h : chosen.Nodup) :
    x ∈ toggleId id chosen ↔ ¬(x ∈ chosen ↔ x = id) := by
  have hcount := List.nodup_iff_count_le_one.1 h x
  rw [← List.count_pos_iff, ← List.count_pos_iff, Page.count_toggleId]
  by_cases hx : x = id
  · subst hx
    rw [if_pos rfl]
    split <;> simp only [iff_true] <;> omega
  · rw [if_neg hx, iff_false_right hx, not_not]

theorem nodup_switched {chosen ids : List String} (h : chosen.Nodup) :
    (switched chosen ids).Nodup := by
  induction ids generalizing chosen with
  | nil => exact h
  | cons id ids ih => exact ih (Page.nodup_toggleId h)

/-- An id changes sides as often as it is named. -/
theorem mem_switched_iff {x : String} {chosen ids : List String} (h : chosen.Nodup) :
    x ∈ switched chosen ids ↔ ¬(x ∈ chosen ↔ Odd (ids.count x)) := by
  induction ids generalizing chosen with
  | nil => simp [switched]
  | cons id ids ih =>
    have hstep : x ∈ switched chosen (id :: ids) ↔
        ¬(x ∈ toggleId id chosen ↔ Odd (ids.count x)) := ih (Page.nodup_toggleId h)
    rw [hstep, mem_toggleId_iff h, List.count_cons]
    by_cases hx : x = id
    · subst hx
      rw [beq_self_eq_true, if_pos rfl, Nat.odd_add_one]
      tauto
    · rw [beq_eq_false_iff_ne.2 (Ne.symm hx)]
      simp [hx]

theorem mem_switched_nil {x : String} {ids : List String} :
    x ∈ switched [] ids ↔ Odd (ids.count x) := by
  rw [mem_switched_iff List.nodup_nil]
  simp

/-! ## The order of the choice -/

/-- What stays, and the id itself behind it if it was not there. -/
theorem toggleId_eq {id : String} {chosen : List String} (h : chosen.Nodup) :
    toggleId id chosen = chosen.filter (· ≠ id) ++ if id ∈ chosen then [] else [id] := by
  unfold toggleId
  by_cases hid : id ∈ chosen
  · rw [if_pos (List.contains_iff_mem.2 hid), if_pos hid, List.append_nil, h.erase_eq_filter]
    exact List.filter_congr fun x _ => by rw [Bool.eq_iff_iff]; simp
  · have hkept : chosen.filter (· ≠ id) = chosen :=
      List.filter_eq_self.2 fun x hx => decide_eq_true fun heq => hid (heq ▸ hx)
    rw [if_neg (mt List.contains_iff_mem.1 hid), if_neg hid, hkept]

/-- The ids that are not named stay where they were, and behind them come the named ones that are
chosen in the end, each where it was named last: `dedup` drops all but the last of equal entries. -/
theorem switched_eq {chosen ids : List String} (h : chosen.Nodup) :
    switched chosen ids = chosen.filter (· ∉ ids) ++
      ids.dedup.filter (· ∈ switched chosen ids) := by
  induction ids generalizing chosen with
  | nil => simp [switched]
  | cons id ids ih =>
    have hmem : id ∈ switched chosen (id :: ids) ↔ ¬(id ∈ chosen ↔ Odd ((id :: ids).count id)) :=
      mem_switched_iff h
    have hstep : switched chosen (id :: ids) = (toggleId id chosen).filter (· ∉ ids) ++
        ids.dedup.filter (· ∈ switched chosen (id :: ids)) := ih (Page.nodup_toggleId h)
    have hkept : (chosen.filter (· ≠ id)).filter (· ∉ ids) = chosen.filter (· ∉ id :: ids) := by
      rw [List.filter_filter]
      exact List.filter_congr fun x _ => by simp [Bool.and_comm]
    rw [toggleId_eq h, List.filter_append, hkept, List.append_assoc] at hstep
    refine hstep.trans (congrArg _ ?_)
    by_cases hid : id ∈ ids
    · -- a later toggle of the same id decides where it stands
      have hnone : (if id ∈ chosen then [] else [id]).filter (· ∉ ids) = [] := by
        split <;> simp [hid]
      rw [hnone, List.dedup_cons_of_mem hid, List.nil_append]
    · -- this is its only toggle
      have hlast : id ∈ switched chosen (id :: ids) ↔ id ∉ chosen := by
        rw [hmem, List.count_cons_self, List.count_eq_zero_of_not_mem hid]
        simp
      rw [List.dedup_cons_of_notMem hid, List.filter_cons]
      by_cases hchosen : id ∈ chosen
      · simp [hlast, hchosen]
      · simp [hlast, hchosen, hid]

namespace Page

/-! ## Toggling on a page -/

/-- The page after the ids have been toggled one after the other, and what each toggle reports. -/
def toggleEach (p : Page) : List String → Page × List (Except AppsError Bool)
  | [] => (p, [])
  | id :: ids =>
    let (q, report) := p.toggle id
    let (q, reports) := q.toggleEach ids
    (q, report :: reports)

theorem toggle_of_scanned {p : Page} {id : String} (h : ∃ app ∈ p.scanned, app.id = id) :
    p.toggle id =
      ({ p with selected := toggleId id p.selected }, .ok (!p.selected.contains id)) := by
  obtain ⟨app, happ, hid⟩ := h
  have hany : p.scanned.any (·.id == id) = true :=
    List.any_eq_true.2 ⟨app, happ, beq_iff_eq.2 hid⟩
  rw [toggle, if_pos hany]

theorem toggleEach_of_scanned {p : Page} {ids : List String}
    (h : ∀ id ∈ ids, ∃ app ∈ p.scanned, app.id = id) :
    ∃ told : List Bool, told.length = ids.length ∧
      p.toggleEach ids = ({ p with selected := switched p.selected ids }, told.map .ok) := by
  induction ids generalizing p with
  | nil => exact ⟨[], rfl, rfl⟩
  | cons id ids ih =>
    obtain ⟨hid, hids⟩ := List.forall_mem_cons.1 h
    obtain ⟨told, hlength, hrest⟩ := ih (p := { p with selected := toggleId id p.selected }) hids
    refine ⟨(!p.selected.contains id) :: told, congrArg (· + 1) hlength, ?_⟩
    rw [toggleEach, toggle_of_scanned hid]
    dsimp only
    rw [hrest]
    rfl

/-- Some session leaves this page behind. -/
def Reachable (p : Page) : Prop :=
  ∃ (c : Connection) (σ : Type) (peer : Dialogue.Peer Call Call.Reply σ) (s : σ) (ops : List Op),
    (((start c).session ops).transcript peer s).1 = p

theorem Reachable.consistent {p : Page} (h : p.Reachable) : Consistent p := by
  obtain ⟨c, σ, peer, s, ops, rfl⟩ := h
  exact session_invariant consistent_change peer (consistent_start c) ops s

/-- How the page `q` comes from `p` by toggling `ids`. -/
structure ToggledTo (p : Page) (ids : List String) (q : Page) : Prop where
  /-- Nothing but the choice changes. -/
  rest_eq : q = { p with selected := q.selected }
  mem_selected_iff : ∀ id, id ∈ q.selected ↔ Xor (id ∈ p.selected) (Odd (ids.count id))
  selected_eq : q.selected = p.selected.filter (· ∉ ids) ++ ids.dedup.filter (· ∈ q.selected)

/-- **Toggles are counted, and the last one places the app.** On any page that a session can leave
behind, the apps that were found can be toggled in any order and as often as one likes. No toggle
fails, an app is chosen in the end if it was chosen before or else was toggled an odd number of
times, but not both, and the toggled apps stand behind the others in the order in which they were
toggled last. -/
theorem toggled_of_reachable {p : Page} (h : p.Reachable) {ids : List String}
    (hids : ∀ id ∈ ids, ∃ app ∈ p.scanned, app.id = id) :
    (∃ told : List Bool, told.length = ids.length ∧ (p.toggleEach ids).2 = told.map .ok) ∧
      ToggledTo p ids (p.toggleEach ids).1 := by
  have hnodup := h.consistent.selected_nodup
  obtain ⟨told, hlength, heach⟩ := toggleEach_of_scanned hids
  rw [heach]
  refine ⟨⟨told, hlength, rfl⟩, rfl, fun id => ?_, switched_eq hnodup⟩
  rw [xor_iff_not_iff]
  exact mem_switched_iff hnodup

/-! ## Four apps -/

def fourApps : List App :=
  ["a", "b", "c", "d"].map fun id => ⟨id, id, "", .chat, none⟩

/-- The page on which four apps have been found and three of them chosen. -/
def chosenThree : Page :=
  ⟨⟨"http://dify.test", "key"⟩, .scanned, fourApps, ["b", "d", "c"], []⟩

theorem toggled_of_reachable_chosenThree :
    chosenThree.Reachable ∧
      (∀ id ∈ ["c", "a", "b", "c", "a", "a"], ∃ app ∈ chosenThree.scanned, app.id = id) ∧
      ToggledTo chosenThree ["c", "a", "b", "c", "a", "a"]
        { chosenThree with selected := ["d", "c", "a"] } := by
  have hreachable : chosenThree.Reachable :=
    ⟨⟨"http://dify.test", "key"⟩, Unit, obliging none ⟨"", []⟩, (),
      [.scan (.fixed fourApps), .toggle "b", .toggle "d", .toggle "c"], by decide +kernel⟩
  have hids : ∀ id ∈ ["c", "a", "b", "c", "a", "a"], ∃ app ∈ chosenThree.scanned, app.id = id := by
    decide
  exact ⟨hreachable, hids, (toggled_of_reachable hreachable hids).2⟩

end Page

end Workbench
