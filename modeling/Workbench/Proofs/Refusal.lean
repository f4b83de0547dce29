import Workbench.Apps.ImportDialog
import Workbench.Proofs.Page.Session

/-!
# Refused operations

An operation on the page or on the import dialog looks at everything that can be wrong with it
before it does anything. Only a batch can fail half-way, and says so with an error of its own.

`Atomic` has this of an operation together with everyone it might turn to: a scanner, a registrar,
or whoever receives the chosen apps. If the operation comes to an error for one of them, whatever is
answered on the way, then it comes to this error for all of them, without a call and with the
session as it was.

* `Page.atomic_scan`, `Page.atomic_register`, `ImportDialog.atomic_scanUrl`,
  `ImportDialog.atomic_commitTo`: the operations that turn to others;
* `refused_atomic`: every operation on the page and on the dialog is atomic.
-/
namespace Workbench

open Dialogue (Yields)

/-- The error of a batch, in which apps may have been registered. -/
def AppsError.IsBatchFailure : AppsError → Prop
  | .batchFailed _ => True
  | _ => False

/-- A session is left as it is by an operation that fails, unless in a batch, and none of the
partners `ι` that the operation can be given is turned to. -/
def Atomic {S ι α : Type} (before : S) (op : ι → Talk (S × Except AppsError α)) : Prop :=
  ∀ partner log after e, Yields (op partner) log (after, .error e) → ¬ e.IsBatchFailure →
    after = before ∧ log = [] ∧ ∀ other, op other = pure (before, .error e)

section

variable {S ι α : Type} {before : S} {op : ι → Talk (S × Except AppsError α)}

theorem Atomic.of_refused {e : AppsError} (h : ∀ partner, op partner = pure (before, .error e)) :
    Atomic before op := by
  intro partner log after e' hrun _
  rw [h partner] at hrun
  obtain ⟨rfl, hresult⟩ := Dialogue.yields_pure.1 hrun
  obtain ⟨rfl, herror⟩ := Prod.mk.inj hresult
  obtain rfl := Except.error.inj herror
  exact ⟨rfl, rfl, h⟩

/-- An operation that turns to nobody. -/
theorem Atomic.of_pure {x : S × Except AppsError α} (h : ∀ e, x.2 = .error e → x.1 = before) :
    Atomic before fun _ : ι => pure x := by
  intro partner log after e hrun _
  obtain ⟨rfl, hx⟩ := Dialogue.yields_pure.1 hrun
  obtain rfl := h e (congrArg Prod.snd hx).symm
  obtain rfl := (congrArg Prod.fst hx : after = x.1)
  exact ⟨rfl, rfl, fun _ => congrArg pure hx.symm⟩

/-- An operation that fails in a batch only. -/
theorem Atomic.of_batchFailure (h : ∀ partner log after e,
    Yields (op partner) log (after, .error e) → e.IsBatchFailure) : Atomic before op :=
  fun partner log after e hrun hbatch => absurd (h partner log after e hrun) hbatch

end

namespace Page

theorem atomic_scan (p : Page) : Atomic p p.scan := by
  cases hv : p.connection.validate with
  | error e => exact .of_refused fun scanner => by rw [scan, hv]
  | ok =>
    refine .of_batchFailure fun scanner log after e hrun => ?_
    rcases yields_scan hrun with ⟨-, -, e', he, -⟩ | ⟨-, apps, -, -, hresult⟩
    · rw [hv] at he
      cases he
    · cases hresult

theorem atomic_register (p : Page) :
    Atomic p fun partner : Registrar × Int64 => p.register partner.1 partner.2 := by
  cases hv : p.connection.validate with
  | error e => exact .of_refused fun partner => by rw [register, hv]
  | ok =>
    by_cases hnone : p.selectedApps = []
    · exact .of_refused (e := .emptySelection) fun partner => by
        simp only [register, hv, ofApps?_eq_none.2 hnone]
    · refine .of_batchFailure fun partner log after e hrun => ?_
      rcases yields_register hrun with
        ⟨-, -, ⟨e', he, -⟩ | ⟨-, hempty, -⟩⟩ | ⟨-, b, -, -, -, -, hresult⟩
      · rw [hv] at he
        cases he
      · exact absurd hempty hnone
      · split at hresult
        · cases hresult
        · obtain rfl := Except.error.inj hresult
          trivial

theorem eq_of_toggle_error (p : Page) (id : String) :
    ∀ e, (p.toggle id).2 = .error e → (p.toggle id).1 = p := by
  unfold toggle
  split <;> simp

end Page

namespace ImportDialog

theorem atomic_scanUrl (d : ImportDialog) (c : Connection) : Atomic d (d.scanUrl · c) := by
  cases hv : c.validate with
  | error e => exact .of_refused fun scanner => by rw [scanUrl, hv]
  | ok =>
    refine .of_batchFailure fun scanner log after e hrun => ?_
    simp only [scanUrl, hv] at hrun
    obtain ⟨apps, -, hresult⟩ := (Dialogue.yields_bind_pure fun _ => rfl).1 hrun
    cases hresult

theorem atomic_commitTo (d : ImportDialog) : Atomic d d.commitTo := by
  cases hchosen : d.chosen.isEmpty with
  | true =>
    exact .of_refused (e := .emptySelection) fun receive => by
      simp only [commitTo, commit, hchosen, if_true]
  | false =>
    refine .of_batchFailure fun receive log after e hrun => ?_
    simp only [commitTo, commit, hchosen, Bool.false_eq_true, if_false] at hrun
    obtain ⟨_, -, hresult⟩ := (Dialogue.yields_bind_pure fun _ => rfl).1 hrun
    cases hresult

theorem eq_of_load_error (d : ImportDialog) (source : ImportSource)
    (list : Except AppsError (List App)) :
    ∀ e, (d.load source list).2 = .error e → (d.load source list).1 = d := by
  cases list <;> simp [load]

theorem eq_of_toggle_error (d : ImportDialog) (id : String) :
    ∀ e, (d.toggle id).2 = .error e → (d.toggle id).1 = d := by
  unfold toggle
  split <;> simp

end ImportDialog

/-- The operations on the page and on the dialog that can fail, with everyone they might turn to. -/
structure RefusesAtomically (p : Page) (d : ImportDialog) : Prop where
  scan : Atomic p p.scan
  toggle : ∀ id, Atomic p fun _ : Unit => pure (p.toggle id)
  register : Atomic p fun partner : Registrar × Int64 => p.register partner.1 partner.2
  scanUrl : ∀ c, Atomic d (d.scanUrl · c)
  loadFile : ∀ contents, Atomic d fun _ : Unit => pure (d.loadFile contents)
  loadText : ∀ text, Atomic d fun _ : Unit => pure (d.loadText text)
  toggleListed : ∀ id, Atomic d fun _ : Unit => pure (d.toggle id)
  commit : Atomic d d.commitTo

/-- **A refusal changes nothing.** On any page and any dialog an operation that fails, other than in
a batch, leaves the session as it was and has turned to nobody. -/
theorem refused_atomic (p : Page) (d : ImportDialog) : RefusesAtomically p d where
  scan := p.atomic_scan
  toggle id := .of_pure (p.eq_of_toggle_error id)
  register := p.atomic_register
  scanUrl := d.atomic_scanUrl
  loadFile _ := .of_pure (d.eq_of_load_error .file _)
  loadText _ := .of_pure (d.eq_of_load_error .text _)
  toggleListed id := .of_pure (d.eq_of_toggle_error id)
  commit := d.atomic_commitTo

end Workbench
