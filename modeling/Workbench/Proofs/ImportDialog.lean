import Workbench.Apps.ImportDialog
import Workbench.Proofs.Listing
import Workbench.Proofs.Page.Selection

/-!
# Sessions with the import dialog

A session is a list of operations on the dialog, each of which may fail and leave the dialog as it
is. `Change` lists what an operation can do to it; what every change keeps holds after any session.

`Sound` is such an invariant: what is chosen is in the list, a dialog that nothing has filled is
empty, and a list that was read has an id of its own and a name for each app, so that nothing in it
can be chosen twice. A scanner may report one id several times, and choosing all then chooses it as
often: the last clause is for lists that were read only.

* `perform_change`: an operation does nothing that `Change` does not list;
* `sound_change`: every change keeps a dialog sound;
* `sound_session`: after any session, against any peer, the dialog is sound.
-/
namespace Workbench.ImportDialog

open Dialogue (Yields Peer)

inductive Op
  | scanUrl (scanner : Scanner) (c : Connection)
  | loadFile (contents : List UInt8)
  | loadText (text : String)
  | toggle (id : String)
  | selectAll
  | clearSelection
  | commit (receive : List App → Talk Unit)

/-- The dialog after an operation, whatever the result of the operation is. -/
def perform (d : ImportDialog) : Op → Talk ImportDialog
  | .scanUrl scanner c => return (← d.scanUrl scanner c).1
  | .loadFile contents => return (d.loadFile contents).1
  | .loadText text => return (d.loadText text).1
  | .toggle id => return (d.toggle id).1
  | .selectAll => return d.selectAll
  | .clearSelection => return d.clearSelection
  | .commit receive => return (← d.commitTo receive).1

/-- The dialog after all operations, one after the other. -/
def session (d : ImportDialog) (ops : List Op) : Talk ImportDialog := ops.foldlM perform d

/-- Some session that begins with an empty dialog leaves this one behind. -/
def Reachable (d : ImportDialog) : Prop :=
  ∃ (σ : Type) (peer : Peer Call Call.Reply σ) (s : σ) (ops : List Op),
    ((empty.session ops).transcript peer s).1 = d

/-- The list of the dialog was read from a file or a text. -/
def IsRead (d : ImportDialog) : Prop := d.source = some .file ∨ d.source = some .text

/-! ## Changes -/

/-- What an operation can do to a dialog. -/
inductive Change : ImportDialog → ImportDialog → Prop
  | scanned (d : ImportDialog) (apps : List App) : Change d ⟨apps, [], some .url⟩
  | read (d : ImportDialog) {source : ImportSource} {apps : List App} (hsource : source ≠ .url)
      (h : AppList.Normal apps) : Change d ⟨apps, [], some source⟩
  | toggled {d : ImportDialog} {app : App} (h : app ∈ d.scanned) :
      Change d { d with selected := toggleId app.id d.selected }
  | selectedAll (d : ImportDialog) : Change d d.selectAll
  | cleared (d : ImportDialog) : Change d d.clearSelection
  | committed (d : ImportDialog) : Change d empty
  | refused (d : ImportDialog) : Change d d

variable {d d' : ImportDialog} {log : Log}

theorem change_load {source : ImportSource} {list : Except AppsError (List App)}
    (hsource : source ≠ .url) (h : ∀ apps, list = .ok apps → AppList.Normal apps) :
    Change d (d.load source list).1 := by
  cases list with
  | ok apps => exact .read d hsource (h apps rfl)
  | error e => exact .refused d

theorem mapError_eq_ok {ε ε' α : Type} {f : ε → ε'} {x : Except ε α} {a : α} :
    x.mapError f = .ok a ↔ x = .ok a := by
  cases x <;> simp [Except.mapError]

theorem change_toggle (id : String) : Change d (d.toggle id).1 := by
  unfold toggle
  split
  · rename_i hid
    obtain ⟨app, happ, heq⟩ := List.any_eq_true.1 hid
    obtain rfl := eq_of_beq heq
    exact .toggled happ
  · exact .refused d

theorem change_scanUrl {scanner : Scanner} {c : Connection}
    {result : Except AppsError (List App)} (h : Yields (d.scanUrl scanner c) log (d', result)) :
    Change d d' := by
  unfold scanUrl at h
  split at h
  · obtain ⟨-, heq⟩ := Dialogue.yields_pure.1 h
    obtain ⟨rfl, -⟩ := Prod.mk.inj heq
    exact .refused _
  · obtain ⟨apps, -, heq⟩ := (Dialogue.yields_bind_pure fun _ => rfl).1 h
    obtain ⟨rfl, -⟩ := Prod.mk.inj heq
    exact .scanned d apps

theorem change_commitTo {receive : List App → Talk Unit} {result : Except AppsError Nat}
    (h : Yields (d.commitTo receive) log (d', result)) : Change d d' := by
  unfold commitTo commit at h
  split at h
  · rename_i e heq
    split at heq
    · obtain ⟨rfl, -⟩ := Prod.mk.inj heq
      obtain ⟨-, heq⟩ := Dialogue.yields_pure.1 h
      obtain ⟨rfl, -⟩ := Prod.mk.inj heq
      exact .refused _
    · cases heq
  · rename_i apps heq
    split at heq
    · cases heq
    · obtain ⟨rfl, -⟩ := Prod.mk.inj heq
      obtain ⟨-, -, heq⟩ := (Dialogue.yields_bind_pure fun _ => rfl).1 h
      obtain ⟨rfl, -⟩ := Prod.mk.inj heq
      exact .committed d

theorem perform_change {op : Op} (h : Yields (d.perform op) log d') : Change d d' := by
  cases op with
  | scanUrl scanner c =>
    obtain ⟨x, hscan, rfl⟩ := (Dialogue.yields_bind_pure fun _ => rfl).1 h
    exact change_scanUrl hscan
  | loadFile contents =>
    obtain ⟨-, rfl⟩ := Dialogue.yields_pure.1 h
    exact change_load (by decide) fun apps hread =>
      AppList.normal_of_parseFile (mapError_eq_ok.1 hread)
  | loadText text =>
    obtain ⟨-, rfl⟩ := Dialogue.yields_pure.1 h
    exact change_load (by decide) fun apps hread =>
      AppList.normal_of_parseText (mapError_eq_ok.1 hread)
  | toggle id =>
    obtain ⟨-, rfl⟩ := Dialogue.yields_pure.1 h
    exact change_toggle id
  | selectAll =>
    obtain ⟨-, rfl⟩ := Dialogue.yields_pure.1 h
    exact .selectedAll d
  | clearSelection =>
    obtain ⟨-, rfl⟩ := Dialogue.yields_pure.1 h
    exact .cleared d
  | commit receive =>
    obtain ⟨x, hcommit, rfl⟩ := (Dialogue.yields_bind_pure fun _ => rfl).1 h
    exact change_commitTo hcommit

/-- What every change keeps, a session keeps. -/
theorem session_keeps {σ : Type} {I : ImportDialog → Prop}
    (step : ∀ {d d'}, I d → Change d d' → I d') (peer : Peer Call Call.Reply σ) (hd : I d)
    (ops : List Op) (s : σ) : I ((d.session ops).transcript peer s).1 :=
  Dialogue.foldlM_invariant (fun h hop => step h (perform_change hop)) peer hd ops s

theorem Reachable.keeps {I : ImportDialog → Prop} (h : d.Reachable)
    (step : ∀ {d d'}, I d → Change d d' → I d') (hempty : I empty) : I d := by
  obtain ⟨σ, peer, s, ops, rfl⟩ := h
  exact session_keeps step peer hempty ops s

/-! ## What every change keeps -/

structure Sound (d : ImportDialog) : Prop where
  selected_scanned : ∀ id ∈ d.selected, ∃ app ∈ d.scanned, app.id = id
  of_unfilled : d.source = none → d.scanned = [] ∧ d.selected = []
  normal_of_read : d.IsRead → AppList.Normal d.scanned
  selected_nodup_of_read : d.IsRead → d.selected.Nodup

theorem sound_empty : Sound empty where
  selected_scanned := by simp [empty]
  of_unfilled := fun _ => ⟨rfl, rfl⟩
  normal_of_read := by simp [empty, IsRead]
  selected_nodup_of_read := by simp [empty, IsRead]

theorem sound_toggled (h : Sound d) {app : App} (happ : app ∈ d.scanned) :
    Sound { d with selected := toggleId app.id d.selected } where
  selected_scanned id hid := by
    rcases Page.mem_of_mem_toggleId hid with hid | rfl
    · exact h.selected_scanned id hid
    · exact ⟨app, happ, rfl⟩
  of_unfilled hsource := by
    -- there is no app to toggle
    rw [(h.of_unfilled hsource).1] at happ
    cases happ
  normal_of_read := h.normal_of_read
  selected_nodup_of_read hread := Page.nodup_toggleId (h.selected_nodup_of_read hread)

theorem sound_selectAll (h : Sound d) : Sound d.selectAll where
  selected_scanned id hid := List.mem_map.1 hid
  of_unfilled hsource := by
    obtain ⟨hscanned, -⟩ := h.of_unfilled hsource
    exact ⟨hscanned, by rw [selectAll, hscanned]; rfl⟩
  normal_of_read := h.normal_of_read
  selected_nodup_of_read hread := (h.normal_of_read hread).ids_nodup

theorem sound_clearSelection (h : Sound d) : Sound d.clearSelection where
  selected_scanned _ hid := nomatch hid
  of_unfilled hsource := ⟨(h.of_unfilled hsource).1, rfl⟩
  normal_of_read := h.normal_of_read
  selected_nodup_of_read _ := List.nodup_nil

theorem sound_change (h : Sound d) (hc : Change d d') : Sound d' := by
  cases hc with
  | scanned apps =>
    exact ⟨by simp, by simp, by simp [IsRead], fun _ => List.nodup_nil⟩
  | read _ hnormal =>
    exact ⟨by simp, by simp, fun _ => hnormal, fun _ => List.nodup_nil⟩
  | toggled happ => exact sound_toggled h happ
  | selectedAll => exact sound_selectAll h
  | cleared => exact sound_clearSelection h
  | committed => exact sound_empty
  | refused => exact h

theorem Reachable.sound (h : d.Reachable) : Sound d := h.keeps sound_change sound_empty

/-- **The choice is from the list.** After any session that begins with an empty dialog, against
any peer, the dialog is sound. -/
theorem sound_session {σ : Type} (ops : List Op) (peer : Peer Call Call.Reply σ) (s : σ) :
    Sound ((empty.session ops).transcript peer s).1 :=
  session_keeps sound_change peer sound_empty ops s

end Workbench.ImportDialog
