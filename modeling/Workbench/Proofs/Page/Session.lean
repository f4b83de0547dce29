import Workbench.Apps.Page
import Workbench.Proofs.Registration

/-!
# Sessions on the page for apps

A session is a list of operations on the page, each of which may fail and leave the page as it is.
`Change` lists what an operation can do to the page and which exchanges it has meanwhile; every
invariant of the page is proved along it, once for each constructor.

* `perform_change`: an operation does nothing that `Change` does not list;
* `session_invariant`: what holds at the start and survives every change holds after any session,
  against any peer;
* `session_journal`: the journal of a session, step by step, ends on the page of the session;
* `journal_history`: what the steps so far have to do with the page that the next one finds.
-/
namespace Workbench.Page

open Dialogue (Yields Peer)

inductive Op
  | setConnection (c : Connection)
  | scan (scanner : Scanner)
  | toggle (id : String)
  | register (registrar : Registrar) (now : Int64)

/-- The page after an operation, whatever the result of the operation is. -/
def perform (p : Page) : Op → Talk Page
  | .setConnection c => return p.setConnection c
  | .scan scanner => return (← p.scan scanner).1
  | .toggle id => return (p.toggle id).1
  | .register registrar now => return (← p.register registrar now).1

/-- The page after all operations, one after the other. -/
def session (p : Page) : List Op → Talk Page
  | [] => return p
  | op :: ops => do (← p.perform op).session ops

/-- What an operation can do to a page, with the exchanges that it has meanwhile. -/
inductive Change : Page → Op → Log → Page → Prop
  | setConnection (p : Page) (c : Connection) : Change p (.setConnection c) [] (p.setConnection c)
  | scanned {p : Page} {scanner : Scanner} {log : Log} {apps : List App}
      (hv : p.connection.validate = .ok ()) (h : Yields (scanner p.connection) log apps) :
      Change p (.scan scanner) log (p.withScanned apps)
  | toggled {p : Page} {app : App} (h : app ∈ p.scanned) :
      Change p (.toggle app.id) [] { p with selected := toggleId app.id p.selected }
  | registered {p : Page} {r : Registrar} {now : Int64} {b : Course} {log : Log}
      (hv : p.connection.validate = .ok ()) (happs : b.apps = p.selectedApps) (hne : b.apps ≠ [])
      (h : r.Took p.connection b log) :
      Change p (.register r now) log (p.withReport ⟨b.tasks⟩ now)
  | refused (p : Page) (op : Op) : Change p op [] p

/-! ## Operations -/

variable {p q : Page} {log : Log}

theorem yields_scan {scanner : Scanner} {result : Except AppsError (List App)}
    (h : Yields (p.scan scanner) log (q, result)) :
    (log = [] ∧ q = p ∧ ∃ e, p.connection.validate = .error e ∧ result = .error e) ∨
    (p.connection.validate = .ok () ∧
      ∃ apps, Yields (scanner p.connection) log apps ∧ q = p.withScanned apps ∧
        result = .ok apps) := by
  unfold scan at h
  split at h
  · rename_i e he
    obtain ⟨rfl, hq⟩ := Dialogue.yields_pure.1 h
    obtain ⟨rfl, rfl⟩ := Prod.mk.inj hq
    exact .inl ⟨rfl, rfl, e, he, rfl⟩
  · rename_i hv
    obtain ⟨_, _, apps, rfl, hscan, hdone⟩ := Dialogue.yields_bind.1 h
    obtain ⟨rfl, hq⟩ := Dialogue.yields_pure.1 hdone
    obtain ⟨rfl, rfl⟩ := Prod.mk.inj hq
    exact .inr ⟨hv, apps, by rwa [List.append_nil], rfl, rfl⟩

theorem ofApps?_eq_none {apps : List App} : RegistrationPlan.ofApps? apps = none ↔ apps = [] := by
  unfold RegistrationPlan.ofApps?
  split <;> simp_all

theorem ofApps?_eq_some {apps : List App} {plan : RegistrationPlan}
    (h : RegistrationPlan.ofApps? apps = some plan) : plan.apps = apps := by
  unfold RegistrationPlan.ofApps? at h
  split at h
  · cases h
  · obtain rfl := Option.some.inj h; rfl

theorem yields_register {r : Registrar} {now : Int64}
    {result : Except AppsError RegistrationReport}
    (h : Yields (p.register r now) log (q, result)) :
    (log = [] ∧ q = p ∧ ((∃ e, p.connection.validate = .error e ∧ result = .error e) ∨
      (p.connection.validate = .ok () ∧ p.selectedApps = [] ∧ result = .error .emptySelection))) ∨
    (p.connection.validate = .ok () ∧ ∃ b : Course, b.apps = p.selectedApps ∧ b.apps ≠ [] ∧
      r.Took p.connection b log ∧ q = p.withReport ⟨b.tasks⟩ now ∧
      result = if b.refused = none then .ok ⟨b.tasks⟩ else .error (.batchFailed ⟨b.tasks⟩)) := by
  unfold register at h
  split at h
  · rename_i e he
    obtain ⟨rfl, hq⟩ := Dialogue.yields_pure.1 h
    obtain ⟨rfl, rfl⟩ := Prod.mk.inj hq
    exact .inl ⟨rfl, rfl, .inl ⟨e, he, rfl⟩⟩
  · rename_i hv
    split at h
    · rename_i hnone
      obtain ⟨rfl, hq⟩ := Dialogue.yields_pure.1 h
      obtain ⟨rfl, rfl⟩ := Prod.mk.inj hq
      exact .inl ⟨rfl, rfl, .inr ⟨hv, ofApps?_eq_none.1 hnone, rfl⟩⟩
    · rename_i plan hplan
      obtain ⟨_, _, report, rfl, hrun, hdone⟩ := Dialogue.yields_bind.1 h
      obtain ⟨rfl, hq⟩ := Dialogue.yields_pure.1 hdone
      obtain ⟨rfl, rfl⟩ := Prod.mk.inj hq
      obtain ⟨b, hb, rfl, htook⟩ := Registrar.yields_run hrun
      refine .inr ⟨hv, b, hb.trans (ofApps?_eq_some hplan), hb ▸ plan.apps_ne_nil,
        by rwa [List.append_nil], rfl, ?_⟩
      simp only [b.isSuccess_iff]

theorem perform_change {op : Op} (h : Yields (p.perform op) log q) : Change p op log q := by
  cases op with
  | setConnection c =>
    obtain ⟨rfl, rfl⟩ := Dialogue.yields_pure.1 h
    exact .setConnection p c
  | scan scanner =>
    obtain ⟨_, _, ⟨p', result⟩, rfl, hscan, hdone⟩ := Dialogue.yields_bind.1 h
    obtain ⟨rfl, rfl⟩ := Dialogue.yields_pure.1 hdone
    rw [List.append_nil]
    rcases yields_scan hscan with ⟨rfl, rfl, -⟩ | ⟨hv, apps, happs, rfl, -⟩
    · exact .refused _ _
    · exact .scanned hv happs
  | toggle id =>
    obtain ⟨rfl, rfl⟩ := Dialogue.yields_pure.1 h
    unfold toggle
    split
    · rename_i hid
      obtain ⟨app, happ, heq⟩ := List.any_eq_true.1 hid
      obtain rfl := eq_of_beq heq
      exact .toggled happ
    · exact .refused _ _
  | register r now =>
    obtain ⟨_, _, ⟨p', result⟩, rfl, hreg, hdone⟩ := Dialogue.yields_bind.1 h
    obtain ⟨rfl, rfl⟩ := Dialogue.yields_pure.1 hdone
    rw [List.append_nil]
    rcases yields_register hreg with ⟨rfl, rfl, -⟩ | ⟨hv, b, hb, hne, htook, rfl, -⟩
    · exact .refused _ _
    · exact .registered hv hb hne htook

/-! ## Sessions -/

variable {σ : Type}

/-- What every change keeps, a session keeps. -/
theorem session_invariant {I : Page → Prop}
    (step : ∀ {p op log q}, I p → Change p op log q → I q) (peer : Peer Call Call.Reply σ)
    (hp : I p) (ops : List Op) (s : σ) : I ((p.session ops).transcript peer s).1 := by
  induction ops generalizing p s with
  | nil => exact hp
  | cons op ops ih =>
    rw [session, Dialogue.transcript_bind]
    exact ih (step hp (perform_change (Dialogue.yields_transcript peer (p.perform op) s))) _

/-- One operation of a session. -/
structure Step where
  before : Page
  op : Op
  log : Log
  after : Page

/-- The steps of a session, each with the exchanges that it had with `peer`. -/
def journal (peer : Peer Call Call.Reply σ) (p : Page) : List Op → σ → List Step
  | [], _ => []
  | op :: ops, s =>
    let (q, _, s') := (p.perform op).transcript peer s
    ⟨p, op, (p.perform op).exchanges peer s, q⟩ :: journal peer q ops s'

theorem journal_cons (peer : Peer Call Call.Reply σ) (op : Op) (ops : List Op) (s : σ) :
    journal peer p (op :: ops) s =
      ⟨p, op, (p.perform op).exchanges peer s, ((p.perform op).transcript peer s).1⟩ ::
        journal peer ((p.perform op).transcript peer s).1 ops
          ((p.perform op).transcript peer s).2.2 := rfl

/-- A step performs one of the operations on the page that it finds. -/
theorem journal_yields (peer : Peer Call Call.Reply σ) (ops : List Op) (s : σ) :
    ∀ t ∈ journal peer p ops s, t.op ∈ ops ∧ Yields (t.before.perform t.op) t.log t.after := by
  induction ops generalizing p s with
  | nil => simp [journal]
  | cons op ops ih =>
    rw [journal_cons]
    intro t ht
    rcases List.mem_cons.1 ht with rfl | ht
    · exact ⟨List.mem_cons_self, Dialogue.yields_transcript peer (p.perform op) s⟩
    · exact (ih _ t ht).imp_left (List.mem_cons_of_mem op)

theorem journal_change (peer : Peer Call Call.Reply σ) (ops : List Op) (s : σ) :
    ∀ t ∈ journal peer p ops s, Change t.before t.op t.log t.after :=
  fun t ht => perform_change (journal_yields peer ops s t ht).2

/-- What every step carries on from the steps before it to the page that it leaves, relates the
steps before any step to the page that this step finds. -/
theorem journal_history {allowed : Op → Prop} {H : List Step → Page → Prop}
    (step : ∀ {past : List Step} {t : Step}, allowed t.op → H past t.before →
      Yields (t.before.perform t.op) t.log t.after → H (past ++ [t]) t.after)
    (peer : Peer Call Call.Reply σ) {ops : List Op} (hops : ∀ op ∈ ops, allowed op) (s : σ)
    {past : List Step} (hp : H past p) {earlier later : List Step} {t : Step}
    (h : journal peer p ops s = earlier ++ t :: later) : H (past ++ earlier) t.before := by
  induction ops generalizing p s past earlier with
  | nil => simp [journal] at h
  | cons op ops ih =>
    obtain ⟨hop, hops⟩ := List.forall_mem_cons.1 hops
    rw [journal_cons] at h
    cases earlier with
    | nil =>
      obtain ⟨rfl, -⟩ := List.cons.inj h
      rwa [List.append_nil]
    | cons first earlier =>
      obtain ⟨rfl, hrest⟩ := List.cons.inj h
      have hnext := step (t := ⟨p, op, _, _⟩) hop hp
        (Dialogue.yields_transcript peer (p.perform op) s)
      have hsplit := ih hops _ hnext hrest
      rwa [List.append_assoc] at hsplit

/-- A list that every step only adds to is, after a session, what the steps have added. -/
theorem session_journal {α : Type} {view : Page → List α} {added : Step → List α}
    (step : ∀ {t : Step}, Change t.before t.op t.log t.after →
      view t.after = view t.before ++ added t)
    (peer : Peer Call Call.Reply σ) (ops : List Op) (s : σ) :
    view ((p.session ops).transcript peer s).1 =
      view p ++ (journal peer p ops s).flatMap added := by
  induction ops generalizing p s with
  | nil => exact (List.append_nil _).symm
  | cons op ops ih =>
    rw [session, Dialogue.transcript_bind, ih, journal_cons, List.flatMap_cons,
      ← List.append_assoc]
    congr 1
    exact step (t := ⟨p, op, _, _⟩)
      (perform_change (Dialogue.yields_transcript peer (p.perform op) s))

end Workbench.Page
