import Workbench.Apps.Registration
import Workbench.Proofs.Dialogue

/-!
# What becomes of a batch

A batch has a `Course`: the apps that the backend accepted, the one that it refused, if any, and
those that were skipped after that. The course settles the tasks of the report and every call.

* `yields_registerAll`: whatever the replies are, a batch takes some course over its apps;
* `run_stopsAt`: against any peer the report lists the apps of the plan in their order, the first
  `k` as registered, the next one as failed for the reason that the backend gave, and all later ones
  as skipped; the backend is asked once for each app up to the refused one, and the host is looked
  at right before each request or never.
-/
namespace Workbench

open Dialogue (Exchange Yields)

/-- The request for a plugin and the answer of the backend. -/
def registration? : Exchange Call Call.Reply → Option (PluginMeta × Except ApiError Unit)
  | ⟨.register request, reply⟩ => some (request, reply)
  | _ => none

def registrations (log : Log) : List (PluginMeta × Except ApiError Unit) :=
  log.filterMap registration?

theorem registrations_append (log₁ log₂ : Log) :
    registrations (log₁ ++ log₂) = registrations log₁ ++ registrations log₂ :=
  List.filterMap_append

/-! ## The course of a batch -/

/-- The apps of a batch by what became of them. -/
structure Course where
  accepted : List App
  refused : Option (App × ApiError)
  skipped : List App
  skipped_eq_nil : refused = none → skipped = []

namespace Course

/-- The apps that the backend was asked for. -/
def asked (b : Course) : List App := b.accepted ++ b.refused.toList.map Prod.fst

def apps (b : Course) : List App := b.asked ++ b.skipped

def tasks (b : Course) : List RegistrationTask :=
  b.accepted.map (⟨·, .registered⟩) ++
    b.refused.toList.map (fun (app, e) => ⟨app, .failed (Registrar.refusal app e)⟩) ++
    b.skipped.map (⟨·, .skipped⟩)

def replies (b : Course) : List (Except ApiError Unit) :=
  b.accepted.map (fun _ => .ok ()) ++ b.refused.toList.map fun (_, e) => .error e

/-- The course of a batch whose first app is refused. -/
def refusedFirst (app : App) (e : ApiError) (rest : List App) : Course :=
  ⟨[], some (app, e), rest, nofun⟩

/-- The course after one more app was accepted at the front. -/
def cons (app : App) (b : Course) : Course := { b with accepted := app :: b.accepted }

theorem map_app_tasks (b : Course) : b.tasks.map (·.app) = b.apps := by
  simp [tasks, apps, asked, Function.comp_def]

theorem length_replies (b : Course) : b.replies.length = b.asked.length := by
  simp [replies, asked]

/-- Up to the refused app everything has been asked for. -/
theorem take_apps (b : Course) : b.apps.take (b.accepted.length + 1) = b.asked := by
  cases h : b.refused with
  | none => simp [apps, asked, h, b.skipped_eq_nil h, List.take_of_length_le]
  | some p => simp [apps, asked, h, List.take_append, List.take_of_length_le]

theorem take_accepted (b : Course) : b.apps.take b.accepted.length = b.accepted := by
  simp [apps, asked]

theorem refused_eq_none_iff (b : Course) :
    b.refused = none ↔ b.accepted.length = b.apps.length := by
  constructor
  · intro h; simp [apps, asked, h, b.skipped_eq_nil h]
  · intro h
    cases hr : b.refused with
    | none => rfl
    | some p => simp [apps, asked, hr] at h

theorem isSuccess_iff (b : Course) :
    RegistrationReport.isSuccess ⟨b.tasks⟩ = true ↔ b.refused = none := by
  cases h : b.refused with
  | none => simp [RegistrationReport.isSuccess, tasks, h, b.skipped_eq_nil h]
  | some p => simp [RegistrationReport.isSuccess, tasks, h]

theorem failed?_eq (b : Course) : RegistrationReport.failed? ⟨b.tasks⟩ =
    b.refused.map fun (app, e) => (app, Registrar.refusal app e) := by
  cases h : b.refused with
  | none =>
    simp [RegistrationReport.failed?, tasks, h, b.skipped_eq_nil h, List.findSome?_eq_none_iff]
  | some p =>
    rw [RegistrationReport.failed?, tasks, List.append_assoc, List.findSome?_append,
      List.findSome?_eq_none_iff.2 (by simp)]
    simp [h]

theorem succeeded_eq (b : Course) : RegistrationReport.succeeded ⟨b.tasks⟩ = b.accepted := by
  have hskip : b.skipped.filter (fun _ => TaskStatus.skipped == .registered) = [] := by
    simp [List.filter_eq_nil_iff]
  have hacc : b.accepted.filter (fun _ => true) = b.accepted := List.filter_eq_self.2 (by simp)
  cases h : b.refused <;>
    simp [RegistrationReport.succeeded, tasks, h, List.filter_map, Function.comp_def, hskip, hacc]

theorem ne_pending (b : Course) (t : RegistrationTask) (ht : t ∈ b.tasks) :
    t.status ≠ .pending := by
  simp only [tasks, List.mem_append, List.mem_map] at ht
  rcases ht with (⟨_, _, rfl⟩ | ⟨_, _, rfl⟩) | ⟨_, _, rfl⟩ <;> simp

end Course

namespace Registrar

variable {r : Registrar} {c : Connection}

/-- The calls for one app: a look at the host, if the registrar is to take one, and the request. -/
def callsFor (r : Registrar) (c : Connection) (app : App) : List Call :=
  (if r.checksHost then [.probe c] else []) ++ [.register (PluginMeta.ofApp app c r.spaceId)]

/-- The exchanges of a batch over `apps` that took the course `b`. -/
structure Took (r : Registrar) (c : Connection) (b : Course) (log : Log) : Prop where
  calls : log.map Sigma.fst = b.asked.flatMap (r.callsFor c)
  requests : (registrations log).map Prod.fst = b.asked.map (PluginMeta.ofApp · c r.spaceId)
  replies : (registrations log).map Prod.snd = b.replies

/-! ## Every batch takes a course -/

theorem yields_checkHost {log : Log} (h : Yields (r.checkHost c) log ()) :
    log.map Sigma.fst = (if r.checksHost then [.probe c] else []) ∧ registrations log = [] := by
  unfold checkHost at h
  split at h
  · rename_i hc
    obtain ⟨_, _, rfl, hdone⟩ := Dialogue.yields_call_bind.1 h
    obtain ⟨rfl, -⟩ := Dialogue.yields_pure.1 hdone
    simp [hc, registrations, registration?]
  · rename_i hc
    obtain ⟨rfl, -⟩ := Dialogue.yields_pure.1 h
    simp [hc, registrations]

theorem took_nil : Took r c ⟨[], none, [], fun _ => rfl⟩ [] :=
  ⟨rfl, rfl, rfl⟩

/-- The first app is accepted, and the batch goes on. -/
theorem took_cons {app : App} {b : Course} {look log : Log} (hl : Yields (r.checkHost c) look ())
    (h : Took r c b log) : Took r c (b.cons app)
      (look ++ ⟨.register (PluginMeta.ofApp app c r.spaceId), .ok ()⟩ :: log) := by
  obtain ⟨hcalls, hnone⟩ := yields_checkHost hl
  refine ⟨?_, ?_, ?_⟩
  · simp [hcalls, h.calls, Course.cons, Course.asked, callsFor]
  · simp only [registrations_append, hnone, List.nil_append, Course.cons, Course.asked,
      List.cons_append, List.map_cons]
    exact congrArg _ h.requests
  · simp only [registrations_append, hnone, List.nil_append, Course.cons, Course.replies,
      List.cons_append, List.map_cons]
    exact congrArg _ h.replies

/-- The first app is refused, and the batch ends. -/
theorem took_refusal {app : App} {e : ApiError} {rest : List App} {look : Log}
    (hl : Yields (r.checkHost c) look ()) : Took r c (.refusedFirst app e rest)
      (look ++ [⟨.register (PluginMeta.ofApp app c r.spaceId), .error e⟩]) := by
  obtain ⟨hcalls, hnone⟩ := yields_checkHost hl
  refine ⟨?_, ?_, ?_⟩
  · simp [hcalls, Course.refusedFirst, Course.asked, callsFor]
  · simp only [registrations_append, hnone, List.nil_append]; rfl
  · simp only [registrations_append, hnone, List.nil_append]; rfl

theorem yields_registerAll {apps : List App} {log : Log} {tasks : List RegistrationTask}
    (h : Yields (r.registerAll c apps) log tasks) :
    ∃ b : Course, b.apps = apps ∧ b.tasks = tasks ∧ Took r c b log := by
  induction apps generalizing log tasks with
  | nil =>
    obtain ⟨rfl, rfl⟩ := Dialogue.yields_pure.1 h
    exact ⟨⟨[], none, [], fun _ => rfl⟩, rfl, rfl, took_nil⟩
  | cons app rest ih =>
    obtain ⟨look, _, _, rfl, hlook, hask⟩ := Dialogue.yields_bind.1 h
    obtain ⟨reply, _, rfl, hreply⟩ := Dialogue.yields_call_bind.1 hask
    cases reply with
    | ok u =>
      obtain ⟨log₁, _, tasks₁, rfl, hrest, hdone⟩ := Dialogue.yields_bind.1 hreply
      obtain ⟨rfl, rfl⟩ := Dialogue.yields_pure.1 hdone
      obtain ⟨b, rfl, rfl, htook⟩ := ih hrest
      rw [List.append_nil]
      exact ⟨b.cons app, rfl, rfl, took_cons hlook htook⟩
    | error e =>
      obtain ⟨rfl, rfl⟩ := Dialogue.yields_pure.1 hreply
      exact ⟨.refusedFirst app e rest, rfl, rfl, took_refusal hlook⟩

theorem yields_run {plan : RegistrationPlan} {log : Log} {report : RegistrationReport}
    (h : Yields (r.run c plan) log report) :
    ∃ b : Course, b.apps = plan.apps ∧ ⟨b.tasks⟩ = report ∧ Took r c b log := by
  obtain ⟨_, _, tasks, rfl, htasks, hdone⟩ := Dialogue.yields_bind.1 h
  obtain ⟨rfl, rfl⟩ := Dialogue.yields_pure.1 hdone
  obtain ⟨b, hb, rfl, htook⟩ := yields_registerAll htasks
  exact ⟨b, hb, rfl, by rwa [List.append_nil]⟩

/-! ## What a run leaves behind -/

/-- A run of `plan` in which `k` apps were accepted: its report, and its exchanges with the backend
and the host. -/
structure StopsAt (r : Registrar) (c : Connection) (plan : RegistrationPlan) (k : Nat)
    (report : RegistrationReport) (log : Log) : Prop where
  le : k ≤ plan.apps.length
  apps : report.tasks.map (·.app) = plan.apps
  registered : ∀ i < k, (report.tasks[i]?).map (·.status) = some .registered ∧
    ((registrations log)[i]?).map Prod.snd = some (.ok ())
  failed : ∀ app, plan.apps[k]? = some app →
    ∃ e, ((registrations log)[k]?).map Prod.snd = some (.error e) ∧
      report.tasks[k]? = some ⟨app, .failed s!"failed to register '{app.name}': {e.message}"⟩
  skipped : ∀ i, k < i → i < plan.apps.length →
    (report.tasks[i]?).map (·.status) = some .skipped
  settled : ∀ t ∈ report.tasks, t.status ≠ .pending
  requestCount : (registrations log).length = min (k + 1) plan.apps.length
  requests : (registrations log).map Prod.fst =
    (plan.apps.take (k + 1)).map (PluginMeta.ofApp · c r.spaceId)
  /-- Nothing is called but the host and the backend, the host right before each request. -/
  calls : log.map Sigma.fst = (plan.apps.take (k + 1)).flatMap (r.callsFor c)
  isSuccess_iff : report.isSuccess = true ↔ report.failed? = none
  failed?_iff : report.failed? = none ↔ k = plan.apps.length
  succeeded : report.succeeded = plan.apps.take k

theorem Took.stopsAt {plan : RegistrationPlan} {b : Course} {log : Log} (hb : b.apps = plan.apps)
    (h : Took r c b log) : StopsAt r c plan b.accepted.length ⟨b.tasks⟩ log := by
  have hreply : ∀ i : Nat, ((registrations log)[i]?).map Prod.snd = b.replies[i]? := by
    intro i; rw [← h.replies, List.getElem?_map]
  refine ⟨?_, ?_, ?_, ?_, ?_, b.ne_pending, ?_, ?_, ?_, ?_, ?_, ?_⟩
  · rw [← hb]; simp [Course.apps, Course.asked]
  · rw [← hb]; exact b.map_app_tasks
  · intro i hi
    constructor
    · simp [Course.tasks, List.getElem?_append, hi]
    · rw [hreply]; simp [Course.replies, List.getElem?_append, hi]
  · intro app happ
    rw [← hb] at happ
    cases hr : b.refused with
    | none => simp [b.skipped_eq_nil hr, Course.apps, Course.asked, hr] at happ
    | some p =>
      obtain ⟨app', e⟩ := p
      obtain rfl : app' = app := by simpa [Course.apps, Course.asked, hr] using happ
      have htask : b.tasks[b.accepted.length]? = some ⟨app', .failed (refusal app' e)⟩ := by
        simp [Course.tasks, hr]
      have hlast : b.replies[b.accepted.length]? = some (.error e) := by simp [Course.replies, hr]
      exact ⟨e, by rw [hreply, hlast], htask⟩
  · intro i hki hi
    rw [← hb] at hi
    cases hr : b.refused with
    | none =>
      rw [← b.refused_eq_none_iff.1 hr] at hi
      omega
    | some p =>
      simp only [Course.apps, Course.asked, hr, Option.toList_some, List.map_cons, List.map_nil,
        List.length_append, List.length_singleton] at hi
      obtain ⟨j, rfl⟩ := Nat.exists_eq_add_of_lt hki
      have hj : j < b.skipped.length := by omega
      simp [Course.tasks, hr, hj, Nat.add_assoc]
  · rw [← hb, ← List.length_take, b.take_apps, ← b.length_replies, ← h.replies, List.length_map]
  · rw [← hb, b.take_apps]; exact h.requests
  · rw [← hb, b.take_apps]; exact h.calls
  · rw [b.isSuccess_iff, b.failed?_eq, Option.map_eq_none_iff]
  · rw [← hb, b.failed?_eq, Option.map_eq_none_iff, b.refused_eq_none_iff]
  · rw [← hb, b.take_accepted]; exact b.succeeded_eq

/-- **Stop at the first refusal.** Whatever the backend and the host answer, some number `k` of apps
is accepted and the run stops there. -/
theorem run_stopsAt {σ : Type} (r : Registrar) (c : Connection) (plan : RegistrationPlan)
    (peer : Dialogue.Peer Call Call.Reply σ) (s : σ) :
    ∃ k, r.StopsAt c plan k ((r.run c plan).transcript peer s).1
      ((r.run c plan).exchanges peer s) := by
  obtain ⟨b, hb, hreport, htook⟩ := yields_run (Dialogue.yields_transcript peer (r.run c plan) s)
  rw [← hreport]
  exact ⟨b.accepted.length, htook.stopsAt hb⟩

end Registrar
end Workbench
