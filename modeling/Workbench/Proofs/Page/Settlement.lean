import Mathlib.Data.List.Forall2
import Workbench.Proofs.Page.Selection
import Workbench.Proofs.Transfer.Run

/-!
# What registering makes of the page

Registering turns the chosen ids into apps, runs a batch over them and settles the page by its
report. An id that several apps bear stands for the first of them in the scan.

* `firstWith_selectedApps`: on a consistent page the batch has, for each chosen id, the first app
  with this id;
* `settled_of_yields`: what registering comes to on a consistent page, whoever answers;
* `register_settles`: the same on the page after any session, against any backend.
-/
namespace Workbench.Page

open Dialogue (Yields Peer)

/-- `app` is the first of `apps` with this id. -/
def FirstWith (apps : List App) (id : String) (app : App) : Prop :=
  app.id = id ∧ ∃ before after, apps = before ++ app :: after ∧ ∀ other ∈ before, other.id ≠ id

/-- How a batch over the apps of `plan` leaves the page `p`. -/
structure Batch (p : Page) (r : Registrar) (now : Int64) (plan : RegistrationPlan) (log : Log)
    (q : Page) (result : Except AppsError RegistrationReport) (report : RegistrationReport) :
    Prop where
  chosen : List.Forall₂ (FirstWith p.scanned) p.selected plan.apps
  stopsAt : ∃ k, r.StopsAt p.connection plan k report log
  /-- The backend has accepted every app. -/
  accepted : (∀ x ∈ registrations log, x.2 = .ok ()) →
    (registrations log).map Prod.fst = plan.apps.map (PluginMeta.ofApp · p.connection r.spaceId) ∧
      result = .ok report ∧ q.selected = [] ∧ q.state = .registered ∧
      q.imported = p.imported ++ plan.apps.map fun app => ⟨app, app.name, now⟩
  /-- The backend has rejected the app at the place `k`. -/
  rejected : ∀ k e, ((registrations log)[k]?).map Prod.snd = some (.error e) →
    result = .error (.batchFailed report) ∧ q.selected = p.selected ∧ q.state = .scanned ∧
      q.imported = p.imported ++ (plan.apps.take k).map fun app => ⟨app, app.name, now⟩

/-- What registering with a valid connection makes of the page `p`. -/
structure Settled (p : Page) (r : Registrar) (now : Int64) (log : Log) (q : Page)
    (result : Except AppsError RegistrationReport) : Prop where
  scanned_eq : q.scanned = p.scanned
  connection_eq : q.connection = p.connection
  empty_iff : result = .error .emptySelection ↔ p.selected = []
  unasked : p.selected = [] → log = [] ∧ q = p
  batch : p.selected ≠ [] → ∃ plan report, Batch p r now plan log q result report

/-! ## The chosen apps -/

theorem firstWith_of_find? {apps : List App} {id : String} {app : App}
    (h : apps.find? (·.id == id) = some app) : FirstWith apps id app := by
  obtain ⟨hid, before, after, rfl, hbefore⟩ := List.find?_eq_some_iff_append.1 h
  exact ⟨eq_of_beq hid, before, after, rfl, fun other hother => by simpa using hbefore other hother⟩

/-- Each id finds the first app that bears it. -/
theorem firstWith_filterMap_find {scanned : List App} {ids : List String}
    (h : ∀ id ∈ ids, ∃ app ∈ scanned, app.id = id) :
    List.Forall₂ (FirstWith scanned) ids
      (ids.filterMap fun id => scanned.find? (·.id == id)) := by
  induction ids with
  | nil => exact .nil
  | cons id ids ih =>
    obtain ⟨hid, hids⟩ := List.forall_mem_cons.1 h
    obtain ⟨app, happ⟩ := exists_find?_of_mem hid
    rw [List.filterMap_cons, happ]
    exact .cons (firstWith_of_find? happ) (ih hids)

theorem firstWith_selectedApps {p : Page} (h : Consistent p) :
    List.Forall₂ (FirstWith p.scanned) p.selected p.selectedApps :=
  firstWith_filterMap_find h.selected_scanned

theorem selectedApps_eq_nil {p : Page} (h : Consistent p) :
    p.selectedApps = [] ↔ p.selected = [] := by
  rw [← List.map_eq_nil_iff (f := App.id), ids_selectedApps h]

/-! ## The page after a batch -/

variable {p : Page} {r : Registrar} {c : Connection} {b : Course} {log : Log} {now : Int64}

theorem imported_withReport (p : Page) (b : Course) (now : Int64) :
    (p.withReport ⟨b.tasks⟩ now).imported =
      p.imported ++ b.accepted.map fun app => ⟨app, app.name, now⟩ := by
  simp only [withReport, ledger, b.succeeded_eq]

theorem withReport_of_accepted (hnone : b.refused = none) :
    (p.withReport ⟨b.tasks⟩ now).selected = [] ∧
      (p.withReport ⟨b.tasks⟩ now).state = .registered := by
  simp only [withReport, b.isSuccess_iff.2 hnone, if_true, and_self]

theorem withReport_of_rejected (hsome : b.refused ≠ none) :
    (p.withReport ⟨b.tasks⟩ now).selected = p.selected ∧
      (p.withReport ⟨b.tasks⟩ now).state = .scanned := by
  have hfailed : RegistrationReport.isSuccess ⟨b.tasks⟩ = false := by
    rw [← Bool.not_eq_true, b.isSuccess_iff]
    exact hsome
  simp only [withReport, hfailed, Bool.false_eq_true, if_false, and_self]

/-- If every request was answered well, no app was refused. -/
theorem refused_eq_none_of_replies (h : r.Took c b log)
    (hok : ∀ x ∈ registrations log, x.2 = .ok ()) : b.refused = none := by
  cases hr : b.refused with
  | none => rfl
  | some refusal =>
    obtain ⟨app, e⟩ := refusal
    have hmem : (.error e : Except ApiError Unit) ∈ (registrations log).map Prod.snd := by
      rw [h.replies]
      simp [Course.replies, hr]
    obtain ⟨x, hx, heq⟩ := List.mem_map.1 hmem
    rw [hok x hx] at heq
    cases heq

/-- A request that was answered with an error was the one after those that were accepted. -/
theorem refused_of_reply (h : r.Took c b log) {k : Nat} {e : ApiError}
    (hreply : ((registrations log)[k]?).map Prod.snd = some (.error e)) :
    b.refused ≠ none ∧ k = b.accepted.length := by
  rw [← List.getElem?_map, h.replies, Course.replies, List.getElem?_append] at hreply
  split at hreply
  · rw [List.getElem?_map] at hreply
    obtain ⟨app, -, happ⟩ := Option.map_eq_some_iff.1 hreply
    cases happ
  · rename_i hle
    rw [List.length_map, Nat.not_lt] at hle
    cases hr : b.refused with
    | none =>
      rw [hr] at hreply
      cases hreply
    | some refusal =>
      rw [hr] at hreply
      obtain ⟨hlt, -⟩ := List.getElem?_eq_some_iff.1 hreply
      rw [List.length_map, List.length_map] at hlt
      refine ⟨Option.some_ne_none _, ?_⟩
      simp at hlt
      omega

theorem batch_of_took {plan : RegistrationPlan} {result : Except AppsError RegistrationReport}
    (hp : Consistent p) (hplan : plan.apps = p.selectedApps) (happs : b.apps = plan.apps)
    (htook : r.Took p.connection b log)
    (hresult : result =
      if b.refused = none then .ok ⟨b.tasks⟩ else .error (.batchFailed ⟨b.tasks⟩)) :
    Batch p r now plan log (p.withReport ⟨b.tasks⟩ now) result ⟨b.tasks⟩ where
  chosen := hplan ▸ firstWith_selectedApps hp
  stopsAt := ⟨_, htook.stopsAt happs⟩
  accepted := by
    intro hok
    have hnone := refused_eq_none_of_replies htook hok
    have hall : b.accepted = plan.apps := by
      rw [← happs, Course.apps, Course.asked, hnone, b.skipped_eq_nil hnone]
      simp
    have hrequests := htook.requests
    rw [Course.asked, hnone, hall, Option.toList_none, List.map_nil, List.append_nil] at hrequests
    rw [if_pos hnone] at hresult
    exact ⟨hrequests, hresult, (withReport_of_accepted hnone).1, (withReport_of_accepted hnone).2,
      hall ▸ imported_withReport p b now⟩
  rejected := by
    intro k e hreply
    obtain ⟨hsome, rfl⟩ := refused_of_reply htook hreply
    rw [if_neg hsome] at hresult
    rw [← happs, b.take_accepted]
    exact ⟨hresult, (withReport_of_rejected hsome).1, (withReport_of_rejected hsome).2,
      imported_withReport p b now⟩

theorem settled_of_yields {q : Page} {result : Except AppsError RegistrationReport}
    (hp : Consistent p) (hv : p.connection.validate = .ok ())
    (h : Yields (p.register r now) log (q, result)) : Settled p r now log q result := by
  rcases yields_register h with
    ⟨rfl, rfl, ⟨e, he, -⟩ | ⟨-, hempty, rfl⟩⟩ | ⟨-, b, happs, hne, htook, rfl, hresult⟩
  · rw [hv] at he
    cases he
  · have hnone := (selectedApps_eq_nil hp).1 hempty
    exact ⟨rfl, rfl, iff_of_true rfl hnone, fun _ => ⟨rfl, rfl⟩, fun h => absurd hnone h⟩
  · have hsome : p.selected ≠ [] := fun hnone => hne (happs.trans ((selectedApps_eq_nil hp).2 hnone))
    refine ⟨rfl, rfl, iff_of_false ?_ hsome, fun h => absurd h hsome, fun _ => ?_⟩
    · rw [hresult]
      split <;> simp
    · exact ⟨⟨b.apps, hne⟩, ⟨b.tasks⟩, batch_of_took hp happs rfl htook hresult⟩

/-- **Registering settles the page by what the backend accepts.** On the page after any session, if
its connection is valid, and against any backend. -/
theorem register_settles {σ τ : Type} (c : Connection) (ops : List Op)
    (peer : Peer Call Call.Reply σ) (s : σ) {p : Page}
    (hp : (((start c).session ops).transcript peer s).1 = p)
    (hv : p.connection.validate = .ok ()) (r : Registrar) (now : Int64)
    (backend : Peer Call Call.Reply τ) (t : τ) :
    Settled p r now ((p.register r now).exchanges backend t)
      ((p.register r now).transcript backend t).1.1
      ((p.register r now).transcript backend t).1.2 := by
  have hconsistent : Consistent p := by
    rw [← hp]
    exact session_invariant consistent_change peer (consistent_start c) ops s
  have hyields := Dialogue.yields_transcript backend (p.register r now) t
  generalize ((p.register r now).transcript backend t).1 = outcome at hyields ⊢
  obtain ⟨q, result⟩ := outcome
  exact settled_of_yields hconsistent hv hyields

/-! ## A batch that stops half-way -/

def plainApp (id name : String) : App := ⟨id, name, "", .chat, none⟩

/-- Two apps share an id, and the later of the chosen ids is theirs. -/
def twinSession : List Op :=
  [.scan (.fixed [plainApp "app-a" "First", plainApp "app-a" "Twin", plainApp "app-b" "Other"]),
    .toggle "app-b", .toggle "app-a"]

def twinPage : Page where
  connection := ⟨"http://dify.test", "app-one"⟩
  state := .scanned
  scanned := [plainApp "app-a" "First", plainApp "app-a" "Twin", plainApp "app-b" "Other"]
  selected := ["app-b", "app-a"]
  imported := []

/-- A backend that rejects one app. -/
def rejecting (name : String) : Peer Call Call.Reply Unit
  | .register request, s =>
    (if request.name = name then .error (.status 500 "rejected") else .ok (), s)
  | c, s => obliging none ⟨"", []⟩ c s

/-- The first of the twins is sent and rejected, behind an app that is accepted. -/
theorem register_settles_twins :
    (((start twinPage.connection).session twinSession).transcript
        (obliging none ⟨"", []⟩) ()).1 = twinPage ∧
      twinPage.connection.validate = .ok () ∧
      Settled twinPage ⟨false, none⟩ 5
        ((twinPage.register ⟨false, none⟩ 5).exchanges (rejecting "First") ())
        { twinPage with imported := [⟨plainApp "app-b" "Other", "Other", 5⟩] }
        (.error (.batchFailed ⟨[⟨plainApp "app-b" "Other", .registered⟩,
          ⟨plainApp "app-a" "First", .failed "failed to register 'First': HTTP 500: rejected"⟩]⟩)) :=
  have hpage : (((start twinPage.connection).session twinSession).transcript
      (obliging none ⟨"", []⟩) ()).1 = twinPage := by decide +kernel
  have hvalid : twinPage.connection.validate = .ok () := by decide +kernel
  have hsettled := register_settles twinPage.connection twinSession (obliging none ⟨"", []⟩) ()
    hpage hvalid ⟨false, none⟩ 5 (rejecting "First") ()
  ⟨hpage, hvalid, hsettled⟩

end Workbench.Page
