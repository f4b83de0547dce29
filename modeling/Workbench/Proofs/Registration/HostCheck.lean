import Workbench.Proofs.Page.Ledger

/-!
# The look at the host

A registrar that looks at the host before each request learns nothing from it: neither what it asks
the backend for nor what it reports depends on what the host says, or on whether the host is looked
at in the first place.

This compares two batches whose calls are interleaved differently. Both are held against the course
that the backend decides alone, `PluginBackend.course`, which no host has a part in.

* `PluginBackend.eq_course`: answers that come from the backend are those of the course it decides;
* `registering_ignores_host`: in company of any two hosts, looked at or not, batches end with the
  same report after the same registrations, and so do operations on the page.
-/
namespace Workbench

open Dialogue (Peer)

/-- A backend that goes by the requests that it has received: those before this one, and this. -/
abbrev PluginBackend := List PluginMeta → PluginMeta → Except ApiError Unit

namespace PluginBackend

variable {σ α : Type} (answer : PluginBackend)

/-- The backend together with a host, which may watch everything and answers whatever it likes. -/
def beside (host : Peer Call Call.Reply σ) : Peer Call Call.Reply (List PluginMeta × σ)
  | .register request, (seen, s) =>
    (answer seen request, seen ++ [request], (host (.register request) s).2)
  | c, (seen, s) => ((host c s).1, seen, (host c s).2)

/-- Each reply is what the backend answers after the requests before it. -/
def Gave : List PluginMeta → List (PluginMeta × Except ApiError Unit) → Prop
  | _, [] => True
  | seen, (request, reply) :: rest => reply = answer seen request ∧ Gave (seen ++ [request]) rest

theorem gave_exchanges (host : Peer Call Call.Reply σ) (d : Talk α) (seen : List PluginMeta)
    (s : σ) : answer.Gave seen (registrations (d.exchanges (answer.beside host) (seen, s))) := by
  induction d generalizing seen s with
  | done a => trivial
  | ask c next ih =>
    cases c with
    | register request => exact ⟨rfl, ih _ _ _⟩
    | _ => exact ih _ _ _

/-! ## The course that a backend decides -/

/-- What becomes of a batch over `apps`, for which the backend is asked with `request`. -/
def course (request : App → PluginMeta) : List PluginMeta → List App → Course
  | _, [] => ⟨[], none, [], fun _ => rfl⟩
  | seen, app :: rest =>
    match answer seen (request app) with
    | .ok () => (course request (seen ++ [request app]) rest).cons app
    | .error e => .refusedFirst app e rest

theorem eq_course (request : App → PluginMeta) {seen : List PluginMeta} {b : Course}
    (h : answer.Gave seen
      (b.accepted.map (fun app => (request app, .ok ())) ++
        b.refused.toList.map fun (app, e) => (request app, .error e))) :
    b = answer.course request seen b.apps := by
  obtain ⟨accepted, refused, skipped, hskipped⟩ := b
  induction accepted generalizing seen with
  | nil =>
    cases refused with
    | none =>
      obtain rfl := hskipped rfl
      rfl
    | some p =>
      obtain ⟨hreply, -⟩ := h
      show _ = course answer request seen (p.1 :: skipped)
      rw [course, ← hreply]
      rfl
  | cons app accepted ih =>
    obtain ⟨hreply, hrest⟩ := h
    show _ = course answer request seen (app :: Course.apps ⟨accepted, refused, skipped, hskipped⟩)
    rw [course, ← hreply]
    dsimp only
    rw [← ih hrest]
    rfl

end PluginBackend

/-! ## Two batches with one backend -/

section

variable {answer : PluginBackend} {seen : List PluginMeta} {c : Connection} {r r' : Registrar}
  {b b' : Course} {log log' : Log}

/-- Batches over the same apps for the same space, with the same backend, take one course. -/
theorem Registrar.Took.same_course (h : r.Took c b log) (h' : r'.Took c b' log')
    (hspace : r.spaceId = r'.spaceId) (hgave : answer.Gave seen (registrations log))
    (hgave' : answer.Gave seen (registrations log')) (happs : b.apps = b'.apps) :
    b = b' ∧ registrations log = registrations log' := by
  have hlog := Page.registrations_took h
  have hlog' := Page.registrations_took h'
  rw [hlog] at hgave
  rw [hlog', ← hspace] at hgave'
  have hcourse := answer.eq_course (PluginMeta.ofApp · c r.spaceId) hgave
  have hcourse' := answer.eq_course (PluginMeta.ofApp · c r.spaceId) hgave'
  obtain rfl : b = b' := by rw [hcourse, hcourse', happs]
  exact ⟨rfl, by rw [hlog, hlog', hspace]⟩

end

namespace Talk

variable {σ α β : Type}

/-- What a conversation comes to, and the registrations that it makes on the way. -/
def registering (d : Talk α) (peer : Peer Call Call.Reply σ) (s : σ) :
    α × List (PluginMeta × Except ApiError Unit) :=
  ((d.transcript peer s).1, registrations (d.exchanges peer s))

/-- What is worked out at the end needs no more registrations. -/
theorem registering_bind_pure (d : Talk α) (f : α → β) (peer : Peer Call Call.Reply σ) (s : σ) :
    registering (d >>= fun a => pure (f a)) peer s = (registering d peer s).map f id := by
  simp only [registering, Dialogue.transcript_bind, Dialogue.exchanges_bind, Prod.map, id]
  exact congrArg (Prod.mk _) (congrArg registrations (List.append_nil _))

end Talk

/-- Registering on a page either fails before anyone is called, or adds to what a batch reports. -/
theorem Page.register_eq (p : Page) (now : Int64) : (∃ x, ∀ r, p.register r now = pure x) ∨
    ∃ plan, ∃ f : RegistrationReport → Page × Except AppsError RegistrationReport,
      ∀ r, p.register r now = r.run p.connection plan >>= fun report => pure (f report) := by
  cases hv : p.connection.validate with
  | error e => exact .inl ⟨_, fun r => by simp only [register, hv]; rfl⟩
  | ok u =>
    cases hplan : RegistrationPlan.ofApps? p.selectedApps with
    | none => exact .inl ⟨_, fun r => by simp only [register, hv, hplan]; rfl⟩
    | some plan => exact .inr ⟨plan, _, fun r => by simp only [register, hv, hplan]; rfl⟩

section Hosts

variable {σ τ : Type} (backend : PluginBackend) (host : Peer Call Call.Reply σ)
  (host' : Peer Call Call.Reply τ) (spaceId : Option String) (checks checks' : Bool)
  (seen : List PluginMeta) (s : σ) (s' : τ)

theorem run_ignores_host (c : Connection) (plan : RegistrationPlan) :
    Talk.registering (Registrar.run ⟨checks, spaceId⟩ c plan) (backend.beside host) (seen, s) =
      Talk.registering (Registrar.run ⟨checks', spaceId⟩ c plan) (backend.beside host')
        (seen, s') := by
  obtain ⟨b, hb, hreport, htook⟩ := Registrar.yields_run
    (Dialogue.yields_transcript (backend.beside host) (Registrar.run ⟨checks, spaceId⟩ c plan)
      (seen, s))
  obtain ⟨b', hb', hreport', htook'⟩ := Registrar.yields_run
    (Dialogue.yields_transcript (backend.beside host') (Registrar.run ⟨checks', spaceId⟩ c plan)
      (seen, s'))
  obtain ⟨rfl, hregistrations⟩ := htook.same_course htook' rfl
    (backend.gave_exchanges host _ seen s) (backend.gave_exchanges host' _ seen s')
    (hb.trans hb'.symm)
  exact Prod.ext (hreport.symm.trans hreport') hregistrations

/-- **The host has no say.** With a backend that goes by the requests alone, a batch comes to the
same report and registers the same, whatever the host says and whether or not it is looked at. So
does an operation on the page, which leaves the same page behind. -/
theorem registering_ignores_host :
    (∀ c plan,
      Talk.registering (Registrar.run ⟨checks, spaceId⟩ c plan) (backend.beside host) (seen, s) =
        Talk.registering (Registrar.run ⟨checks', spaceId⟩ c plan) (backend.beside host')
          (seen, s')) ∧
    ∀ (p : Page) now,
      Talk.registering (p.register ⟨checks, spaceId⟩ now) (backend.beside host) (seen, s) =
        Talk.registering (p.register ⟨checks', spaceId⟩ now) (backend.beside host')
          (seen, s') := by
  have hrun := run_ignores_host backend host host' spaceId checks checks' seen s s'
  refine ⟨hrun, fun p now => ?_⟩
  rcases p.register_eq now with ⟨x, hx⟩ | ⟨plan, f, hf⟩
  · rw [hx, hx]
    rfl
  · rw [hf, hf, Talk.registering_bind_pure, Talk.registering_bind_pure, hrun]

end Hosts

end Workbench
