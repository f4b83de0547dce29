import Workbench.Proofs.Answer
import Workbench.Proofs.Cli.Launch
import Workbench.Proofs.Registration

/-!
# How conversations are carried out

The command line answers the calls of a conversation with files, HTTP exchanges and alerts. None of
this is written on the standard output, and a look at a host posts nothing. A registration posts
its request, unless no request can be made, and then none can be made for any other registration
either, since URL and headers are the same for all of them.

* `answer_silent`, `answer_probe_idle`: what the answers to calls have to do;
* `Backend.request_cases`: either no request can be made, or all can;
* `Posted`: the posts of a batch stand for its registrations, one for one and answered alike;
  `posted_of_relayed` says so of whatever conversation does nothing but register and look at hosts,
  and by `Posted.all_or_none` a batch posts all of its registrations or none.
-/
namespace Workbench

open Dialogue (Relayed Yields)

/-! ## Requests -/

namespace Http

variable {method : Method} {target : String} {authorization cookie : Option String}

/-- Whether a request can be made does not depend on the body. -/
theorem Request.make_body (body : Option Json) :
    Request.make method target authorization cookie body =
      (Request.make method target authorization cookie none).map fun q =>
        { q with body := body.map Json.compact } := by
  unfold Request.make
  cases Url.parse target with
  | error e => rfl
  | ok u =>
    dsimp only
    split
    · rfl
    · split
      · rfl
      · split <;> rfl

theorem Request.method_of_make {body : Option Json} {q : Request}
    (h : Request.make method target authorization cookie body = .ok q) : q.method = method := by
  unfold Request.make at h
  cases hurl : Url.parse target with
  | error e =>
    rw [hurl] at h
    cases h
  | ok u =>
    rw [hurl] at h
    dsimp only at h
    split at h
    · cases h
    · split at h
      · cases h
      · split at h
        · cases h
        · obtain rfl := Except.ok.inj h
          rfl

/-- An exchange sends its request, if there is one. -/
theorem exchange_only {allowed : Request → Prop} {request : Except Failure Request}
    (h : ∀ q, request = .ok q → allowed q) : (exchange request).Only allowed := by
  cases request with
  | error f => exact Dialogue.only_pure _
  | ok q =>
    refine .ask (h q rfl) fun reply => ?_
    cases reply <;> exact Dialogue.only_pure _

end Http

theorem Connection.fetchInfo_gets (c : Connection) : c.fetchInfo.Only fun q => q.method = .get := by
  unfold Connection.fetchInfo
  refine Dialogue.Only.bind (Http.exchange_only fun q hq => ?_) fun answer => ?_
  · exact Http.Request.method_of_make hq
  · cases answer with
    | error f => exact Dialogue.only_pure _
    | ok found =>
      dsimp only
      split <;> exact Dialogue.only_pure _

namespace Backend

/-- Either no request can be made for a path, or all can. -/
theorem request_cases (b : Backend) (path : String) :
    (∃ f, ∀ body, b.request path body = .error f) ∨
      ∀ body, ∃ q, b.request path body = .ok q ∧ q.method = .post := by
  cases h : Http.Request.make .post (b.baseUrl ++ path) (b.token.map ("Bearer " ++ ·)) b.cookie
    none with
  | error f =>
    refine .inl ⟨f, fun body => ?_⟩
    rw [request, Http.Request.make_body, h]
    rfl
  | ok q =>
    refine .inr fun body => ?_
    have hrequest : b.request path body = .ok { q with body := some (Json.compact body) } := by
      rw [request, Http.Request.make_body, h]
      rfl
    exact ⟨_, hrequest, Http.Request.method_of_make hrequest⟩

theorem method_of_registration {b : Backend} {p : PluginMeta} {q : Http.Request}
    (h : b.registration p = .ok q) : q.method = .post := Http.Request.method_of_make h

end Backend

namespace Cli

/-! ## Answers -/

theorem ofHttp_silent {α : Type} (s : Http.Session α) : (Session.ofHttp s).Only Call.IsSilent :=
  (Dialogue.only_true s).relay fun _ _ => Dialogue.only_call trivial

theorem answer_silent (s : Surroundings) (c : Workbench.Call) :
    (answer s c).Only Call.IsSilent := by
  have hfiles {α : Type} (f : Files.Session α) : (Session.ofFiles f).Only Call.IsSilent :=
    (ofFiles_idle f).mono fun _ => Call.IsIdle.isSilent
  cases c with
  | detail | create | save | register | probe => exact ofHttp_silent _
  | pick =>
    simp only [answer]
    exact (hfiles _).bind fun _ => Dialogue.only_pure _
  | download =>
    simp only [answer]
    exact (hfiles _).bind fun _ => Dialogue.only_pure _
  | alert => exact Dialogue.only_call trivial
  | handle => exact Dialogue.only_pure _

theorem converse_silent {α : Type} (s : Surroundings) (t : Talk α) :
    (converse s t).Only Call.IsSilent :=
  (Dialogue.only_true t).relay fun c _ => answer_silent s c

/-- A conversation comes to what it comes to anywhere, and its calls are answered. -/
theorem yields_talk_bind {α β : Type} {s : Settings} {d : Talk α} {f : α → Job β} {t : Trail}
    {r : Except Error β} : Yields (talk s d >>= f).run t r ↔
      ∃ log t₁ t₂ a, t = t₁ ++ t₂ ∧ Yields d log a ∧
        Relayed (answer (surroundings s none none)) log t₁ ∧ Yields (f a).run t₂ r := by
  refine Job.yields_of_bind.trans ?_
  constructor
  · rintro ⟨t₁, t₂, a, rfl, hd, hf⟩
    obtain ⟨log, hd, hrelayed⟩ := Dialogue.yields_relay.1 hd
    exact ⟨log, t₁, t₂, a, rfl, hd, hrelayed, hf⟩
  · rintro ⟨log, t₁, t₂, a, rfl, hd, hrelayed, hf⟩
    exact ⟨t₁, t₂, a, rfl, Dialogue.yields_relay.2 ⟨log, hd, hrelayed⟩, hf⟩

theorem output_of_relayed {s : Surroundings} {log : Log} {t : Trail}
    (h : Relayed (answer s) log t) : t.output = "" := by
  induction h with
  | nil => rfl
  | @cons c _ _ _ _ hcall _ ih =>
    rw [Trail.output_append, ih, Trail.output_of_silent ((answer_silent s c).of_yields hcall),
      String.append_empty]

/-- A look at a host gets something and posts nothing. -/
theorem answer_probe_idle (s : Surroundings) (c : Connection) :
    (answer s (.probe c)).Only Call.IsIdle := by
  simp only [answer]
  exact c.fetchInfo_gets.relay fun _ h => Dialogue.only_call h

/-! ## Registrations -/

theorem relayed_exchanges {log : Http.Exchanges} {t : Trail}
    (h : Relayed (fun q => Session.call (.exchange q)) log t) :
    t = log.map fun x => ⟨.exchange x.1, x.2⟩ := by
  induction h with
  | nil => rfl
  | cons hcall _ ih =>
    rw [Dialogue.yields_call.1 hcall, ih]
    rfl

/-- A registration posts its request, and succeeds if the answer says so. -/
theorem answer_register {s : Surroundings} {p : PluginMeta} {t : Trail}
    {reply : Except ApiError Unit} (h : Yields (answer s (.register p)) t reply) :
    (∃ f, s.backend.registration p = .error f ∧ t = [] ∧ reply.isOk = false) ∨
      ∃ q answer, s.backend.registration p = .ok q ∧ t = [⟨.exchange q, answer⟩] ∧
        reply.isOk = Post.isAccepted ⟨q, answer⟩ := by
  simp only [answer] at h
  obtain ⟨log, hlog, hrelayed⟩ := Dialogue.yields_relay.1 h
  obtain rfl := relayed_exchanges hrelayed
  rcases Backend.register_outcome hlog with ⟨e, rfl, hrejected⟩ | ⟨r, rfl, ⟨q, hresponded⟩, hstatus⟩
  · cases hrejected with
    | lost hnone =>
      cases hnone with
      | unsent hrequest => exact .inl ⟨_, hrequest, rfl, rfl⟩
      | dropped hrequest => exact .inr ⟨_, none, hrequest, rfl, rfl⟩
    | @refused q r hresponded hstatus =>
      obtain ⟨hrequest, rfl⟩ := hresponded
      exact .inr ⟨q, some r, hrequest, rfl, hstatus.symm⟩
  · obtain ⟨hrequest, rfl⟩ := hresponded
    exact .inr ⟨q, some r, hrequest, rfl, hstatus.symm⟩

/-- A call that a batch makes. -/
def OfBatch : Workbench.Call → Prop
  | .register _ | .probe _ => True
  | _ => False

/-- The posts for registrations: one for each, unless its request cannot be made. -/
inductive Posted (b : Backend) : List (PluginMeta × Except ApiError Unit) → List Post → Prop
  | nil : Posted b [] []
  | unsent {p : PluginMeta} {reply : Except ApiError Unit}
      {asked : List (PluginMeta × Except ApiError Unit)} {posts : List Post} {f : Http.Failure}
      (hrequest : b.registration p = .error f) (hreply : reply.isOk = false)
      (rest : Posted b asked posts) : Posted b ((p, reply) :: asked) posts
  | sent {p : PluginMeta} {reply : Except ApiError Unit}
      {asked : List (PluginMeta × Except ApiError Unit)} {x : Post} {posts : List Post}
      (hrequest : b.registration p = .ok x.request) (hreply : reply.isOk = x.isAccepted)
      (rest : Posted b asked posts) : Posted b ((p, reply) :: asked) (x :: posts)

theorem posted_of_relayed {s : Surroundings} {log : Log} {t : Trail}
    (h : Relayed (answer s) log t) (hcalls : ∀ c ∈ log.map Sigma.fst, OfBatch c) :
    Posted s.backend (registrations log) t.posts := by
  induction h with
  | nil => exact .nil
  | @cons c reply log first t hcall _ ih =>
    obtain ⟨hc, hrest⟩ := List.forall_mem_cons.1 hcalls
    rw [Trail.posts_append]
    cases c with
    | probe c =>
      rw [Trail.posts_of_idle ((answer_probe_idle s c).of_yields hcall)]
      exact ih hrest
    | register p =>
      rcases answer_register hcall with ⟨f, hnone, rfl, hreply⟩ | ⟨q, answer, hq, rfl, hreply⟩
      · exact .unsent hnone hreply (ih hrest)
      · have hpost := Backend.method_of_registration hq
        rw [show Trail.posts [⟨.exchange q, answer⟩] = [⟨q, answer⟩] by
          simp [Trail.posts, post?, hpost]]
        exact .sent hq hreply (ih hrest)
    | _ => exact hc.elim

/-- Either every registration was posted and went as the answer says, or none was and none can be.
URL and headers are the same for all of them. -/
theorem Posted.all_or_none {b : Backend} {asked : List (PluginMeta × Except ApiError Unit)}
    {posts : List Post} (h : Posted b asked posts) :
    (asked.map (b.registration ·.1) = posts.map (.ok ·.request) ∧
        asked.map (·.2.isOk) = posts.map Post.isAccepted) ∨
      posts = [] ∧ ∀ x ∈ asked, x.2.isOk = false := by
  rcases b.request_cases Backend.registerPath with ⟨f, hnone⟩ | hall
  · refine .inr ?_
    induction h with
    | nil => exact ⟨rfl, fun _ hx => nomatch hx⟩
    | unsent _ hreply _ ih => exact ⟨ih.1, List.forall_mem_cons.2 ⟨hreply, ih.2⟩⟩
    | sent hrequest => exact nomatch (hnone _).symm.trans hrequest
  · refine .inl ?_
    induction h with
    | nil => exact ⟨rfl, rfl⟩
    | unsent hrequest =>
      obtain ⟨q, hq, -⟩ := hall _
      exact nomatch hq.symm.trans hrequest
    | sent hrequest hreply _ ih =>
      exact ⟨congrArg₂ List.cons hrequest ih.1, congrArg₂ List.cons hreply ih.2⟩

end Cli

end Workbench
