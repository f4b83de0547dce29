import Workbench.Cli.Run
import Workbench.Proofs.Dialogue.Relay

/-!
# Launches of the program

A launch is one run of the program: what it is given, and who answers it. What can be told from
outside is its exit status, the text on the standard output, and the requests that were posted.

* `Job.yields_bind`, `Job.yields_get` and so on take a job apart: it goes on, or stops with an
  error;
* `Call.IsSilent` and `Call.IsIdle` are the calls that write nothing on the standard output, and
  that neither write there nor post anything;
* `Launch.exists_yields_job`: a launch shows what the job of its command shows, with the settings as
  they were found;
* `Launch.stage_cases`: a job with an idle first stage shows what the rest of it shows.
-/
namespace Workbench.Cli

open Dialogue (Exchange Only Peer Yields)

/-! ## What a session leaves behind -/

abbrev Trail := List (Exchange Call Call.Reply)

/-- A request that was posted, with what came back for it. -/
structure Post where
  request : Http.Request
  answer : Option Http.Response
  deriving DecidableEq

/-- The answer came, with a status of success. -/
def Post.isAccepted (p : Post) : Bool := p.answer.any Http.Response.isSuccess

def printed? : Exchange Call Call.Reply → Option String
  | ⟨.print text, _⟩ => some text
  | _ => none

def post? : Exchange Call Call.Reply → Option Post
  | ⟨.exchange q, answer⟩ => if q.method = .post then some ⟨q, answer⟩ else none
  | _ => none

namespace Trail

/-- What was written on the standard output. -/
def output (t : Trail) : String := String.join (t.filterMap printed?)

def posts (t : Trail) : List Post := t.filterMap post?

theorem output_append (t t' : Trail) : output (t ++ t') = output t ++ output t' := by
  rw [output, List.filterMap_append, String.join_append]
  rfl

theorem posts_append (t t' : Trail) : posts (t ++ t') = posts t ++ posts t' :=
  List.filterMap_append

end Trail

/-- Writes nothing on the standard output. -/
def Call.IsSilent : Call → Prop
  | .print _ => False
  | _ => True

/-- Neither writes on the standard output nor posts anything. -/
def Call.IsIdle : Call → Prop
  | .print _ => False
  | .exchange q => q.method = .get
  | _ => True

theorem Call.IsIdle.isSilent {c : Call} (h : c.IsIdle) : c.IsSilent := by
  cases c with
  | print => exact h
  | _ => trivial

namespace Trail

variable {t : Trail}

theorem output_of_silent (h : ∀ x ∈ t, x.1.IsSilent) : t.output = "" := by
  have hnone : t.filterMap printed? = [] := by
    refine List.filterMap_eq_nil_iff.2 fun x hx => ?_
    have hsilent := h x hx
    obtain ⟨c, r⟩ := x
    cases c with
    | print => exact hsilent.elim
    | _ => rfl
  rw [output, hnone]
  rfl

theorem posts_of_idle (h : ∀ x ∈ t, x.1.IsIdle) : t.posts = [] := by
  refine List.filterMap_eq_nil_iff.2 fun x hx => ?_
  have hidle := h x hx
  obtain ⟨c, r⟩ := x
  cases c with
  | exchange q =>
    have hget : q.method = .get := hidle
    simp [post?, hget]
  | _ => rfl

end Trail

/-! ## Jobs -/

namespace Job

variable {α β ε : Type} {j : Job α} {f : α → Job β} {t : Trail}

/-- A job goes on with a result or stops with an error. -/
theorem yields_bind {r : Except Error β} : Yields (j >>= f).run t r ↔
    (∃ e, Yields j.run t (.error e) ∧ r = .error e) ∨
      ∃ t₁ t₂ a, t = t₁ ++ t₂ ∧ Yields j.run t₁ (.ok a) ∧ Yields (f a).run t₂ r := by
  rw [ExceptT.run_bind, Dialogue.yields_bind]
  constructor
  · rintro ⟨t₁, t₂, e | a, rfl, hj, hf⟩
    · obtain ⟨rfl, rfl⟩ := Dialogue.yields_pure.1 hf
      exact .inl ⟨e, by rwa [List.append_nil], rfl⟩
    · exact .inr ⟨t₁, t₂, a, rfl, hj, hf⟩
  · rintro (⟨e, hj, rfl⟩ | ⟨t₁, t₂, a, rfl, hj, hf⟩)
    · exact ⟨t, [], _, (List.append_nil t).symm, hj, .done _⟩
    · exact ⟨t₁, t₂, _, rfl, hj, hf⟩

theorem yields_pure {a : α} {r : Except Error α} :
    Yields (pure a : Job α).run t r ↔ t = [] ∧ r = .ok a := Dialogue.yields_pure

theorem yields_throw {e : Error} {r : Except Error α} :
    Yields (throw e : Job α).run t r ↔ t = [] ∧ r = .error e := Dialogue.yields_pure

theorem yields_of {s : Session α} {r : Except Error α} :
    Yields (Job.of s).run t r ↔ ∃ a, Yields s t a ∧ r = .ok a :=
  Dialogue.yields_bind_pure fun _ => rfl

/-- A session does not stop the job. -/
theorem yields_of_bind {s : Session α} {r : Except Error β} :
    Yields (Job.of s >>= f).run t r ↔
      ∃ t₁ t₂ a, t = t₁ ++ t₂ ∧ Yields s t₁ a ∧ Yields (f a).run t₂ r := by
  rw [yields_bind]
  constructor
  · rintro (⟨e, hs, -⟩ | ⟨t₁, t₂, a, rfl, hs, hf⟩)
    · obtain ⟨_, -, ⟨⟩⟩ := yields_of.1 hs
    · obtain ⟨_, hs, ⟨⟩⟩ := yields_of.1 hs
      exact ⟨t₁, t₂, _, rfl, hs, hf⟩
  · rintro ⟨t₁, t₂, a, rfl, hs, hf⟩
    exact .inr ⟨t₁, t₂, a, rfl, yields_of.2 ⟨a, hs, rfl⟩, hf⟩

theorem get_bind_get {γ : Type} {wrap : ε → Error} {x : Except ε α} {g : α → Except ε γ} :
    (Job.get wrap x >>= fun a => Job.get wrap (g a)) = Job.get wrap (x >>= g) := by
  cases x <;> rfl

theorem yields_get {wrap : ε → Error} {x : Except ε α} {r : Except Error α} :
    Yields (Job.get wrap x).run t r ↔ t = [] ∧ r = x.mapError wrap := by
  cases x <;> exact Dialogue.yields_pure

theorem yields_get_ok {wrap : ε → Error} {x : Except ε α} {a : α} :
    Yields (Job.get wrap x).run t (.ok a) ↔ t = [] ∧ x = .ok a := by
  constructor
  · intro h
    obtain ⟨rfl, hx⟩ := yields_get.1 h
    cases x with
    | ok b =>
      cases hx
      exact ⟨rfl, rfl⟩
    | error e => cases hx
  · rintro ⟨rfl, rfl⟩
    exact yields_get.2 ⟨rfl, rfl⟩

theorem yields_print {text : String} {r : Except Error Unit} :
    Yields (Job.print text).run t r ↔ t = [⟨.print text, ()⟩] ∧ r = .ok () := by
  refine yields_of.trans ?_
  constructor
  · rintro ⟨_, hprint, rfl⟩
    exact ⟨Dialogue.yields_call.1 hprint, rfl⟩
  · rintro ⟨rfl, rfl⟩
    exact ⟨(), Dialogue.yields_call.2 rfl, rfl⟩

theorem output_print {text : String} {r : Except Error Unit}
    (h : Yields (Job.print text).run t r) : t.output = text ∧ t.posts = [] ∧ r = .ok () := by
  obtain ⟨rfl, rfl⟩ := yields_print.1 h
  exact ⟨by simp [Trail.output, printed?], rfl, rfl⟩

section Only

variable {allowed : Call → Prop}

theorem only_bind (hj : Only allowed j.run) (hf : ∀ a, Only allowed (f a).run) :
    Only allowed (j >>= f).run := by
  rw [ExceptT.run_bind]
  refine hj.bind fun r => ?_
  cases r with
  | ok a => exact hf a
  | error e => exact Dialogue.only_pure _

theorem only_of {s : Session α} (h : Only allowed s) : Only allowed (Job.of s).run :=
  h.bind fun _ => Dialogue.only_pure _

theorem only_get {wrap : ε → Error} {x : Except ε α} : Only allowed (Job.get wrap x).run := by
  cases x <;> exact Dialogue.only_pure _

end Only

end Job

/-! ## What is idle -/

theorem ofFiles_idle {α : Type} (s : Files.Session α) : (Session.ofFiles s).Only Call.IsIdle :=
  (Dialogue.only_true s).relay fun _ _ => Dialogue.only_call trivial

theorem loadSettings_idle (path : Option String) : (loadSettings path).Only Call.IsIdle := by
  cases path with
  | none => exact Dialogue.only_pure _
  | some path =>
    refine (ofFiles_idle _).bind fun isThere => ?_
    split
    · refine (ofFiles_idle _).bind fun contents => ?_
      cases contents <;> exact Dialogue.only_pure _
    · exact Dialogue.only_pure _

theorem idle_exchanges {α σ : Type} {s : Session α} (h : s.Only Call.IsIdle)
    (peer : Peer Call Call.Reply σ) (state : σ) :
    Trail.output (s.exchanges peer state) = "" ∧ Trail.posts (s.exchanges peer state) = [] := by
  have hidle := h.of_yields (Dialogue.yields_transcript peer s state)
  exact ⟨Trail.output_of_silent fun x hx => (hidle x hx).isSilent, Trail.posts_of_idle hidle⟩

/-! ## Launches -/

/-- One run of the program: what it is given, and who answers it from which state on. -/
structure Launch (σ : Type) where
  env : String → Option String
  now : Instant
  arguments : List String
  peer : Peer Call Call.Reply σ
  start : σ

/-- A world whose files stay as they are and whose hosts answer each request by itself. -/
def steady (files : String → Option (List UInt8)) (hosts : Http.Request → Option Http.Response) :
    Peer Call Call.Reply Unit
  | .files (.read path), s => ((files path).elim (.error .notFound) .ok, s)
  | .files (.write _ _), s => (.ok (), s)
  | .files (.makeDirectories _), s => (.ok (), s)
  | .files (.doesExist path), s => ((files path).isSome, s)
  | .exchange q, s => (hosts q, s)
  | .print _, s => ((), s)
  | .notify _, s => ((), s)

/-- The status with which a job ends. -/
def exitStatus : Except Error Unit → Nat
  | .ok () => 0
  | .error _ => 1

/-- What is left to do after the job of a command. -/
def finish : Except Error Unit → Session Nat
  | .ok () => return 0
  | .error e => do
    Session.notify e.text
    return 1

theorem finish_idle (r : Except Error Unit) : (finish r).Only Call.IsIdle := by
  cases r with
  | ok => exact Dialogue.only_pure _
  | error e => exact (Dialogue.only_call trivial).bind fun _ => Dialogue.only_pure _

theorem status_finish {σ : Type} (peer : Peer Call Call.Reply σ) (s : σ) (r : Except Error Unit) :
    ((finish r).transcript peer s).1 = exitStatus r := by
  cases r <;> rfl

namespace Launch

variable {σ : Type} (o : Launch σ) {i : Invocation}

def status : Nat := ((run o.env o.now o.arguments).transcript o.peer o.start).1

def trail : Trail := (run o.env o.now o.arguments).exchanges o.peer o.start

def output : String := o.trail.output

def posts : List Post := o.trail.posts

/-- The arguments make sense, and ask for `i`. -/
def AsksFor (i : Invocation) : Prop := Invocation.parse o.env o.arguments = .ok i

/-- Where the settings are looked for. -/
def place (i : Invocation) : Option String := i.settingsPath.or (standardPath o.env)

/-- The settings as they were found, with what the arguments say about the backend. -/
def settings (i : Invocation) : Settings :=
  ((loadSettings (o.place i)).transcript o.peer o.start).1.withBackend i.backendUrl i.token

/-- The state in which the look for settings leaves the peer. -/
def ready (i : Invocation) : σ := ((loadSettings (o.place i)).transcript o.peer o.start).2.2

/-- What the command has to do. -/
def job (i : Invocation) : Job Unit := execute (o.settings i) (o.place i) o.now i

theorem run_eq (h : o.AsksFor i) : run o.env o.now o.arguments =
    loadSettings (o.place i) >>= fun s =>
      (execute (s.withBackend i.backendUrl i.token) (o.place i) o.now i).run >>= finish := by
  unfold run
  rw [h]
  rfl

theorem trail_eq (h : o.AsksFor i) : ∃ before after : Trail,
    o.trail = before ++ ((o.job i).run.exchanges o.peer (o.ready i) ++ after) ∧
      (before.output = "" ∧ before.posts = []) ∧ after.output = "" ∧ after.posts = [] := by
  refine ⟨_, _, ?_, idle_exchanges (loadSettings_idle (o.place i)) o.peer o.start,
    idle_exchanges (finish_idle ((o.job i).run.transcript o.peer (o.ready i)).1) o.peer
      ((o.job i).run.transcript o.peer (o.ready i)).2.2⟩
  rw [trail, o.run_eq h, Dialogue.exchanges_bind, Dialogue.exchanges_bind]
  rfl

/-- A launch shows what its job shows. -/
theorem shows_job (h : o.AsksFor i) :
    o.output = Trail.output ((o.job i).run.exchanges o.peer (o.ready i)) ∧
      o.posts = Trail.posts ((o.job i).run.exchanges o.peer (o.ready i)) ∧
        o.status = exitStatus ((o.job i).run.transcript o.peer (o.ready i)).1 := by
  obtain ⟨before, after, htrail, ⟨hout, hposts⟩, hout', hposts'⟩ := o.trail_eq h
  refine ⟨?_, ?_, ?_⟩
  · rw [output, htrail, Trail.output_append, Trail.output_append, hout, hout',
      String.empty_append, String.append_empty]
  · rw [posts, htrail, Trail.posts_append, Trail.posts_append, hposts, hposts', List.nil_append,
      List.append_nil]
  · rw [status, o.run_eq h, Dialogue.transcript_bind, Dialogue.transcript_bind, status_finish]
    rfl

/-- What holds of whatever the job of a command yields, holds of a launch. -/
theorem exists_yields_job (h : o.AsksFor i) : ∃ (t : Trail) (r : Except Error Unit),
    Yields (o.job i).run t r ∧ o.output = t.output ∧ o.posts = t.posts ∧
      o.status = exitStatus r :=
  ⟨_, _, Dialogue.yields_transcript o.peer (o.job i).run (o.ready i), o.shows_job h⟩

/-- What the first stage of the command comes to. -/
def outcome {α : Type} (i : Invocation) (stage : Job α) : Except Error α :=
  (stage.run.transcript o.peer (o.ready i)).1

theorem yields_outcome {α : Type} (i : Invocation) (stage : Job α) :
    ∃ t, Yields stage.run t (o.outcome i stage) :=
  ⟨_, Dialogue.yields_transcript o.peer stage.run (o.ready i)⟩

theorem outcome_map {α β : Type} (i : Invocation) (stage : Job α) (f : α → β) :
    o.outcome i (f <$> stage) = (o.outcome i stage).map f := by
  have hmap : (f <$> stage).run = stage.run >>= fun r => pure (r.map f) := by
    rw [ExceptT.run_map, map_eq_pure_bind]
  rw [outcome, hmap, Dialogue.transcript_bind]
  rfl

theorem outcome_bind_get {α β ε : Type} (i : Invocation) (stage : Job α) (wrap : ε → Error)
    (x : α → Except ε β) : o.outcome i (stage >>= fun a => Job.get wrap (x a)) =
      (o.outcome i stage).bind fun a => (x a).mapError wrap := by
  rw [outcome, ExceptT.run_bind, Dialogue.transcript_bind, outcome]
  cases (stage.run.transcript o.peer (o.ready i)).1 with
  | error e => rfl
  | ok a =>
    change ((Job.get wrap (x a)).run.transcript o.peer _).1 = (x a).mapError wrap
    cases x a <;> rfl

/-- A launch whose first stage is idle shows what the rest shows, or ends with the stage. -/
theorem stage_cases {α : Type} {stage : Job α} {rest : α → Job Unit} (h : o.AsksFor i)
    (hjob : o.job i = stage >>= rest) (hidle : stage.run.Only Call.IsIdle) :
    (∃ e, o.outcome i stage = .error e ∧ o.output = "" ∧ o.posts = [] ∧ o.status = 1) ∨
      ∃ a, o.outcome i stage = .ok a ∧ ∃ (t : Trail) (r : Except Error Unit),
        Yields (rest a).run t r ∧ o.output = t.output ∧ o.posts = t.posts ∧
          o.status = exitStatus r := by
  obtain ⟨hout, hposts, hstatus⟩ := o.shows_job h
  obtain ⟨hsilent, hunposted⟩ := idle_exchanges hidle o.peer (o.ready i)
  rw [hjob, ExceptT.run_bind, Dialogue.exchanges_bind, Trail.output_append, hsilent,
    String.empty_append] at hout
  rw [hjob, ExceptT.run_bind, Dialogue.exchanges_bind, Trail.posts_append, hunposted,
    List.nil_append] at hposts
  rw [hjob, ExceptT.run_bind, Dialogue.transcript_bind] at hstatus
  change (∃ e, (stage.run.transcript o.peer (o.ready i)).1 = .error e ∧ _) ∨
    ∃ a, (stage.run.transcript o.peer (o.ready i)).1 = .ok a ∧ _
  cases hstage : (stage.run.transcript o.peer (o.ready i)).1 with
  | error e =>
    rw [hstage] at hout hposts hstatus
    exact .inl ⟨e, rfl, hout, hposts, hstatus⟩
  | ok a =>
    rw [hstage] at hout hposts hstatus
    exact .inr ⟨a, rfl, _, _, Dialogue.yields_transcript o.peer (rest a).run
      (stage.run.transcript o.peer (o.ready i)).2.2, hout, hposts, hstatus⟩

end Launch

end Workbench.Cli
