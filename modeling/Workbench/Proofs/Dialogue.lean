import Workbench.Call

/-!
# What a dialogue comes to

`transcript` plays a dialogue against one peer. `Yields d log a` leaves the peer out: it says which
exchanges `log` lead `d` to the result `a`, whoever gave the replies. The two views meet in

* `yields_transcript`: against any peer, a dialogue yields its result with the exchanges it had, so
  what is proved of all yields holds of every peer, with whatever state;
* `transcript_calls`: the calls of the transcript are those of the exchanges.

`yields_bind`, `yields_pure` and `yields_call` take a yield apart along the dialogue. A `Log` is
what a conversation with the outside world leaves behind.
-/
namespace Workbench.Dialogue

variable {C : Type} {R : C → Type} {α β σ : Type}

/-- A call together with the reply to it. -/
abbrev Exchange (C : Type) (R : C → Type) := (c : C) × R c

inductive Yields : Dialogue C R α → List (Exchange C R) → α → Prop
  | done (a : α) : Yields (done a) [] a
  | ask {c : C} {next : R c → Dialogue C R α} {log : List (Exchange C R)} {a : α} (r : R c)
      (h : Yields (next r) log a) : Yields (ask c next) (⟨c, r⟩ :: log) a

/-- The exchanges of a dialogue with `peer`. -/
def exchanges (peer : Peer C R σ) : Dialogue C R α → σ → List (Exchange C R)
  | done _, _ => []
  | ask c next, s => ⟨c, (peer c s).1⟩ :: exchanges peer (next (peer c s).1) (peer c s).2

/-! ## Transcripts -/

theorem yields_transcript (peer : Peer C R σ) (d : Dialogue C R α) (s : σ) :
    Yields d (d.exchanges peer s) (d.transcript peer s).1 := by
  induction d generalizing s with
  | done a => exact .done a
  | ask c next ih => exact .ask _ (ih (peer c s).1 (peer c s).2)

theorem transcript_calls (peer : Peer C R σ) (d : Dialogue C R α) (s : σ) :
    (d.transcript peer s).2.1 = (d.exchanges peer s).map Sigma.fst := by
  induction d generalizing s with
  | done a => rfl
  | ask c next ih => simp [transcript, exchanges, ih]

/-- A dialogue that begins with a call has this call and the peer's reply as its first exchange. -/
theorem exists_exchanges_call_bind {peer : Peer C R σ} {c : C} {s : σ} {r : R c}
    (h : (peer c s).1 = r) (f : R c → Dialogue C R β) :
    ∃ log, (call c >>= f).exchanges peer s = ⟨c, r⟩ :: log := by
  subst h
  exact ⟨_, rfl⟩

theorem reply_of_exchanges {peer : Peer C R σ} {d : Dialogue C R α} {c : C} {s : σ} {r : R c}
    {log : List (Exchange C R)} (h : d.exchanges peer s = ⟨c, r⟩ :: log) : (peer c s).1 = r := by
  cases d with
  | done a => cases h
  | ask c next =>
    cases h
    rfl

theorem transcript_bind (peer : Peer C R σ) (d : Dialogue C R α) (f : α → Dialogue C R β) (s : σ) :
    ((d >>= f).transcript peer s).1 =
      ((f (d.transcript peer s).1).transcript peer (d.transcript peer s).2.2).1 := by
  induction d generalizing s with
  | done a => rfl
  | ask c next ih => exact ih (peer c s).1 (peer c s).2

theorem exchanges_bind (peer : Peer C R σ) (d : Dialogue C R α) (f : α → Dialogue C R β) (s : σ) :
    (d >>= f).exchanges peer s = d.exchanges peer s ++
      (f (d.transcript peer s).1).exchanges peer (d.transcript peer s).2.2 := by
  induction d generalizing s with
  | done a => rfl
  | ask c next ih => exact congrArg _ (ih (peer c s).1 (peer c s).2)

/-! ## Yields along a dialogue -/

theorem yields_pure {log : List (Exchange C R)} {a b : α} :
    Yields (pure a : Dialogue C R α) log b ↔ log = [] ∧ b = a := by
  constructor
  · rintro ⟨⟩; exact ⟨rfl, rfl⟩
  · rintro ⟨rfl, rfl⟩; exact .done _

theorem yields_call {c : C} {log : List (Exchange C R)} {r : R c} :
    Yields (call c) log r ↔ log = [⟨c, r⟩] := by
  constructor
  · rintro (_ | ⟨_, ⟨⟩⟩); rfl
  · rintro rfl; exact .ask r (.done r)

theorem yields_bind {d : Dialogue C R α} {f : α → Dialogue C R β} {log : List (Exchange C R)}
    {b : β} : Yields (d >>= f) log b ↔
      ∃ log₁ log₂ a, log = log₁ ++ log₂ ∧ Yields d log₁ a ∧ Yields (f a) log₂ b := by
  constructor
  · intro h
    induction d generalizing log with
    | done a => exact ⟨[], log, a, rfl, .done a, h⟩
    | ask c next ih =>
      obtain _ | ⟨r, h⟩ := h
      obtain ⟨log₁, log₂, a, rfl, h₁, h₂⟩ := ih r h
      exact ⟨⟨c, r⟩ :: log₁, log₂, a, rfl, .ask r h₁, h₂⟩
  · rintro ⟨log₁, log₂, a, rfl, h₁, h₂⟩
    induction h₁ with
    | done a => exact h₂
    | ask r _ ih => exact .ask r (ih h₂)

/-- A call whose reply the rest of the dialogue depends on. -/
theorem yields_call_bind {c : C} {f : R c → Dialogue C R β} {log : List (Exchange C R)} {b : β} :
    Yields (call c >>= f) log b ↔ ∃ r log', log = ⟨c, r⟩ :: log' ∧ Yields (f r) log' b := by
  simp only [yields_bind, yields_call]
  constructor
  · rintro ⟨_, log', r, rfl, rfl, h⟩; exact ⟨r, log', rfl, h⟩
  · rintro ⟨r, log', rfl, h⟩; exact ⟨_, log', r, rfl, rfl, h⟩

/-- A dialogue whose result is worked on without another call. -/
theorem yields_bind_pure {d : Dialogue C R α} {f : α → Dialogue C R β} {g : α → β}
    (hf : ∀ a, f a = pure (g a)) {log : List (Exchange C R)} {b : β} :
    Yields (d >>= f) log b ↔ ∃ a, Yields d log a ∧ b = g a := by
  simp only [yields_bind, hf, yields_pure]
  constructor
  · rintro ⟨log₁, _, a, rfl, h, rfl, rfl⟩
    rw [List.append_nil]
    exact ⟨a, h, rfl⟩
  · rintro ⟨a, h, rfl⟩
    exact ⟨log, [], a, (List.append_nil log).symm, h, rfl, rfl⟩

/-- What every step keeps, a sequence of steps keeps. -/
theorem foldlM_invariant {I : α → Prop} {step : α → β → Dialogue C R α}
    (hstep : ∀ {a b log a'}, I a → Yields (step a b) log a' → I a') (peer : Peer C R σ) {a : α}
    (ha : I a) (bs : List β) (s : σ) : I ((bs.foldlM step a).transcript peer s).1 := by
  induction bs generalizing a s with
  | nil => exact ha
  | cons b bs ih =>
    rw [List.foldlM_cons, transcript_bind]
    exact ih (hstep ha (yields_transcript peer (step a b) s)) _

end Workbench.Dialogue

namespace Workbench

/-- What was said between the program and the world outside. -/
abbrev Log := List (Dialogue.Exchange Call Call.Reply)

end Workbench
