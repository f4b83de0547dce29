/-!
# Dialogues

A dialogue is a computation that talks to the outside world: it either has its result, or asks for
something and goes on with the reply. `C` has the calls it can make and `R c` the replies to `c`.
The same dialogue can be run against any peer, and `transcript` keeps the calls that it made.
-/
namespace Workbench

inductive Dialogue (C : Type) (R : C → Type) (α : Type) : Type
  | done (a : α)
  | ask (c : C) (next : R c → Dialogue C R α)

namespace Dialogue

variable {C : Type} {R : C → Type} {α β : Type}

protected def bind : Dialogue C R α → (α → Dialogue C R β) → Dialogue C R β
  | done a, f => f a
  | ask c next, f => ask c fun r => (next r).bind f

instance : Monad (Dialogue C R) where
  pure := done
  bind := Dialogue.bind

/-- Makes one call. -/
def call (c : C) : Dialogue C R (R c) := ask c done

/-- A peer answers every call, depending on a state of its own. -/
abbrev Peer (C : Type) (R : C → Type) (σ : Type) := (c : C) → σ → R c × σ

/-- The result of a dialogue with `peer`, the calls made, and the state the peer is left in. -/
def transcript {σ : Type} (peer : Peer C R σ) : Dialogue C R α → σ → α × List C × σ
  | done a, s => (a, [], s)
  | ask c next, s =>
    let (r, s) := peer c s
    let (a, calls, s) := transcript peer (next r) s
    (a, c :: calls, s)

/-- Plays a dialogue in another one, in which each call becomes a dialogue of its own. -/
def relay {D : Type} {S : D → Type} (play : (c : C) → Dialogue D S (R c)) :
    Dialogue C R α → Dialogue D S α
  | done a => done a
  | ask c next => (play c).bind fun r => relay play (next r)

end Dialogue

end Workbench
