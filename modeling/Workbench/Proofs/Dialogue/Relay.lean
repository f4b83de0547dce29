import Workbench.Proofs.Dialogue

/-!
# Dialogues played in other dialogues

`relay` plays every call of a dialogue in another one. `Relayed` ties what was said above to what
was said below: the exchanges of each call, one after the other.

* `Only`: a dialogue makes no calls but those of a kind, whatever the replies are. It is kept by
  `bind`, and by `relay` where each call is played with allowed calls only;
* `yields_relay`: a relayed dialogue yields what the dialogue yields, with the exchanges relayed;
* `Dialogue` is a lawful monad, so that the stages of a dialogue can be regrouped.
-/
namespace Workbench.Dialogue

variable {C D : Type} {R : C → Type} {S : D → Type} {α β σ : Type}

theorem bind_pure_eq (d : Dialogue C R α) : d.bind done = d := by
  induction d with
  | done a => rfl
  | ask c next ih => exact congrArg (ask c) (funext ih)

theorem bind_assoc_eq {γ : Type} (d : Dialogue C R α) (f : α → Dialogue C R β)
    (g : β → Dialogue C R γ) : (d.bind f).bind g = d.bind fun a => (f a).bind g := by
  induction d with
  | done a => rfl
  | ask c next ih => exact congrArg (ask c) (funext ih)

instance : LawfulMonad (Dialogue C R) :=
  LawfulMonad.mk' _ bind_pure_eq (fun _ _ => rfl) bind_assoc_eq

/-! ## Allowed calls -/

/-- Whatever the replies are, the dialogue makes no calls but allowed ones. -/
inductive Only (allowed : C → Prop) : Dialogue C R α → Prop
  | done (a : α) : Only allowed (done a)
  | ask {c : C} {next : R c → Dialogue C R α} (h : allowed c)
      (rest : ∀ r, Only allowed (next r)) : Only allowed (ask c next)

variable {allowed : C → Prop}

theorem only_pure (a : α) : (pure a : Dialogue C R α).Only allowed := .done a

theorem only_call {c : C} (h : allowed c) : (call c : Dialogue C R (R c)).Only allowed :=
  .ask h fun r => .done r

theorem Only.bind {d : Dialogue C R α} {f : α → Dialogue C R β} (h : d.Only allowed)
    (hf : ∀ a, (f a).Only allowed) : (d >>= f).Only allowed := by
  induction h with
  | done a => exact hf a
  | ask h _ ih => exact .ask h ih

theorem Only.mono {allowed' : C → Prop} {d : Dialogue C R α} (h : d.Only allowed)
    (himp : ∀ c, allowed c → allowed' c) : d.Only allowed' := by
  induction h with
  | done a => exact .done a
  | ask h _ ih => exact .ask (himp _ h) ih

/-- A dialogue may make some call or other. -/
theorem only_true (d : Dialogue C R α) : d.Only fun _ => True := by
  induction d with
  | done a => exact .done a
  | ask c next ih => exact .ask trivial ih

theorem Only.of_yields {d : Dialogue C R α} {log : List (Exchange C R)} {a : α}
    (h : d.Only allowed) (hyields : Yields d log a) : ∀ x ∈ log, allowed x.1 := by
  induction hyields with
  | done a => exact fun _ hx => nomatch hx
  | ask r _ ih =>
    cases h with
    | ask h rest => exact List.forall_mem_cons.2 ⟨h, ih (rest r)⟩

/-! ## Relays -/

variable {play : (c : C) → Dialogue D S (R c)}

theorem Only.relay {allowed' : D → Prop} {d : Dialogue C R α} (h : d.Only allowed)
    (hplay : ∀ c, allowed c → (play c).Only allowed') : (d.relay play).Only allowed' := by
  induction h with
  | done a => exact .done a
  | ask h _ ih => exact (hplay _ h).bind ih

/-- The exchanges below for the exchanges above, when calls are played as `play` says. -/
inductive Relayed (play : (c : C) → Dialogue D S (R c)) :
    List (Exchange C R) → List (Exchange D S) → Prop
  | nil : Relayed play [] []
  | cons {c : C} {r : R c} {above : List (Exchange C R)} {first below : List (Exchange D S)}
      (h : Yields (play c) first r) (rest : Relayed play above below) :
      Relayed play (⟨c, r⟩ :: above) (first ++ below)

theorem yields_relay {d : Dialogue C R α} {log : List (Exchange D S)} {a : α} :
    Yields (d.relay play) log a ↔ ∃ above, Yields d above a ∧ Relayed play above log := by
  constructor
  · intro h
    induction d generalizing log with
    | done b =>
      obtain ⟨rfl, rfl⟩ := yields_pure.1 h
      exact ⟨[], .done a, .nil⟩
    | ask c next ih =>
      obtain ⟨first, below, r, rfl, hplay, hnext⟩ := yields_bind.1 h
      obtain ⟨above, habove, hrelayed⟩ := ih r hnext
      exact ⟨⟨c, r⟩ :: above, .ask r habove, .cons hplay hrelayed⟩
  · rintro ⟨above, habove, hrelayed⟩
    induction habove generalizing log with
    | done a =>
      cases hrelayed
      exact .done a
    | ask r _ ih =>
      cases hrelayed with
      | cons hplay hrest => exact yields_bind.2 ⟨_, _, r, rfl, hplay, ih hrest⟩

end Workbench.Dialogue
