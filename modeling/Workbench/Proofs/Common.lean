/-!
# Results and association lists

What a successful sequence of steps tells of its steps, and what is found in an association list of
which the first entry is known.
-/
namespace Workbench

theorem bind_eq_ok_iff {ε α β : Type} {x : Except ε α} {f : α → Except ε β} {b : β} :
    x >>= f = .ok b ↔ ∃ a, x = .ok a ∧ f a = .ok b := by
  cases x with
  | error e =>
    constructor
    · intro h
      cases h
    · rintro ⟨_, h, -⟩
      cases h
  | ok a =>
    constructor
    · exact fun h => ⟨a, rfl, h⟩
    · rintro ⟨_, ⟨⟩, h⟩
      exact h

theorem map_eq_ok_iff {ε α β : Type} {x : Except ε α} {f : α → β} {b : β} :
    x.map f = .ok b ↔ ∃ a, x = .ok a ∧ f a = b := by
  cases x <;> simp [Except.map]

theorem toOption_eq_some_iff {ε α : Type} {x : Except ε α} {a : α} :
    x.toOption = some a ↔ x = .ok a := by
  cases x <;> simp [Except.toOption]

section Lookup

variable {α β : Type} [BEq α] [LawfulBEq α] {k : α} {ms : List (α × β)}

theorem lookup_cons_ite [DecidableEq α] (m : α × β) (ms : List (α × β)) (k : α) :
    (m :: ms).lookup k = if k = m.1 then some m.2 else ms.lookup k := by
  by_cases h : k = m.1
  · rw [List.lookup_cons, beq_iff_eq.2 h, if_pos h]
  · rw [List.lookup_cons, beq_eq_false_iff_ne.2 h, if_neg h]

theorem lookup_eq_none_of_not_mem (h : k ∉ ms.map Prod.fst) : ms.lookup k = none := by
  rw [List.lookup_eq_none_iff]
  intro m hm
  exact bne_iff_ne.2 fun heq => h (List.mem_map.2 ⟨m, hm, heq.symm⟩)

end Lookup

end Workbench
