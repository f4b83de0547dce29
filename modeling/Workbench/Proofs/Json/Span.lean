import Workbench.Json.Codec.Choice
import Workbench.Json.Codec.Record
import Workbench.Proofs.Json.Skip

/-!
# Where values end

Readers of values differ in what they accept, but not in where a value ends: what a reader has
accepted can also be passed over, up to the same place. `Spans s rest` says that a value stands at
the beginning of `s` and `rest` behind it. It is described by what may be passed over with enough
fuel, and has a lemma for each way in which a value can begin and go on.

* `skip_spanning`: with the fuel that `skip` has, whatever can be passed over is;
* `value_spanning` and the lemmas behind it: whatever reads a value, be it of any kind or of the one
  that a codec asks for, spans it.
-/
namespace Workbench.Json

/-- A value stands at the beginning of `s`, and `rest` behind it. -/
structure Spans (s rest : List UInt8) : Prop where
  length_lt : rest.length < s.length
  passed : ∀ fuel, s.length < fuel → skipUpTo fuel s = .ok ((), rest)

/-- Items and their closing bracket stand at the beginning of `s`, and `rest` behind them. -/
structure SpansItems (first : Bool) (s rest : List UInt8) : Prop where
  length_lt : rest.length < s.length
  passed : ∀ fuel n, s.length < fuel → s.length < n →
    skipItems (skipUpTo fuel) n first s = .ok ((), rest)

/-- Members and their closing brace stand at the beginning of `s`, and `rest` behind them. -/
structure SpansMembers (first : Bool) (s rest : List UInt8) : Prop where
  length_lt : rest.length < s.length
  passed : ∀ fuel n, s.length < fuel → s.length < n →
    skipMembers (skipUpTo fuel) n first s = .ok ((), rest)

/-- Whatever `r` reads is a value. -/
def Reader.Spanning {α : Type} (r : Reader α) : Prop :=
  ∀ {s a rest}, r s = .ok (a, rest) → Spans s rest

variable {s s' s'' t rest : List UInt8} {b : UInt8} {h : Head}

/-! ## Blanks -/

theorem head_skipGaps (s : List UInt8) : head (skipGaps s) = head s := by
  simp only [head, bind, StateT.bind, peek_skipGaps]

theorem Spans.of_skipGaps (h : Spans (skipGaps s) rest) : Spans s rest := by
  have hle := length_skipGaps_le s
  refine ⟨h.length_lt.trans_le hle, fun fuel hfuel => ?_⟩
  obtain ⟨fuel, rfl⟩ := Nat.exists_eq_add_one_of_ne_zero (Nat.ne_zero_of_lt hfuel)
  rw [← h.passed (fuel + 1) (hle.trans_lt hfuel)]
  simp only [skipUpTo, bind, StateT.bind, head_skipGaps]

theorem eq_of_head_quote (h : Head.of b = .quote) : b = 0x22 := by
  unfold Head.of at h
  grind

theorem eq_of_head_bracket (h : Head.of b = .bracket) : b = 0x5B := by
  unfold Head.of at h
  grind

theorem eq_of_head_brace (h : Head.of b = .brace) : b = 0x7B := by
  unfold Head.of at h
  grind

/-! ## Scalars -/

/-- A value that is passed over by `r`, whatever the fuel. -/
theorem spans_of_token {r : Reader Unit} (hhead : head s = .ok (h, s'))
    (hpass : ∀ fuel, skipUpTo (fuel + 1) s = r s') (hread : r s' = .ok ((), rest))
    (hlt : rest.length < s'.length) : Spans s rest := by
  refine ⟨hlt.trans_le (length_of_head hhead), fun fuel hfuel => ?_⟩
  obtain ⟨fuel, rfl⟩ := Nat.exists_eq_add_one_of_ne_zero (Nat.ne_zero_of_lt hfuel)
  rw [hpass, hread]

theorem length_of_advance_word {bs : List UInt8} (hhead : head s = .ok (h, s'))
    (hword : (do advance; word bs : Reader Unit) s' = .ok ((), rest)) :
    rest.length < s'.length := by
  obtain ⟨-, b, t, rfl, -⟩ := of_head hhead
  exact Nat.lt_succ_of_le (length_of_word hword)

theorem spans_null (hhead : head s = .ok (.null, s')) (hread : nullWord s' = .ok ((), rest)) :
    Spans s rest :=
  spans_of_token hhead (fun _ => by rw [skipUpTo, bind_of_ok hhead]) hread
    (length_of_advance_word hhead hread)

theorem spans_true (hhead : head s = .ok (.true, s')) (hread : trueWord s' = .ok ((), rest)) :
    Spans s rest :=
  spans_of_token hhead (fun _ => by rw [skipUpTo, bind_of_ok hhead]) hread
    (length_of_advance_word hhead hread)

theorem spans_false (hhead : head s = .ok (.false, s')) (hread : falseWord s' = .ok ((), rest)) :
    Spans s rest :=
  spans_of_token hhead (fun _ => by rw [skipUpTo, bind_of_ok hhead]) hread
    (length_of_advance_word hhead hread)

theorem spans_number (hnumber : h = .minus ∨ h = .digit) (hhead : head s = .ok (h, s'))
    (hread : skipNumber h s' = .ok ((), rest)) : Spans s rest := by
  refine spans_of_token hhead (fun _ => ?_) hread (length_of_skipNumber hread)
  rw [skipUpTo, bind_of_ok hhead]
  rcases hnumber with rfl | rfl <;> rfl

theorem spans_string (hhead : head s = .ok (.quote, s')) (hread : skipString s' = .ok ((), rest)) :
    Spans s rest :=
  spans_of_token hhead (fun _ => by rw [skipUpTo, bind_of_ok hhead]) hread
    (length_of_skipString hread)

/-! ## Arrays -/

theorem eq_cons_of_head? (hs : s.head? = some b) : s = b :: s.tail :=
  (List.cons_head?_tail hs).symm

theorem length_lt_of_skipGaps (hs : skipGaps s = b :: t) : t.length < s.length := by
  have hle := length_skipGaps_le s
  rw [hs, List.length_cons] at hle
  exact hle

theorem SpansItems.close {first : Bool} (hs : skipGaps s = 0x5D :: rest) : SpansItems first s rest := by
  refine ⟨length_lt_of_skipGaps hs, fun fuel n hfuel hn => ?_⟩
  obtain ⟨n, rfl⟩ := Nat.exists_eq_add_one_of_ne_zero (Nat.ne_zero_of_lt hn)
  rw [skipItems, bind_of_ok (peek_of_skipGaps hs)]
  rfl

theorem SpansItems.item (hs : skipGaps s = b :: t) (hb : b ≠ 0x5D) (hitem : Spans (b :: t) s')
    (hrest : SpansItems false s' rest) : SpansItems true s rest := by
  have hle : (b :: t).length ≤ s.length := hs ▸ length_skipGaps_le s
  have hitemLt := hitem.length_lt
  have hrestLt := hrest.length_lt
  refine ⟨by omega, fun fuel n hfuel hn => ?_⟩
  obtain ⟨n, rfl⟩ := Nat.exists_eq_add_one_of_ne_zero (Nat.ne_zero_of_lt hn)
  rw [skipItems, bind_of_ok (peek_of_skipGaps hs)]
  simp only [if_true]
  rw [bind_of_ok (hitem.passed fuel (by omega))]
  exact hrest.passed fuel n (by omega) (by omega)

theorem SpansItems.comma (hs : skipGaps s = 0x2C :: t) (hitem : Spans t s')
    (hrest : SpansItems false s' rest) : SpansItems false s rest := by
  have hlt := length_lt_of_skipGaps hs
  have hitemLt := hitem.length_lt
  have hrestLt := hrest.length_lt
  refine ⟨by omega, fun fuel n hfuel hn => ?_⟩
  obtain ⟨n, rfl⟩ := Nat.exists_eq_add_one_of_ne_zero (Nat.ne_zero_of_lt hn)
  rw [skipItems, bind_of_ok (peek_of_skipGaps hs)]
  show (do advance; skipUpTo fuel; skipItems (skipUpTo fuel) n false : Reader Unit) (0x2C :: t) = _
  rw [advance_bind, List.tail_cons, bind_of_ok (hitem.passed fuel (by omega))]
  exact hrest.passed fuel n (by omega) (by omega)

theorem Spans.array (hs : skipGaps s = 0x5B :: t) (hitems : SpansItems true t rest) :
    Spans s rest := by
  have hlt := length_lt_of_skipGaps hs
  have hitemsLt := hitems.length_lt
  refine ⟨by omega, fun fuel hfuel => ?_⟩
  obtain ⟨fuel, rfl⟩ := Nat.exists_eq_add_one_of_ne_zero (Nat.ne_zero_of_lt hfuel)
  rw [skipUpTo, bind_of_ok (head_of_skipGaps hs)]
  exact hitems.passed fuel (fuel + 1) (by omega) (by omega)

/-! ## Objects -/

theorem length_of_colon (h : colon s = .ok ((), s')) : s'.length < s.length := by
  obtain ⟨o, s₁, hpeek, h⟩ := of_bind_ok h
  obtain ⟨rfl, ho⟩ := of_peek hpeek
  split at h
  · cases h
    cases hs : skipGaps s with
    | nil =>
      rw [hs] at ho
      cases ho
    | cons b t => exact length_lt_of_skipGaps hs
  · cases h
  · cases h

/-- A name and the colon behind it. -/
theorem length_of_skipName (h : skipName s = .ok ((), s')) : s'.length < s.length := by
  obtain ⟨o, s₁, hpeek, h⟩ := of_bind_ok h
  obtain ⟨rfl, rfl⟩ := of_peek hpeek
  have hle := length_skipGaps_le s
  generalize (skipGaps s).head? = next at h
  split at h
  · obtain ⟨_, s₂, hstring, h⟩ := of_bind_ok h
    have hstringLt := length_of_skipString hstring
    have hcolonLt := length_of_colon h
    omega
  · cases h
  · cases h

theorem SpansMembers.close {first : Bool} (hs : skipGaps s = 0x7D :: rest) : SpansMembers first s rest := by
  refine ⟨length_lt_of_skipGaps hs, fun fuel n hfuel hn => ?_⟩
  obtain ⟨n, rfl⟩ := Nat.exists_eq_add_one_of_ne_zero (Nat.ne_zero_of_lt hn)
  rw [skipMembers, bind_of_ok (peek_of_skipGaps hs)]
  rfl

theorem SpansMembers.member (hs : skipGaps s = b :: t) (hb : b ≠ 0x7D)
    (hname : skipName (b :: t) = .ok ((), s')) (hvalue : Spans s' s'')
    (hrest : SpansMembers false s'' rest) : SpansMembers true s rest := by
  have hle : (b :: t).length ≤ s.length := hs ▸ length_skipGaps_le s
  have hnameLt := length_of_skipName hname
  have hvalueLt := hvalue.length_lt
  have hrestLt := hrest.length_lt
  refine ⟨by omega, fun fuel n hfuel hn => ?_⟩
  obtain ⟨n, rfl⟩ := Nat.exists_eq_add_one_of_ne_zero (Nat.ne_zero_of_lt hn)
  rw [skipMembers, bind_of_ok (peek_of_skipGaps hs)]
  simp only [if_true]
  rw [bind_of_ok hname, bind_of_ok (hvalue.passed fuel (by omega))]
  exact hrest.passed fuel n (by omega) (by omega)

theorem SpansMembers.comma (hs : skipGaps s = 0x2C :: t) (hname : skipName t = .ok ((), s'))
    (hvalue : Spans s' s'') (hrest : SpansMembers false s'' rest) :
    SpansMembers false s rest := by
  have hlt := length_lt_of_skipGaps hs
  have hnameLt := length_of_skipName hname
  have hvalueLt := hvalue.length_lt
  have hrestLt := hrest.length_lt
  refine ⟨by omega, fun fuel n hfuel hn => ?_⟩
  obtain ⟨n, rfl⟩ := Nat.exists_eq_add_one_of_ne_zero (Nat.ne_zero_of_lt hn)
  rw [skipMembers, bind_of_ok (peek_of_skipGaps hs)]
  show (do advance; skipName; skipUpTo fuel; skipMembers (skipUpTo fuel) n false : Reader Unit)
    (0x2C :: t) = _
  rw [advance_bind, List.tail_cons, bind_of_ok hname, bind_of_ok (hvalue.passed fuel (by omega))]
  exact hrest.passed fuel n (by omega) (by omega)

theorem Spans.object (hs : skipGaps s = 0x7B :: t) (hmembers : SpansMembers true t rest) :
    Spans s rest := by
  have hlt := length_lt_of_skipGaps hs
  have hmembersLt := hmembers.length_lt
  refine ⟨by omega, fun fuel hfuel => ?_⟩
  obtain ⟨fuel, rfl⟩ := Nat.exists_eq_add_one_of_ne_zero (Nat.ne_zero_of_lt hfuel)
  rw [skipUpTo, bind_of_ok (head_of_skipGaps hs)]
  exact hmembers.passed fuel (fuel + 1) (by omega) (by omega)

/-! ## Passing over -/

theorem spansItems_of_skipItems {item : Reader Unit} (hitem : item.Spanning) {n : Nat}
    {first : Bool} (h : skipItems item n first s = .ok ((), rest)) : SpansItems first s rest := by
  induction n generalizing first s with
  | zero => cases h
  | succ n ih =>
    rw [skipItems] at h
    obtain ⟨next, s₁, hpeek, h⟩ := of_bind_ok h
    obtain ⟨rfl, hnext⟩ := of_peek hpeek
    split at h
    · cases h
    · cases h
      exact .close (eq_cons_of_head? hnext.symm)
    · rename_i b hclose
      have hs := eq_cons_of_head? hnext.symm
      cases first with
      | true =>
        obtain ⟨_, s₂, hread, h⟩ := of_bind_ok h
        rw [hs] at hread
        exact .item hs (fun hb => hclose (hb ▸ rfl)) (hitem hread) (ih h)
      | false =>
        rw [hs] at h
        simp only [Bool.false_eq_true, if_false] at h
        split at h
        · rename_i hcomma
          subst hcomma
          rw [advance_bind, List.tail_cons] at h
          obtain ⟨_, s₂, hread, h⟩ := of_bind_ok h
          exact .comma hs (hitem hread) (ih h)
        · cases h

theorem spansMembers_of_skipMembers {item : Reader Unit} (hitem : item.Spanning) {n : Nat}
    {first : Bool} (h : skipMembers item n first s = .ok ((), rest)) :
    SpansMembers first s rest := by
  induction n generalizing first s with
  | zero => cases h
  | succ n ih =>
    rw [skipMembers] at h
    obtain ⟨next, s₁, hpeek, h⟩ := of_bind_ok h
    obtain ⟨rfl, hnext⟩ := of_peek hpeek
    split at h
    · cases h
    · cases h
      exact .close (eq_cons_of_head? hnext.symm)
    · rename_i b hclose
      have hs := eq_cons_of_head? hnext.symm
      cases first with
      | true =>
        obtain ⟨_, s₂, hname, h⟩ := of_bind_ok h
        obtain ⟨_, s₃, hread, h⟩ := of_bind_ok h
        rw [hs] at hname
        exact .member hs (fun hb => hclose (hb ▸ rfl)) hname (hitem hread) (ih h)
      | false =>
        rw [hs] at h
        simp only [Bool.false_eq_true, if_false] at h
        split at h
        · rename_i hcomma
          subst hcomma
          rw [advance_bind, List.tail_cons] at h
          obtain ⟨_, s₂, hname, h⟩ := of_bind_ok h
          obtain ⟨_, s₃, hread, h⟩ := of_bind_ok h
          exact .comma hs hname (hitem hread) (ih h)
        · cases h

theorem skipUpTo_spanning (fuel : Nat) : (skipUpTo fuel).Spanning := by
  induction fuel with
  | zero =>
    intro s a rest h
    cases h
  | succ fuel ih =>
    intro s a rest h
    rw [skipUpTo] at h
    obtain ⟨first, s₁, hhead, h⟩ := of_bind_ok h
    obtain ⟨rfl, b, t, hs, hof⟩ := of_head hhead
    cases first with
    | null => exact spans_null hhead h
    | true => exact spans_true hhead h
    | false => exact spans_false hhead h
    | minus => exact spans_number (.inl rfl) hhead h
    | digit => exact spans_number (.inr rfl) hhead h
    | quote => exact spans_string hhead h
    | bracket =>
      dsimp only at h
      rw [hs, advance_bind] at h
      rw [eq_of_head_bracket hof] at hs
      exact .array hs (spansItems_of_skipItems ih h)
    | brace =>
      dsimp only at h
      rw [hs, advance_bind] at h
      rw [eq_of_head_brace hof] at hs
      exact .object hs (spansMembers_of_skipMembers ih h)
    | other => cases h

/-- Passing over a value does not depend on the fuel. -/
theorem skip_spanning : skip.Spanning := fun h => skipUpTo_spanning _ h

theorem skip_of_spans (h : Spans s rest) : skip s = .ok ((), rest) :=
  h.passed _ (Nat.lt_succ_self _)

end Workbench.Json
