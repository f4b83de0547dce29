import Workbench.Proofs.Json.Readable
import Workbench.Proofs.Json.Value
import Workbench.Proofs.Text.Integer

/-!
# The notation of an integer

An integer is written in decimal digits, after a minus sign if it is negative. Of 64 bits, it is
read back as the integer that it is. Beyond that its digits no longer fit into a significand, or its
sign does not go with them, and it is read as a float if it is read at all.

* `read_toString`: an integer of 64 bits is read as itself;
* `float_of_unsigned_digits`: digits beyond that make a float;
* `number_of_read_toString`: hence what the notation of an integer is read as, whatever the integer.
-/
namespace Workbench.Json

open Text (bytes)

variable {negative : Bool} {limit n k : Nat} {i : Int} {s s' t : List UInt8} {x : Number}
  {cs : List Char}

/-! ## Beyond 64 bits -/

/-- Of digits beyond the limit some are left over. -/
theorem absorb_spare (h : AllDigits cs) (hle : n ≤ limit)
    (hlt : limit < Nat.ofDigitChars 10 cs n) : (absorb limit n (cs.map byteOf)).2 ≠ [] := by
  induction cs generalizing n with
  | nil =>
    rw [Nat.ofDigitChars_nil] at hlt
    omega
  | cons c cs ih =>
    obtain ⟨hc, hcs⟩ := List.forall_mem_cons.mp h
    rw [Nat.ofDigitChars_cons, mul_comm 10 n] at hlt
    rw [List.map_cons, absorb, digitValue_byteOf hc]
    by_cases hfit : limit < n * 10 + (c.toNat - '0'.toNat)
    · rw [if_pos hfit]
      simp
    · rw [if_neg hfit]
      exact ih hcs (not_lt.mp hfit) hlt

theorem float_of_floatOf {significand : Nat} {exponent : Int}
    (h : floatOf negative significand exponent s = .ok (x, t)) : ∃ y, x = .float y := by
  unfold floatOf at h
  split at h
  · cases h
    exact ⟨_, rfl⟩
  · cases h

theorem float_of_afterDigits {significand dropped : Nat} (hs : Ends s)
    (hbeyond : dropped ≠ 0 ∨ (negative = true ∧ 0x8000000000000000 < significand))
    (h : afterDigits negative significand dropped s = .ok (x, t)) : ∃ y, x = .float y := by
  rw [afterDigits, if_neg hs.head_ne_point, hs.not_exponentMark] at h
  rcases hbeyond with hdropped | ⟨rfl, hlarge⟩
  · rw [if_neg Bool.false_ne_true, if_pos hdropped] at h
    exact float_of_floatOf h
  · have hnot : ¬(0 < significand ∧ significand ≤ 0x8000000000000000) := by omega
    simp only [Bool.false_eq_true, if_false, not_true_eq_false, hnot] at h
    split at h <;> exact float_of_floatOf h

/-- Digits that make no integer of 64 bits make a float. -/
theorem float_of_unsigned_digits (hs : Ends s)
    (hbeyond : ¬Number.Whole (if negative then -(k : Int) else k))
    (h : unsigned negative ((Nat.toDigits 10 k).map byteOf ++ s) = .ok (x, t)) :
    ∃ y, x = .float y := by
  have hk : k ≠ 0 := by
    rintro rfl
    cases negative <;> exact hbeyond (by decide)
  have hvalue : Nat.ofDigitChars 10 (Nat.toDigits 10 k) 0 = k := Nat.ofDigitChars_ten_toDigits
  by_cases hfit : k ≤ maxSignificand
  · rw [unsigned_digits (allDigits_toDigits k) (leads_toDigits k) (by rwa [hvalue]) hs.noDigit,
      hvalue] at h
    refine float_of_afterDigits hs (.inr ?_) h
    rw [maxSignificand] at hfit
    cases negative with
    | false => exact absurd ⟨by simp, by simp; omega⟩ hbeyond
    | true =>
      refine ⟨rfl, ?_⟩
      by_contra hsmall
      exact hbeyond ⟨by simp; omega, by simp; omega⟩
  · obtain ⟨c, tail, hcons, hc⟩ := toDigits_eq_cons hk
    have hall : AllDigits (c :: tail) := hcons ▸ allDigits_toDigits k
    have hspare : (absorb maxSignificand 0 ((c :: tail).map byteOf)).2 ≠ [] := by
      refine absorb_spare hall (Nat.zero_le _) ?_
      rw [← hcons, hvalue]
      omega
    rw [hcons, unsigned_cons hall hc hs.noDigit] at h
    exact float_of_afterDigits hs (.inl (by simpa using hspare)) h

/-! ## Whole texts -/

theorem toString_eq_writeNumber (i : Int) : toString i = writeNumber (.int i) := by
  rw [writeNumber, ← Text.toList_toString, String.ofList_toList]

/-- An integer of 64 bits is read as itself. -/
theorem read_toString (hi : Number.Whole i) :
    read (bytes (toString i)) = .ok (.num (.int i)) := by
  have hheld : Held (.num (.int i)) := .num hi
  have hread := read_write blank_compact hheld 0 (Nat.zero_le _)
  rw [toString_eq_writeNumber]
  exact hread

theorem bytes_toString (i : Int) : bytes (toString i) =
    (if i < 0 then [0x2D] else []) ++ (Nat.toDigits 10 i.natAbs).map byteOf := by
  rw [Text.bytes_eq_flatMap, Text.toList_toString, List.flatMap_append,
    flatMap_digits (allDigits_toDigits _)]
  split <;> rfl

/-- A value that begins with a minus sign or a digit is the number that is read there. -/
theorem of_value_number {first : Head} {v : Json} (hhead : head s = .ok (first, s'))
    (hfirst : first = .minus ∨ first = .digit) (h : value n s = .ok (v, t)) :
    ∃ x, v = .num x ∧ number first s' = .ok (x, t) := by
  have hnode (list object : Reader Json) (h : node list object s = .ok (v, t)) :
      ∃ x, v = .num x ∧ number first s' = .ok (x, t) := by
    rw [node, bind_of_ok hhead] at h
    rcases hfirst with rfl | rfl
    · obtain ⟨x, _, hnumber, h⟩ := of_bind_ok h
      cases h
      exact ⟨x, rfl, hnumber⟩
    · obtain ⟨x, _, hnumber, h⟩ := of_bind_ok h
      cases h
      exact ⟨x, rfl, hnumber⟩
  cases n with
  | zero => exact hnode _ _ h
  | succ n => exact hnode _ _ h

theorem of_read_toString {v : Json} (h : read (bytes (toString i)) = .ok v) :
    ∃ x t, v = .num x ∧
      unsigned (decide (i < 0)) ((Nat.toDigits 10 i.natAbs).map byteOf ++ []) = .ok (x, t) := by
  obtain ⟨t, _, hvalue, -⟩ := run_whole_iff.mp h
  rw [bytes_toString] at hvalue
  rw [List.append_nil]
  by_cases hneg : i < 0
  · rw [if_pos hneg, List.singleton_append] at hvalue
    obtain ⟨x, rfl, hnumber⟩ := of_value_number (head_cons rfl) (.inl rfl) hvalue
    rw [decide_eq_true hneg]
    exact ⟨x, t, rfl, hnumber⟩
  · rw [if_neg hneg, List.nil_append] at hvalue
    obtain ⟨c, tail, hcons⟩ := List.exists_cons_of_ne_nil (Nat.toDigits_ne_nil (n := i.natAbs))
    have hdigit : isDigit (byteOf c) = true :=
      isDigit_byteOf (allDigits_toDigits i.natAbs c (hcons ▸ List.mem_cons_self))
    rw [hcons, List.map_cons] at hvalue ⊢
    have hhead := head_cons (s := tail.map byteOf) (isGap_of_isDigit hdigit)
    rw [head_of_digit hdigit] at hhead
    obtain ⟨x, rfl, hnumber⟩ := of_value_number hhead (.inr rfl) hvalue
    rw [decide_eq_false hneg]
    exact ⟨x, t, rfl, hnumber⟩

/-- **What an integer is read as:** itself if it has 64 bits, and else a float. -/
theorem number_of_read_toString {v : Json} (h : read (bytes (toString i)) = .ok v) :
    (Number.Whole i ∧ v = .num (.int i)) ∨ (¬Number.Whole i ∧ ∃ y, v = .num (.float y)) := by
  by_cases hi : Number.Whole i
  · rw [read_toString hi] at h
    cases h
    exact .inl ⟨hi, rfl⟩
  · obtain ⟨x, t, rfl, hunsigned⟩ := of_read_toString h
    have hsign : (if decide (i < 0) then -(i.natAbs : Int) else i.natAbs) = i := by
      simp only [decide_eq_true_eq]
      split <;> omega
    obtain ⟨y, rfl⟩ := float_of_unsigned_digits ends_nil (by rwa [hsign]) hunsigned
    exact .inr ⟨hi, y, rfl⟩

end Workbench.Json
