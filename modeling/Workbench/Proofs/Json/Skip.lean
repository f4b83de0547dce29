import Mathlib.Data.List.DropRight
import Workbench.Json.Value
import Workbench.Proofs.Json.Token

/-!
# Tokens that are passed over

Passing over a token is more lenient than reading it, but takes the same bytes: the reading of a
text and the passing over of it differ in what they make of an escape, and those of a number in
what they do with its digits.

* `skipString_of_string`, `skipNumber_of_number`: a token that is read is passed over as far;
* `length_of_skipString`, `length_of_skipNumber`: which takes at least a byte.
-/
namespace Workbench.Json

/-! ## Blanks and heads -/

section Heads

variable {s s' : List UInt8} {h : Head}

theorem length_skipGaps_le (s : List UInt8) : (skipGaps s).length ≤ s.length :=
  (List.dropWhile_suffix _).length_le

theorem skipGaps_skipGaps (s : List UInt8) : skipGaps (skipGaps s) = skipGaps s :=
  List.dropWhile_idempotent _ _

theorem peek_skipGaps (s : List UInt8) : peek (skipGaps s) = peek s := by
  simp only [peek, skipGaps_skipGaps]

theorem of_peek {o : Option UInt8} (hpeek : peek s = .ok (o, s')) :
    s' = skipGaps s ∧ o = (skipGaps s).head? := by
  obtain ⟨rfl, rfl⟩ := Prod.mk.inj (Except.ok.inj hpeek)
  exact ⟨rfl, rfl⟩

theorem peek_of_skipGaps {b : UInt8} {t : List UInt8} (hs : skipGaps s = b :: t) :
    peek s = .ok (some b, b :: t) := by
  simp only [peek, hs, List.head?_cons]

theorem of_head (hhead : head s = .ok (h, s')) :
    s' = skipGaps s ∧ ∃ b t, s' = b :: t ∧ Head.of b = h := by
  obtain ⟨o, s₁, hpeek, hread⟩ := of_bind_ok hhead
  obtain ⟨rfl, rfl⟩ := of_peek hpeek
  cases hs : skipGaps s with
  | nil =>
    rw [hs] at hread
    cases hread
  | cons b t =>
    rw [hs] at hread
    obtain ⟨rfl, rfl⟩ := Prod.mk.inj (Except.ok.inj hread)
    exact ⟨rfl, b, t, rfl, rfl⟩

theorem length_of_head (hhead : head s = .ok (h, s')) : s'.length ≤ s.length := by
  obtain ⟨rfl, -⟩ := of_head hhead
  exact length_skipGaps_le s

theorem head_of_skipGaps {b : UInt8} {t : List UInt8} (hs : skipGaps s = b :: t) :
    head s = .ok (Head.of b, b :: t) :=
  bind_of_ok (peek_of_skipGaps hs)

end Heads

section Tokens

variable {s rest : List UInt8}

theorem length_of_word {bs : List UInt8} (h : word bs s = .ok ((), rest)) :
    rest.length ≤ s.length := by
  induction bs generalizing s with
  | nil =>
    cases h
    exact le_rfl
  | cons b bs ih =>
    unfold word at h
    split at h
    · cases h
    · split at h
      · exact (ih h).trans (Nat.le_succ _)
      · cases h

/-- The escape as it is passed over: what it stands for is not looked at. -/
def Escape.blurred : Escape → Escape
  | .none => .none
  | .backslash => .backslash
  | .hex due value _ => .hex due value Option.none
  | .pair _ false => .none
  | .pair _ true => .backslash

/-- What follows the last digit of an escape is read as part of the text again. -/
theorem skipStringRest_hexEnd {due : Nat} {value lead : Option Nat} {b : UInt8} {t : List UInt8}
    (hdue : due ≤ 1) {n : Nat} (hn : (do return (← value) * 16 + (← hexValue b)) = some n) :
    skipStringRest (.hex due value lead) (b :: t) = skipStringRest .none t := by
  rw [skipStringRest, if_pos hdue, hn]
  rfl

theorem skipStringRest_of_stringRest {acc bs : List UInt8} {e : Escape}
    (h : stringRest acc e s = .ok (bs, rest)) : skipStringRest e.blurred s = .ok ((), rest) := by
  induction s generalizing acc e with
  | nil => cases e <;> cases h
  | cons b t ih =>
    cases e with
    | none =>
      unfold stringRest at h
      show skipStringRest .none (b :: t) = _
      rw [skipStringRest]
      split at h
      · rename_i hquote
        cases h
        exact if_pos hquote
      rename_i hquote
      rw [if_neg hquote]
      split at h
      · rename_i hslash
        rw [if_pos hslash]
        exact ih h
      rename_i hslash
      rw [if_neg hslash]
      split at h
      · cases h
      · rename_i hcontrol
        rw [if_neg hcontrol]
        exact ih h
    | backslash =>
      unfold stringRest at h
      show skipStringRest .backslash (b :: t) = _
      rw [skipStringRest]
      split at h
      · rename_i hu
        rw [if_pos hu]
        exact ih h
      · rename_i hu
        rw [if_neg hu]
        split at h
        · rename_i hshort
          rw [hshort]
          exact ih h
        · cases h
    | hex due value lead =>
      unfold stringRest at h
      dsimp only at h
      show skipStringRest (.hex due value none) (b :: t) = _
      split at h
      · rename_i hdue
        split at h
        · cases h
        · rename_i n hn
          rw [skipStringRest_hexEnd hdue hn]
          split at h
          · cases h
          split at h
          · exact ih h
          · exact ih h
        · rename_i n m hn
          rw [skipStringRest_hexEnd hdue hn]
          split at h
          · exact ih h
          · cases h
      · rename_i hdue
        rw [skipStringRest, if_neg hdue]
        exact ih h
    | pair lead backslash =>
      -- the escape after a leading surrogate is passed over like any other
      cases backslash with
      | false =>
        unfold stringRest at h
        split at h
        · rename_i hslash
          subst hslash
          exact ih h
        · cases h
      | true =>
        unfold stringRest at h
        split at h
        · rename_i hu
          subst hu
          exact ih h
        · cases h

theorem length_of_skipStringRest {e : Escape} (h : skipStringRest e s = .ok ((), rest)) :
    rest.length < s.length := by
  induction s generalizing e with
  | nil => cases e <;> cases h
  | cons b t ih =>
    have hstep {e' : Escape} (h : skipStringRest e' t = .ok ((), rest)) :
        rest.length < (b :: t).length := (ih h).trans (Nat.lt_succ_self _)
    cases e with
    | none =>
      unfold skipStringRest at h
      split at h
      · cases h
        exact Nat.lt_succ_self _
      split at h
      · exact hstep h
      split at h
      · cases h
      · exact hstep h
    | backslash =>
      unfold skipStringRest at h
      split at h
      · exact hstep h
      split at h
      · exact hstep h
      · cases h
    | hex due value lead =>
      unfold skipStringRest at h
      dsimp only at h
      split at h
      · split at h
        · exact hstep h
        · cases h
      · exact hstep h
    | pair lead backslash =>
      unfold skipStringRest at h
      exact hstep h

theorem length_of_skipString (h : skipString s = .ok ((), rest)) : rest.length < s.length := by
  rw [skipString, advance_bind] at h
  exact (length_of_skipStringRest h).trans_le (by rw [List.length_tail]; exact Nat.sub_le _ _)

theorem skipString_of_string {text : String} (h : string s = .ok (text, rest)) :
    skipString s = .ok ((), rest) := by
  rw [string, advance_bind] at h
  obtain ⟨start, s₁, hstart, h⟩ := of_bind_ok h
  cases hstart
  obtain ⟨bs, s₂, hrest, h⟩ := of_bind_ok h
  have hskip := skipStringRest_of_stringRest hrest
  rw [skipString, advance_bind]
  cases hbytes : Text.ofBytes? bs with
  | none =>
    rw [hbytes] at h
    cases h
  | some t =>
    rw [hbytes] at h
    cases h
    exact hskip

/-! ### Numbers -/

section Numbers

variable {negative : Bool} {significand dropped : Nat} {exponent : Int} {n : Number}

theorem rest_of_floatOf (h : floatOf negative significand exponent s = .ok (n, rest)) :
    rest = s := by
  unfold floatOf at h
  split at h
  · cases h
    rfl
  · cases h

/-- The sign of an exponent is taken away in the same way. -/
theorem afterSign_eq (s : List UInt8) :
    (if s.head? = some 0x2B then (false, s.tail)
      else if s.head? = some 0x2D then (true, s.tail) else (false, s)).2 =
      if s.head? = some 0x2B || s.head? = some 0x2D then s.tail else s := by
  generalize s.head? = first
  by_cases hplus : first = some 0x2B
  · simp [hplus]
  · by_cases hminus : first = some 0x2D <;> simp [hplus, hminus]

theorem skipExponent_of_exponentPart
    (h : exponentPart negative significand exponent s = .ok (n, rest)) :
    skipExponent s = .ok ((), rest) := by
  unfold exponentPart at h
  unfold skipExponent
  dsimp only at h ⊢
  rw [← afterSign_eq]
  generalize (if s.tail.head? = some 0x2B then (false, s.tail.tail)
    else if s.tail.head? = some 0x2D then (true, s.tail.tail) else (false, s.tail)) = sign at h ⊢
  split at h
  · cases h
  · rename_i b after hs
    split at h
    · rename_i hdigit
      rw [if_pos hdigit]
      rw [hs, digits, List.dropWhile_cons_of_pos hdigit] at h
      split at h
      · rw [rest_of_floatOf h]
      · split at h
        · cases h
        · cases h
          rfl
    · cases h

theorem skipAfterDigits_of_afterDigits
    (h : afterDigits negative significand dropped s = .ok (n, rest)) :
    skipAfterDigits s = .ok ((), rest) := by
  unfold afterDigits at h
  unfold skipAfterDigits
  split at h
  · rename_i hpoint
    rw [if_pos hpoint]
    unfold fractionPart at h
    dsimp only at h ⊢
    split at h
    · split at h <;> cases h
    · rename_i hsome
      rw [if_neg hsome]
      split at h
      · rename_i hmark
        rw [if_pos hmark]
        exact skipExponent_of_exponentPart h
      · rename_i hmark
        rw [if_neg hmark, rest_of_floatOf h]
  rename_i hpoint
  rw [if_neg hpoint]
  split at h
  · rename_i hmark
    rw [if_pos hmark]
    exact skipExponent_of_exponentPart h
  rename_i hmark
  rw [if_neg hmark]
  have hrest : rest = s := by
    split at h
    · exact rest_of_floatOf h
    split at h
    · cases h
      rfl
    split at h
    · cases h
      rfl
    · exact rest_of_floatOf h
  rw [hrest]

theorem skipUnsigned_of_unsigned (h : unsigned negative s = .ok (n, rest)) :
    skipUnsigned s = .ok ((), rest) := by
  unfold unsigned at h
  unfold skipUnsigned
  split at h
  · cases h
  · split at h
    · rename_i hzero
      rw [if_pos hzero]
      split at h
      · cases h
      · rename_i hdigit
        rw [if_neg hdigit]
        exact skipAfterDigits_of_afterDigits h
    · rename_i hzero
      rw [if_neg hzero]
      split at h
      · rename_i hdigit
        rw [if_pos hdigit]
        rw [digits, List.dropWhile_cons_of_pos hdigit] at h
        exact skipAfterDigits_of_afterDigits h
      · cases h

theorem skipNumber_of_number {h : Head} (hnumber : number h s = .ok (n, rest)) :
    skipNumber h s = .ok ((), rest) := by
  unfold number at hnumber
  unfold skipNumber
  split at hnumber
  · rename_i hminus
    rw [if_pos hminus]
    exact skipUnsigned_of_unsigned (s := s.tail) hnumber
  · rename_i hminus
    rw [if_neg hminus]
    exact skipUnsigned_of_unsigned hnumber

theorem length_of_skipExponent (h : skipExponent s = .ok ((), rest)) :
    rest.length ≤ s.length := by
  unfold skipExponent at h
  dsimp only at h
  split at h
  · cases h
  · rename_i b after hs
    split at h
    · cases h
      have hle : (b :: after).length ≤ s.tail.length := by
        rw [← hs]
        split
        · rw [List.length_tail]
          exact Nat.sub_le _ _
        · exact le_rfl
      have hdrop := (List.dropWhile_suffix isDigit (l := after)).length_le
      simp only [List.length_cons, List.length_tail] at hle
      omega
    · cases h

theorem length_of_skipAfterDigits (h : skipAfterDigits s = .ok ((), rest)) :
    rest.length ≤ s.length := by
  have hdigits : (digits s.tail).2.length ≤ s.length := by
    have hdrop := (List.dropWhile_suffix isDigit (l := s.tail)).length_le
    rw [List.length_tail] at hdrop
    exact hdrop.trans (Nat.sub_le _ _)
  unfold skipAfterDigits at h
  split at h
  · dsimp only at h
    split at h
    · cases h
    split at h
    · exact (length_of_skipExponent h).trans hdigits
    · cases h
      exact hdigits
  split at h
  · exact length_of_skipExponent h
  · cases h
    exact le_rfl

theorem length_of_skipUnsigned (h : skipUnsigned s = .ok ((), rest)) :
    rest.length < s.length := by
  unfold skipUnsigned at h
  split at h
  · cases h
  · rename_i b t
    rw [List.length_cons, Nat.lt_succ_iff]
    split at h
    · split at h
      · cases h
      · exact length_of_skipAfterDigits h
    split at h
    · exact (length_of_skipAfterDigits h).trans (List.dropWhile_suffix _).length_le
    · cases h

theorem length_of_skipNumber {h : Head} (hskip : skipNumber h s = .ok ((), rest)) :
    rest.length < s.length := by
  unfold skipNumber at hskip
  split at hskip
  · have hlt := length_of_skipUnsigned (s := s.tail) hskip
    rw [List.length_tail] at hlt
    omega
  · exact length_of_skipUnsigned hskip

end Numbers

end Tokens

end Workbench.Json
