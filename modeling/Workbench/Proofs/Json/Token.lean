import Workbench.Json.Reader
import Workbench.Proofs.Text.Utf8

/-!
# Tokens read back

How readers run in sequence, how they pass over blanks, and how they read the texts that are
written.

* `peek_gaps`: blanks before a token do not matter.
* `string_writeString`: a written text is read back as the text, with any bytes behind it.
-/
namespace Workbench.Json

open Text (bytes)

/-! ## Readers in sequence -/

section Sequence

variable {α β : Type} {r : Reader α} {f : α → Reader β} {s s' : List UInt8} {a : α}

theorem bind_of_ok (h : r s = .ok (a, s')) : (r >>= f) s = f a s' := by
  simp [bind, StateT.bind, h, Except.bind]

theorem bind_of_error {e : Stop} (h : r s = .error e) : (r >>= f) s = .error e := by
  simp [bind, StateT.bind, h, Except.bind]

theorem of_bind_ok {b : β} {s'' : List UInt8} (h : (r >>= f) s = .ok (b, s'')) :
    ∃ a s', r s = .ok (a, s') ∧ f a s' = .ok (b, s'') := by
  cases hr : r s with
  | error e =>
    rw [bind_of_error hr] at h
    cases h
  | ok p => exact ⟨p.1, p.2, rfl, by rwa [bind_of_ok hr] at h⟩

@[simp] theorem pure_apply (a : α) (s : List UInt8) : (pure a : Reader α) s = .ok (a, s) := rfl

theorem advance_bind (f : Unit → Reader β) (s : List UInt8) : (advance >>= f) s = f () s.tail :=
  rfl

end Sequence

/-! ## Blanks -/

/-- Bytes that may stand before a token. -/
def Gaps (g : List UInt8) : Prop := ∀ b ∈ g, isGap b = true

theorem gaps_nil : Gaps [] := fun _ hb => nomatch hb

theorem skipGaps_append {g s : List UInt8} (hg : Gaps g) : skipGaps (g ++ s) = skipGaps s :=
  List.dropWhile_append_of_pos hg

theorem skipGaps_cons {b : UInt8} {s : List UInt8} (hb : isGap b = false) :
    skipGaps (b :: s) = b :: s := by
  simp [skipGaps, hb]

theorem peek_gaps {g s : List UInt8} (hg : Gaps g) : peek (g ++ s) = peek s := by
  simp only [peek, skipGaps_append hg]

theorem peek_cons {b : UInt8} {s : List UInt8} (hb : isGap b = false) :
    peek (b :: s) = .ok (some b, b :: s) := by
  simp [peek, skipGaps_cons hb]

theorem head_gaps {g s : List UInt8} (hg : Gaps g) : head (g ++ s) = head s := by
  simp only [head, bind, StateT.bind, peek_gaps hg]

theorem head_cons {b : UInt8} {s : List UInt8} (hb : isGap b = false) :
    head (b :: s) = .ok (Head.of b, b :: s) :=
  bind_of_ok (peek_cons hb)

theorem peek_at {g s : List UInt8} (hg : Gaps g) {b : UInt8} (hb : isGap b = false) :
    peek (g ++ b :: s) = .ok (some b, b :: s) :=
  (peek_gaps hg).trans (peek_cons hb)

theorem head_at {g s : List UInt8} (hg : Gaps g) {b : UInt8} (hb : isGap b = false) :
    head (g ++ b :: s) = .ok (Head.of b, b :: s) :=
  (head_gaps hg).trans (head_cons hb)

/-! ## Texts -/

theorem stringRest_plain {b : UInt8} (hquote : b ≠ 0x22) (hslash : b ≠ 0x5C) (hcontrol : 0x20 ≤ b)
    (acc rest : List UInt8) :
    stringRest acc .none (b :: rest) = stringRest (b :: acc) .none rest := by
  rw [stringRest, if_neg hquote, if_neg hslash, if_neg (UInt8.not_lt.mpr hcontrol)]

theorem stringRest_plains {bs : List UInt8} (h : ∀ b ∈ bs, b ≠ 0x22 ∧ b ≠ 0x5C ∧ 0x20 ≤ b)
    (acc rest : List UInt8) :
    stringRest acc .none (bs ++ rest) = stringRest (bs.reverse ++ acc) .none rest := by
  induction bs generalizing acc with
  | nil => rfl
  | cons b bs ih =>
    obtain ⟨⟨hquote, hslash, hcontrol⟩, htail⟩ := List.forall_mem_cons.mp h
    rw [List.cons_append, stringRest_plain hquote hslash hcontrol, ih htail]
    simp

theorem stringRest_short {b c : UInt8} (hu : b ≠ 0x75) (h : shortEscape b = some c)
    (acc rest : List UInt8) :
    stringRest acc .none (0x5C :: b :: rest) = stringRest (c :: acc) .none rest := by
  rw [stringRest, if_neg (by decide), if_pos rfl, stringRest, if_neg hu, h]

/-- The escapes of control characters have two zeros and then two digits. -/
theorem stringRest_hex {n : Nat} (hn : n < 0x20) (acc rest : List UInt8) :
    stringRest acc .none ([0x5C, 0x75, 0x30, 0x30, UInt8.ofNat (hexDigit (n / 16)).toNat,
      UInt8.ofNat (hexDigit (n % 16)).toNat] ++ rest) =
      stringRest (UInt8.ofNat n :: acc) .none rest := by
  have hdigit : ∀ d < 16, hexValue (UInt8.ofNat (hexDigit d).toNat) = some d := by decide
  have hcode : ∀ n < 0x20, isTrail n = false ∧ isLead n = false ∧ utf8 n = [UInt8.ofNat n] := by
    decide
  obtain ⟨htrail, hlead, hutf8⟩ := hcode n hn
  have hzero : hexValue 0x30 = some 0 := by decide
  simp [stringRest, hdigit, hzero, Nat.mod_lt, (by omega : n / 16 < 16), Nat.div_add_mod',
    htrail, hlead, hutf8]

/-- A byte of a character that is not escaped. -/
theorem plain_of_mem_utf8EncodeChar {c : Char} (hquote : c ≠ '"') (hslash : c ≠ '\\')
    (hcontrol : ¬ c.toNat < 0x20) {b : UInt8} (hb : b ∈ String.utf8EncodeChar c) :
    b ≠ 0x22 ∧ b ≠ 0x5C ∧ 0x20 ≤ b := by
  by_cases hascii : c.toNat < 0x80
  · rw [Text.utf8EncodeChar_of_ascii hascii, List.mem_singleton] at hb
    have hbyte : b.toNat = c.toNat := by
      rw [hb, UInt8.toNat_ofNat']
      omega
    have hne (d : Char) (hd : c ≠ d) : b.toNat ≠ d.toNat := by
      rw [hbyte]
      exact fun h => hd (Char.ext (UInt32.toNat_inj.mp h))
    refine ⟨fun h => hne _ hquote (by rw [h]; rfl), fun h => hne _ hslash (by rw [h]; rfl), ?_⟩
    rw [UInt8.le_iff_toNat_le, hbyte]
    exact Nat.le_of_not_lt hcontrol
  · have hlarge := Text.le_of_mem_utf8EncodeChar (Nat.le_of_not_lt hascii) hb
    refine ⟨?_, ?_, UInt8.le_trans (by decide) hlarge⟩ <;> rintro rfl <;>
      exact absurd hlarge (by decide)

/-- A written character is read as its bytes. -/
theorem stringRest_escapeChar (c : Char) (acc rest : List UInt8) :
    stringRest acc .none ((escapeChar c).flatMap String.utf8EncodeChar ++ rest) =
      stringRest ((String.utf8EncodeChar c).reverse ++ acc) .none rest := by
  unfold escapeChar
  -- the escapes of two characters
  repeat
    split
    · subst c
      exact stringRest_short (by decide) (by decide) acc rest
  split
  · rename_i hcontrol
    have hdigit : ∀ d < 16, (hexDigit d).toNat < 0x80 := by decide
    have hhigh := hdigit (c.toNat / 16) (by omega)
    have hlow := hdigit (c.toNat % 16) (by omega)
    rw [Text.utf8EncodeChar_of_ascii (c := c) (by omega), List.reverse_singleton,
      List.singleton_append, ← stringRest_hex hcontrol]
    simp only [List.flatMap_cons, List.flatMap_nil, Text.utf8EncodeChar_of_ascii hhigh,
      Text.utf8EncodeChar_of_ascii hlow]
    rfl
  · rename_i hquote hslash _ _ _ _ _ hcontrol
    rw [List.flatMap_singleton]
    exact stringRest_plains
      (fun b hb => plain_of_mem_utf8EncodeChar hquote hslash hcontrol hb) acc rest

theorem stringRest_escaped (cs : List Char) (acc rest : List UInt8) :
    stringRest acc .none ((cs.flatMap escapeChar).flatMap String.utf8EncodeChar ++ 0x22 :: rest) =
      .ok (acc.reverse ++ cs.flatMap String.utf8EncodeChar, rest) := by
  induction cs generalizing acc with
  | nil => simp [stringRest]
  | cons c cs ih =>
    rw [List.flatMap_cons, List.flatMap_append, List.append_assoc, stringRest_escapeChar, ih]
    simp

theorem bytes_writeString (s : String) :
    bytes (writeString s) =
      0x22 :: ((s.toList.flatMap escapeChar).flatMap String.utf8EncodeChar ++ [0x22]) := by
  rw [writeString, Text.bytes_ofList, List.flatMap_cons, List.flatMap_append]
  rfl

/-- **Texts are read back.** -/
theorem string_writeString (s : String) (rest : List UInt8) :
    string (bytes (writeString s) ++ rest) = .ok (s, rest) := by
  have hrest : stringRest [] .none
      ((s.toList.flatMap escapeChar).flatMap String.utf8EncodeChar ++ 0x22 :: rest) =
        .ok (bytes s, rest) := by
    rw [stringRest_escaped, Text.bytes_eq_flatMap]
    rfl
  rw [bytes_writeString, List.cons_append, List.append_assoc, List.singleton_append]
  unfold string
  rw [advance_bind, bind_of_ok rfl, List.tail_cons, bind_of_ok hrest]
  simp only [Text.ofBytes?_bytes, pure_apply]

end Workbench.Json
