import Workbench.Proofs.Text.Utf8
import Workbench.Text.Charset

/-!
# Texts read back from their bytes

The bytes of a text say the text in their charset, and behind a byte order mark in whatever charset
is named for them.

* `lossyChars_utf8EncodeChar`, `unitChars_utf16Units`: the bytes and the units of one character are
  read as this character, whatever follows;
* `ofBytesLossy_bytes`, `unitChars_units_utf16Bytes`: hence those of a text as the text;
* `cutMark_bytes`: the bytes of a text have a byte order mark before them only if the text has it;
* `decode_bytes`, `decode_marked`, `decode_utf16_marked`: what is read where a charset is named.
-/
namespace Workbench.Text

/-- A character is no surrogate. -/
theorem toNat_scalar (c : Char) : c.toNat < 0xD800 ∨ 0xDFFF < c.toNat ∧ c.toNat < 0x110000 :=
  c.valid

/-! ## Bytes -/

section Bytes

variable {n : Nat} {p : Pending} {rest : List UInt8}

theorem announced_one : ∀ n < 128, announced (UInt8.ofNat n) = some (0, 0x80, 0xBF) ∧
    (UInt8.ofNat n).toNat = n := by
  decide

theorem announced_two : ∀ n < 32, 2 ≤ n → announced (UInt8.ofNat (n + 192)) = some (1, 0x80, 0xBF) ∧
    leadBits (UInt8.ofNat (n + 192)) 1 = n := by
  decide

theorem announced_three : ∀ n < 16, announced (UInt8.ofNat (n + 224)) =
      some (2, if n = 0 then 0xA0 else 0x80, if n = 13 then 0x9F else 0xBF) ∧
    leadBits (UInt8.ofNat (n + 224)) 2 = n := by
  decide

theorem announced_four : ∀ n < 5, announced (UInt8.ofNat (n + 240)) =
      some (3, if n = 0 then 0x90 else 0x80, if n = 4 then 0x8F else 0xBF) ∧
    leadBits (UInt8.ofNat (n + 240)) 3 = n := by
  decide

theorem toNat_tail (n : Nat) : (UInt8.ofNat (n % 64 + 128)).toNat = n % 64 + 128 := by
  rw [UInt8.toNat_ofNat']
  omega

/-- A byte in the range that was announced adds six bits. -/
theorem lossyChars_tail (hlow : p.low.toNat ≤ n % 64 + 128) (hhigh : n % 64 + 128 ≤ p.high.toNat) :
    lossyChars (some p) (UInt8.ofNat (n % 64 + 128) :: rest) =
      if p.due = 1 then Char.ofNat (p.bits * 64 + n % 64) :: lossyChars none rest
      else lossyChars (some ⟨p.bits * 64 + n % 64, p.due - 1, 0x80, 0xBF⟩) rest := by
  have hrange :
      (p.low ≤ UInt8.ofNat (n % 64 + 128) && UInt8.ofNat (n % 64 + 128) ≤ p.high) = true := by
    simp only [Bool.and_eq_true, decide_eq_true_eq, UInt8.le_iff_toNat_le, toNat_tail]
    exact ⟨hlow, hhigh⟩
  have hbits : (UInt8.ofNat (n % 64 + 128)).toNat % 64 = n % 64 := by
    rw [toNat_tail]
    omega
  rw [lossyChars, if_pos hrange]
  simp only [hbits]

/-- A further byte of a character lies between these two. -/
theorem lossyChars_next {bits due : Nat} :
    lossyChars (some ⟨bits, due, 0x80, 0xBF⟩) (UInt8.ofNat (n % 64 + 128) :: rest) =
      if due = 1 then Char.ofNat (bits * 64 + n % 64) :: lossyChars none rest
      else lossyChars (some ⟨bits * 64 + n % 64, due - 1, 0x80, 0xBF⟩) rest :=
  lossyChars_tail (show 128 ≤ _ by omega) (show _ ≤ 191 by omega)

theorem lossyChars_one (h : n < 0x80) :
    lossyChars none (UInt8.ofNat n :: rest) = Char.ofNat n :: lossyChars none rest := by
  obtain ⟨hlead, hbits⟩ := announced_one n h
  rw [lossyChars, lossyChars.start, hlead]
  simp only [hbits]

theorem lossyChars_two (hlow : 0x80 ≤ n) (hhigh : n < 0x800) :
    lossyChars none (UInt8.ofNat (n / 64 % 32 + 192) :: UInt8.ofNat (n % 64 + 128) :: rest) =
      Char.ofNat n :: lossyChars none rest := by
  obtain ⟨hlead, hbits⟩ := announced_two (n / 64 % 32) (by omega) (by omega)
  have hn : n / 64 % 32 * 64 + n % 64 = n := by omega
  rw [lossyChars, lossyChars.start, hlead]
  simp only [hbits, lossyChars_next, if_pos, hn]

/-- The first byte narrows the range of the second one, so that no shorter form and no surrogate is
read. -/
theorem lossyChars_three (hlow : 0x800 ≤ n) (hhigh : n < 0x10000)
    (hscalar : n < 0xD800 ∨ 0xDFFF < n) :
    lossyChars none (UInt8.ofNat (n / 4096 % 16 + 224) :: UInt8.ofNat (n / 64 % 64 + 128) ::
      UInt8.ofNat (n % 64 + 128) :: rest) = Char.ofNat n :: lossyChars none rest := by
  obtain ⟨hlead, hbits⟩ := announced_three (n / 4096 % 16) (by omega)
  have hn : (n / 4096 % 16 * 64 + n / 64 % 64) * 64 + n % 64 = n := by omega
  have hleast : (if n / 4096 % 16 = 0 then 0xA0 else 0x80 : UInt8).toNat ≤
      n / 64 % 64 + 128 := by
    split <;> simp only [UInt8.reduceToNat] <;> omega
  have hmost : n / 64 % 64 + 128 ≤
      (if n / 4096 % 16 = 13 then 0x9F else 0xBF : UInt8).toNat := by
    split <;> simp only [UInt8.reduceToNat] <;> omega
  rw [lossyChars, lossyChars.start, hlead]
  simp only [hbits]
  rw [lossyChars_tail hleast hmost]
  simp only [lossyChars_next, hn, Nat.reduceEqDiff, Nat.reduceSub, if_false, if_true]

/-- Here it keeps out whatever lies above the last character. -/
theorem lossyChars_four (hlow : 0x10000 ≤ n) (hhigh : n < 0x110000) :
    lossyChars none (UInt8.ofNat (n / 262144 % 8 + 240) :: UInt8.ofNat (n / 4096 % 64 + 128) ::
      UInt8.ofNat (n / 64 % 64 + 128) :: UInt8.ofNat (n % 64 + 128) :: rest) =
        Char.ofNat n :: lossyChars none rest := by
  obtain ⟨hlead, hbits⟩ := announced_four (n / 262144 % 8) (by omega)
  have hn : ((n / 262144 % 8 * 64 + n / 4096 % 64) * 64 + n / 64 % 64) * 64 + n % 64 = n := by omega
  have hleast : (if n / 262144 % 8 = 0 then 0x90 else 0x80 : UInt8).toNat ≤
      n / 4096 % 64 + 128 := by
    split <;> simp only [UInt8.reduceToNat] <;> omega
  have hmost : n / 4096 % 64 + 128 ≤
      (if n / 262144 % 8 = 4 then 0x8F else 0xBF : UInt8).toNat := by
    split <;> simp only [UInt8.reduceToNat] <;> omega
  rw [lossyChars, lossyChars.start, hlead]
  simp only [hbits]
  rw [lossyChars_tail hleast hmost]
  simp only [lossyChars_next, hn, Nat.reduceEqDiff, Nat.reduceSub, if_false, if_true]

/-- The bytes of a character are read as the character. -/
theorem lossyChars_utf8EncodeChar (c : Char) (rest : List UInt8) :
    lossyChars none (String.utf8EncodeChar c ++ rest) = c :: lossyChars none rest := by
  have hscalar := toNat_scalar c
  have hread := Char.ofNat_toNat c
  unfold Char.toNat at hscalar hread
  unfold String.utf8EncodeChar
  generalize c.val.toNat = n at hscalar hread
  dsimp only
  split
  · rw [List.singleton_append, lossyChars_one (by omega), hread]
  · split
    · rw [List.cons_append, List.singleton_append, lossyChars_two (by omega) (by omega), hread]
    · split
      · rw [List.cons_append, List.cons_append, List.singleton_append,
          lossyChars_three (by omega) (by omega) (by omega), hread]
      · rw [List.cons_append, List.cons_append, List.cons_append, List.singleton_append,
          lossyChars_four (by omega) (by omega), hread]

theorem lossyChars_bytes (s : String) : lossyChars none (bytes s) = s.toList := by
  rw [bytes_eq_flatMap]
  induction s.toList with
  | nil => rw [List.flatMap_nil, lossyChars]
  | cons c cs ih => rw [List.flatMap_cons, lossyChars_utf8EncodeChar, ih]

/-- The bytes of a text are read as the text. -/
theorem ofBytesLossy_bytes (s : String) : ofBytesLossy (bytes s) = s := by
  rw [ofBytesLossy, lossyChars_bytes, String.ofList_toList]

/-- In a byte of UTF-8 one of the upper five bits is not set. -/
theorem lt_of_mem_bytes {s : String} {b : UInt8} (h : b ∈ bytes s) : b.toNat < 0xF8 := by
  rw [bytes_eq_flatMap, List.mem_flatMap] at h
  obtain ⟨c, -, hb⟩ := h
  unfold String.utf8EncodeChar at hb
  generalize c.val.toNat = n at hb
  have hbyte (m : Nat) (hm : m < 0xF8) : (UInt8.ofNat m).toNat < 0xF8 := by
    rw [UInt8.toNat_ofNat']
    omega
  dsimp only at hb
  split at hb
  · obtain rfl := List.mem_singleton.mp hb
    exact hbyte _ (by omega)
  · split at hb
    · simp only [List.mem_cons, List.not_mem_nil, or_false] at hb
      rcases hb with rfl | rfl <;> exact hbyte _ (by omega)
    · split at hb
      · simp only [List.mem_cons, List.not_mem_nil, or_false] at hb
        rcases hb with rfl | rfl | rfl <;> exact hbyte _ (by omega)
      · simp only [List.mem_cons, List.not_mem_nil, or_false] at hb
        rcases hb with rfl | rfl | rfl | rfl <;> exact hbyte _ (by omega)

end Bytes

/-! ## Code units -/

section Units

variable {order : ByteOrder} {n : Nat}

/-- The code units of a character in UTF-16. -/
def utf16Units (c : Char) : List Nat :=
  if c.toNat < 0x10000 then [c.toNat]
  else [0xD800 + (c.toNat - 0x10000) / 0x400, 0xDC00 + (c.toNat - 0x10000) % 0x400]

def ByteOrder.unitBytes (order : ByteOrder) (n : Nat) : List UInt8 :=
  match order with
  | .big => [UInt8.ofNat (n / 0x100), UInt8.ofNat n]
  | .little => [UInt8.ofNat n, UInt8.ofNat (n / 0x100)]

/-- The bytes of a text in UTF-16. -/
def utf16Bytes (order : ByteOrder) (s : String) : List UInt8 :=
  (s.toList.flatMap utf16Units).flatMap order.unitBytes

theorem units_unitBytes (h : n < 0x10000) (rest : List UInt8) :
    units order (order.unitBytes n ++ rest) = some n :: units order rest := by
  have hn : n / 0x100 % 256 * 0x100 + n % 256 = n := by omega
  cases order <;>
    simp only [ByteOrder.unitBytes, List.cons_append, List.nil_append, units, ByteOrder.unit,
      UInt8.toNat_ofNat', Nat.reducePow, hn]

theorem unitChars_scalar (hscalar : n < 0xD800 ∨ 0xDFFF < n) (rest : List (Option Nat)) :
    unitChars none (some n :: rest) = Char.ofNat n :: unitChars none rest := by
  have hlead : isLead n = false := by
    simp only [isLead, Bool.and_eq_false_iff, decide_eq_false_iff_not]
    omega
  have htrail : isTrail n = false := by
    simp only [isTrail, Bool.and_eq_false_iff, decide_eq_false_iff_not]
    omega
  rw [unitChars, unitChars.start, hlead, htrail]
  rfl

theorem unitChars_pair (hn : n < 0x100000) (rest : List (Option Nat)) :
    unitChars none (some (0xD800 + n / 0x400) :: some (0xDC00 + n % 0x400) :: rest) =
      Char.ofNat (0x10000 + n) :: unitChars none rest := by
  have hlead : isLead (0xD800 + n / 0x400) = true := by
    simp only [isLead, Bool.and_eq_true, decide_eq_true_eq]
    omega
  have htrail : isTrail (0xDC00 + n % 0x400) = true := by
    simp only [isTrail, Bool.and_eq_true, decide_eq_true_eq]
    omega
  have hsum : 0x10000 + (0xD800 + n / 0x400 - 0xD800) * 0x400 + (0xDC00 + n % 0x400 - 0xDC00) =
      0x10000 + n := by omega
  rw [unitChars, unitChars.start, if_pos hlead, unitChars, if_pos htrail, hsum]

theorem lt_of_mem_utf16Units {c : Char} (h : n ∈ utf16Units c) : n < 0x10000 := by
  have hscalar := toNat_scalar c
  unfold utf16Units at h
  split at h
  · obtain rfl := List.mem_singleton.mp h
    assumption
  · rw [List.mem_cons, List.mem_singleton] at h
    omega

/-- The units of a character are read as the character. -/
theorem unitChars_utf16Units (c : Char) (rest : List (Option Nat)) :
    unitChars none ((utf16Units c).map some ++ rest) = c :: unitChars none rest := by
  have hscalar := toNat_scalar c
  unfold utf16Units
  split
  · rw [List.map_singleton, List.singleton_append, unitChars_scalar (by omega), Char.ofNat_toNat]
  · have hn : 0x10000 + (c.toNat - 0x10000) = c.toNat := by omega
    rw [List.map_cons, List.map_singleton, List.cons_append, List.singleton_append,
      unitChars_pair (by omega), hn, Char.ofNat_toNat]

theorem units_flatMap {ns : List Nat} (h : ∀ n ∈ ns, n < 0x10000) :
    units order (ns.flatMap order.unitBytes) = ns.map some := by
  induction ns with
  | nil => rfl
  | cons n ns ih =>
    rw [List.forall_mem_cons] at h
    rw [List.flatMap_cons, units_unitBytes h.1, ih h.2, List.map_cons]

/-- The units of a text are read as the text. -/
theorem unitChars_units_utf16Bytes (s : String) :
    unitChars none (units order (utf16Bytes order s)) = s.toList := by
  rw [utf16Bytes, units_flatMap (by
    intro n hn
    obtain ⟨c, -, hc⟩ := List.mem_flatMap.mp hn
    exact lt_of_mem_utf16Units hc)]
  induction s.toList with
  | nil => rw [List.flatMap_nil, List.map_nil, unitChars]
  | cons c cs ih => rw [List.flatMap_cons, List.map_append, unitChars_utf16Units, ih]

end Units

/-! ## Marks -/

namespace Charset

variable {c : Charset} {s : String}

theorem cutMark_bytes (h : s.toList.head? ≠ some '\uFEFF') : cutMark (bytes s) = none := by
  unfold cutMark
  split
  · rename_i rest heq
    have hmark : lossyChars none (0xEF :: 0xBB :: 0xBF :: rest) =
        '\uFEFF' :: lossyChars none rest := lossyChars_utf8EncodeChar '\uFEFF' rest
    rw [← heq, lossyChars_bytes] at hmark
    rw [hmark] at h
    exact absurd rfl h
  · rename_i rest heq
    exact absurd (lt_of_mem_bytes (heq ▸ List.mem_cons_self)) (by decide)
  · rename_i rest heq
    exact absurd (lt_of_mem_bytes (heq ▸ List.mem_cons_self)) (by decide)
  · rfl

/-- A text that does not begin with a mark is what its bytes say. -/
theorem decode_bytes (h : s.toList.head? ≠ some '\uFEFF') : utf8.decode (bytes s) = s := by
  rw [decode, cutMark_bytes h]
  exact ofBytesLossy_bytes s

/-- A mark is no part of the text, and counts for more than the charset that was named. -/
theorem decode_marked (c : Charset) (s : String) : c.decode (bytes ("\uFEFF" ++ s)) = s := by
  have hcut : cutMark (bytes ("\uFEFF" ++ s)) = some (.utf8, bytes s) := by
    rw [bytes_append]
    rfl
  rw [decode, hcut]
  exact ofBytesLossy_bytes s

theorem decode_utf16_marked (c : Charset) (order : ByteOrder) (s : String) :
    c.decode (utf16Bytes order ("\uFEFF" ++ s)) = s := by
  have hcut : cutMark (utf16Bytes order ("\uFEFF" ++ s)) =
      some (.utf16 order, utf16Bytes order s) := by
    rw [utf16Bytes, String.toList_append, List.flatMap_append, List.flatMap_append]
    cases order <;> rfl
  rw [decode, hcut]
  show String.ofList (unitChars none (units order (utf16Bytes order s))) = s
  rw [unitChars_units_utf16Bytes, String.ofList_toList]

end Charset

end Workbench.Text
