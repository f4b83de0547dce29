import Workbench.Text.Utf8

/-!
# The bytes of a text

* `bytes_append`, `bytes_ofList`: the bytes of a text are those of its characters in a row.
* `ofBytes?_eq_some_iff`: they are well-formed and stand for the text, and no other bytes do.
* `utf8EncodeChar_of_ascii`, `le_of_mem_utf8EncodeChar`, `eq_of_mem_utf8EncodeChar`: a byte below
  `0x80` is always a character of its own.
-/
namespace Workbench.Text

theorem bytes_ofList (cs : List Char) :
    bytes (String.ofList cs) = cs.flatMap String.utf8EncodeChar := by
  show (String.ofList cs).toByteArray.data.toList = _
  rw [String.toByteArray_ofList, List.utf8Encode, List.data_toByteArray, List.toList_toArray]

theorem bytes_eq_flatMap (s : String) : bytes s = s.toList.flatMap String.utf8EncodeChar := by
  rw [← bytes_ofList, String.ofList_toList]

@[simp] theorem bytes_append (s t : String) : bytes (s ++ t) = bytes s ++ bytes t := by
  rw [bytes_eq_flatMap, String.toList_append, List.flatMap_append, ← bytes_eq_flatMap,
    ← bytes_eq_flatMap]

/-- Reading the bytes of a text gives the text. -/
theorem ofBytes?_bytes (s : String) : ofBytes? (bytes s) = some s := by
  have hdata : (⟨(bytes s).toArray⟩ : ByteArray) = s.toByteArray := by
    rw [bytes, Array.toArray_toList]
    rfl
  rw [ofBytes?, hdata, String.fromUTF8?, dif_pos s.isValidUTF8]
  rfl

theorem ofBytes?_eq_some_iff {bs : List UInt8} {s : String} :
    ofBytes? bs = some s ↔ bytes s = bs := by
  constructor
  · intro h
    rw [ofBytes?, String.fromUTF8?] at h
    split at h
    · cases h
      rfl
    · cases h
  · rintro rfl
    exact ofBytes?_bytes s

/-! ## Bytes of characters -/

theorem utf8EncodeChar_of_ascii {c : Char} (h : c.toNat < 0x80) :
    String.utf8EncodeChar c = [UInt8.ofNat c.toNat] :=
  if_pos (Nat.le_of_lt_succ h)

/-- The bytes of other characters are not those of any ASCII character. -/
theorem le_of_mem_utf8EncodeChar {c : Char} (h : 0x80 ≤ c.toNat) {b : UInt8}
    (hb : b ∈ String.utf8EncodeChar c) : 0x80 ≤ b := by
  have hn : ¬ c.val.toNat ≤ 0x7F := by
    change ¬ c.toNat ≤ 0x7F
    omega
  have hlarge (n : Nat) (hlow : 0x80 ≤ n) (hhigh : n < 0x100) : 0x80 ≤ UInt8.ofNat n := by
    rw [UInt8.le_iff_toNat_le, UInt8.toNat_ofNat']
    simpa [Nat.mod_eq_of_lt hhigh] using hlow
  simp only [String.utf8EncodeChar, hn, if_false] at hb
  split at hb
  · simp only [List.mem_cons, List.not_mem_nil, or_false] at hb
    rcases hb with rfl | rfl <;> exact hlarge _ (by omega) (by omega)
  · split at hb
    · simp only [List.mem_cons, List.not_mem_nil, or_false] at hb
      rcases hb with rfl | rfl | rfl <;> exact hlarge _ (by omega) (by omega)
    · simp only [List.mem_cons, List.not_mem_nil, or_false] at hb
      rcases hb with rfl | rfl | rfl | rfl <;> exact hlarge _ (by omega) (by omega)

theorem utf8EncodeChar_ne_nil (c : Char) : String.utf8EncodeChar c ≠ [] := by
  have hlength := String.length_utf8EncodeChar c
  have hpos := c.utf8Size_pos
  intro h
  rw [h, List.length_nil] at hlength
  omega

/-- A byte below `0x80` is the whole of its character. -/
theorem eq_of_mem_utf8EncodeChar {c : Char} {b : UInt8} (hmem : b ∈ String.utf8EncodeChar c)
    (hb : b < 0x80) : String.utf8EncodeChar c = [b] ∧ c.toNat = b.toNat := by
  by_cases hc : c.toNat < 0x80
  · rw [utf8EncodeChar_of_ascii hc] at hmem ⊢
    obtain rfl := List.mem_singleton.mp hmem
    refine ⟨rfl, ?_⟩
    rw [UInt8.toNat_ofNat']
    omega
  · have hle := le_of_mem_utf8EncodeChar (Nat.not_lt.mp hc) hmem
    exact absurd hb (UInt8.not_lt.mpr hle)

end Workbench.Text
