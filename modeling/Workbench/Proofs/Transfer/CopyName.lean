import Mathlib.Data.List.Induction
import Workbench.Proofs.Json.Decimal
import Workbench.Proofs.Text.Blank
import Workbench.Transfer

/-!
# Names of copies

A copy bears the name of its document and, behind it, the stamp of the time at which it was
imported. A document may itself be that of a copy, so that a name has stamps in it already. But
stamps are of one length as long as the fields of a time have no more digits than there are places
for them (`Civil.Fits`), and so the last one can be told from whatever stands before it.

* `stamp_injective`: a stamp shows its time, field by field;
* `importedName_eq_iff`: the name of a copy shows the base of the name that was copied, and when;
* `copyBase_importedName`: it is its own base when it is copied in turn;
* `importedName_tells`: hence names of copies, and of copies of copies, are the same only if they
  were made of the same base at the same times.
-/
namespace Workbench

/-- No field has more digits than there are places for it in a stamp. -/
structure Civil.Fits (c : Civil) : Prop where
  year : 0 ≤ c.year ∧ c.year ≤ 9999
  month : c.month < 100
  day : c.day < 100
  hour : c.hour < 100
  minute : c.minute < 100
  second : c.second < 100

/-- What a name becomes by imports at the given times, each of the copy before. -/
def copied (name : String) (times : List Civil) : String := times.foldl importedName name

variable {m n width : Nat} {c c' now now' : Civil} {name name' : String}

/-- All times of years with four digits fit. -/
theorem Civil.Valid.fits (h : c.Valid) (hyear : 0 ≤ c.year ∧ c.year ≤ 9999) : c.Fits := by
  obtain ⟨-, -, -, hmonth, -, hday, hhour, hminute, hsecond⟩ := h
  have hdays : Civil.daysInMonth c.year c.month ≤ 31 := by
    unfold Civil.daysInMonth
    grind
  exact ⟨hyear, by omega, by omega, by omega, by omega, by omega⟩

/-! ## Stamps -/

theorem toList_pad (width n : Nat) : (pad width n).toList =
    List.replicate (width - (Nat.toDigits 10 n).length) '0' ++ Nat.toDigits 10 n := by
  simp [pad]

/-- The digits of a number can be read, with or without zeros before them. -/
theorem value_pad (width n : Nat) : Nat.ofDigitChars 10 (pad width n).toList 0 = n := by
  rw [toList_pad, Nat.ofDigitChars_append, Nat.ofDigitChars_replicate_zero, Nat.mul_zero,
    Nat.ofDigitChars_ten_toDigits]

theorem pad_injective (h : pad width m = pad width n) : m = n := by
  rw [← value_pad width m, h, value_pad]

theorem length_pad (h : (Nat.toDigits 10 n).length ≤ width) :
    (pad width n).toList.length = width := by
  rw [toList_pad, List.length_append, List.length_replicate]
  omega

theorem length_pad_two (h : n < 100) : (pad 2 n).toList.length = 2 :=
  length_pad ((Nat.length_toDigits_le_iff (by decide) (by decide)).mpr h)

theorem yearText_eq {y : Int} (h : 0 ≤ y ∧ y ≤ 9999) : yearText y = pad 4 y.toNat := if_pos h

theorem length_yearText {y : Int} (h : 0 ≤ y ∧ y ≤ 9999) : (yearText y).toList.length = 4 := by
  have hsmall : y.toNat < 10000 := by omega
  rw [yearText_eq h]
  exact length_pad ((Nat.length_toDigits_le_iff (by decide) (by decide)).mpr hsmall)

/-- Two texts come apart where ends of the same length begin. -/
theorem append_inj_of_length {s s' t t' : String} (hlen : t.toList.length = t'.toList.length)
    (h : s ++ t = s' ++ t') : s = s' ∧ t = t' := by
  rw [← String.toList_inj, String.toList_append, String.toList_append] at h
  obtain ⟨hs, ht⟩ := List.append_inj' h hlen
  exact ⟨String.toList_inj.mp hs, String.toList_inj.mp ht⟩

theorem append_pad_two_inj {s s' : String} (hm : m < 100) (hn : n < 100)
    (h : s ++ pad 2 m = s' ++ pad 2 n) : s = s' ∧ m = n := by
  obtain ⟨hs, hpad⟩ :=
    append_inj_of_length ((length_pad_two hm).trans (length_pad_two hn).symm) h
  exact ⟨hs, pad_injective hpad⟩

theorem length_stamp (h : c.Fits) : c.stamp.toList.length = 14 := by
  simp only [Civil.stamp, String.toList_append, List.length_append, length_yearText h.year,
    length_pad_two h.month, length_pad_two h.day, length_pad_two h.hour, length_pad_two h.minute,
    length_pad_two h.second]

/-- A stamp shows its time. The fields are read off from the end. -/
theorem stamp_injective (h : c.Fits) (h' : c'.Fits) (heq : c.stamp = c'.stamp) : c = c' := by
  obtain ⟨heq, hsecond⟩ := append_pad_two_inj h.second h'.second heq
  obtain ⟨heq, hminute⟩ := append_pad_two_inj h.minute h'.minute heq
  obtain ⟨heq, hhour⟩ := append_pad_two_inj h.hour h'.hour heq
  obtain ⟨heq, hday⟩ := append_pad_two_inj h.day h'.day heq
  obtain ⟨heq, hmonth⟩ := append_pad_two_inj h.month h'.month heq
  have hyear : c.year = c'.year := by
    rw [yearText_eq h.year, yearText_eq h'.year] at heq
    have hnat := pad_injective heq
    have := h.year
    have := h'.year
    omega
  cases c
  cases c'
  rw [Civil.mk.injEq]
  exact ⟨hyear, hmonth, hday, hhour, hminute, hsecond⟩

/-! ## Names -/

/-- The name of a copy shows the base of the name that was copied, and when. -/
theorem importedName_eq_iff (h : now.Fits) (h' : now'.Fits) :
    importedName name now = importedName name' now' ↔
      copyBase name = copyBase name' ∧ now = now' := by
  constructor
  · intro heq
    obtain ⟨hfront, hstamp⟩ :=
      append_inj_of_length ((length_stamp h).trans (length_stamp h').symm) heq
    exact ⟨(append_inj_of_length rfl hfront).1, stamp_injective h h' hstamp⟩
  · rintro ⟨hbase, rfl⟩
    rw [importedName, hbase, importedName]

theorem copyBase_trimmed (name : String) : Text.Trimmed (copyBase name).toList := by
  unfold copyBase
  dsimp only
  split
  · exact Text.trimmed_of_forall (by simp [Text.isBlank])
  · obtain ⟨-, -, -, -, -, htrimmed⟩ := Text.exists_trim name
    exact htrimmed

theorem copyBase_ne_empty (name : String) : copyBase name ≠ "" := by
  unfold copyBase
  dsimp only
  split
  · decide
  · assumption

theorem importedName_begins (name : String) (now : Civil) :
    ∃ rest, (importedName name now).toList = (copyBase name).toList ++ rest := by
  rw [importedName, String.append_assoc, String.toList_append]
  exact ⟨_, rfl⟩

theorem importedName_ends (name : String) (now : Civil) :
    ∃ front, (importedName name now).toList = front ++ Nat.toDigits 10 now.second := by
  rw [importedName, Civil.stamp, ← String.append_assoc, String.toList_append, toList_pad,
    ← List.append_assoc]
  exact ⟨_, rfl⟩

/-- The name of a copy is its own base. -/
theorem copyBase_importedName (name : String) (now : Civil) :
    copyBase (importedName name now) = importedName name now := by
  obtain ⟨rest, hbegins⟩ := importedName_begins name now
  obtain ⟨front, hends⟩ := importedName_ends name now
  have hbase : (copyBase name).toList ≠ [] := fun hnil =>
    copyBase_ne_empty name (String.toList_inj.mp hnil)
  have hne : importedName name now ≠ "" := by
    intro hempty
    rw [hempty] at hbegins
    exact hbase (List.append_eq_nil_iff.mp hbegins.symm).1
  have htrimmed : Text.Trimmed (importedName name now).toList := by
    refine ⟨fun d hd => ?_, fun d hd => ?_⟩
    · rw [hbegins, List.head?_append_of_ne_nil _ hbase] at hd
      exact (copyBase_trimmed name).first d hd
    · rw [hends, List.getLast?_append_of_ne_nil _ Nat.toDigits_ne_nil] at hd
      exact Json.not_blank_of_isDigit (Json.allDigits_toDigits _ d (List.mem_of_getLast? hd))
  unfold copyBase
  dsimp only
  rw [Text.trim_eq_self htrimmed, if_neg hne]

theorem copied_concat (name : String) (times : List Civil) (now : Civil) :
    copied name (times ++ [now]) = importedName (copied name times) now := by
  rw [copied, List.foldl_append]
  rfl

/-- Of a copy of copies the name shows the base of the first name, and all the times. -/
theorem copyBase_copied_eq_iff {times times' : List Civil} (h : ∀ t ∈ times, t.Fits)
    (h' : ∀ t ∈ times', t.Fits) (hlen : times.length = times'.length) :
    copyBase (copied name times) = copyBase (copied name' times') ↔
      copyBase name = copyBase name' ∧ times = times' := by
  induction times using List.reverseRecOn generalizing times' with
  | nil =>
    obtain rfl := List.length_eq_zero_iff.mp hlen.symm
    simp [copied]
  | append_singleton times now ih =>
    obtain rfl | ⟨times', now', rfl⟩ := List.eq_nil_or_concat' times'
    · simp at hlen
    · simp only [List.forall_mem_append, List.forall_mem_singleton] at h h'
      have hlen' : times.length = times'.length := by simpa using hlen
      rw [copied_concat, copied_concat, copyBase_importedName, copyBase_importedName,
        importedName_eq_iff h.2 h'.2, ih h.1 h'.1 hlen', List.append_singleton_inj, and_assoc]

/-- **The name of a copy tells what was copied, and when.** Two names of copies are the same exactly
if the names that were copied have the same base and all fields of the two times agree, whatever the
names end in. Where the names are themselves those of copies, and of copies of copies to the same
depth, the first names had the same base and the times of all imports agree. -/
theorem importedName_tells (name name' : String) {now now' : Civil} (h : now.Fits)
    (h' : now'.Fits) :
    (importedName name now = importedName name' now' ↔
        copyBase name = copyBase name' ∧ now = now') ∧
      ∀ times times' : List Civil, (∀ t ∈ times, t.Fits) → (∀ t ∈ times', t.Fits) →
        times.length = times'.length →
          (importedName (copied name times) now = importedName (copied name' times') now' ↔
            copyBase name = copyBase name' ∧ times = times' ∧ now = now') := by
  refine ⟨importedName_eq_iff h h', fun times times' htimes htimes' hlen => ?_⟩
  rw [importedName_eq_iff h h', copyBase_copied_eq_iff htimes htimes' hlen, and_assoc]

def newYear : Civil := ⟨2025, 1, 1, 0, 0, 0⟩

/-- Blanks around a name do not count, but a stamp that it ends in does, and goes on to do so when
the copies are copied. -/
theorem importedName_tells_stamped :
    newYear.Fits ∧ importedName " Flow " newYear = importedName "Flow" newYear ∧
      importedName "Flow_imported_20250101000000" newYear ≠ importedName "Flow" newYear ∧
      importedName (copied "Flow" [newYear]) newYear ≠
        importedName (copied "Flow_imported_20250101000000" [newYear]) newYear := by
  have hfits : newYear.Fits := Civil.Valid.fits (by decide) (by decide)
  have htimes : ∀ t ∈ [newYear], t.Fits := List.forall_mem_singleton.mpr hfits
  have htells (name name' : String) := importedName_tells name name' hfits hfits
  refine ⟨hfits, (htells _ _).1.mpr ⟨by decide, rfl⟩, fun heq => ?_, fun heq => ?_⟩
  · exact absurd ((htells _ _).1.mp heq).1 (by decide)
  · exact absurd (((htells _ _).2 [newYear] [newYear] htimes htimes rfl).mp heq).1 (by decide)

end Workbench
