import Mathlib.Data.List.DropRight
import Workbench.Text.Blank

/-!
# Trimmed texts

A text is `Trimmed` when it neither begins nor ends with a blank.

* `exists_padding`: every text has a middle part without padding, whatever counts as padding.
* `trim_eq_self`: trimming leaves a trimmed text alone.
* `trim_padded`: trimming takes off whatever blanks stand around such a text.
* `exists_trim`: and it takes off nothing else, so that trimming twice is trimming once.
* `trimmed_between`: a text between two characters that are no blanks is trimmed.
* `not_blank_of_head?_trim`, `head?_dropEnd`: a trimmed text begins with no blank, and goes on to do
  so when characters are taken off its end.
* `nonEmpty_eq_none_iff`, `nonEmpty_eq_some_iff`: of optional texts the empty one counts as absent.
-/
namespace Workbench.Text

/-- No blank at either end. -/
structure Trimmed (cs : List Char) : Prop where
  first : ∀ c ∈ cs.head?, isBlank c = false
  last : ∀ c ∈ cs.getLast?, isBlank c = false

theorem not_blank_of_isAlphanum {c : Char} (h : c.isAlphanum = true) : isBlank c = false := by
  unfold Char.isAlphanum Char.isAlpha Char.isUpper Char.isLower Char.isDigit at h
  simp only [Bool.or_eq_true, Bool.and_eq_true, decide_eq_true_eq, ge_iff_le,
    UInt32.le_iff_toNat_le] at h
  have hbounds : '0'.toNat ≤ c.toNat ∧ c.toNat ≤ 'z'.toNat := by
    rcases h with (hupper | hlower) | hdigit
    · exact ⟨Nat.le_trans (by decide) hupper.1, Nat.le_trans hupper.2 (by decide)⟩
    · exact ⟨Nat.le_trans (by decide) hlower.1, hlower.2⟩
    · exact ⟨hdigit.1, Nat.le_trans hdigit.2 (by decide)⟩
  have hlow : 0x20 < '0'.toNat := by decide
  have hhigh : 'z'.toNat < 0x85 := by decide
  simp only [isBlank, Bool.or_eq_false_iff, Bool.and_eq_false_iff, decide_eq_false_iff_not,
    beq_eq_false_iff_ne]
  omega

theorem dropEnd_eq_rdropWhile (p : Char → Bool) (cs : List Char) :
    dropEnd p cs = cs.rdropWhile p := rfl

/-- What is left after the end has been taken off begins as before. -/
theorem head?_dropEnd {p : Char → Bool} {cs : List Char} {c : Char}
    (h : c ∈ (dropEnd p cs).head?) : c ∈ cs.head? := by
  rw [dropEnd_eq_rdropWhile] at h
  obtain ⟨rest, hrest⟩ := List.rdropWhile_prefix p (l := cs)
  rw [← hrest, List.head?_append, Option.mem_def, Option.mem_def.mp h]
  rfl

theorem dropEnd_eq_self {p : Char → Bool} {cs : List Char} (h : ∀ c ∈ cs.getLast?, p c = false) :
    dropEnd p cs = cs := by
  rw [dropEnd_eq_rdropWhile, List.rdropWhile_eq_self_iff]
  intro hne
  rw [h (cs.getLast hne) (List.getLast?_eq_some_getLast hne)]
  exact Bool.false_ne_true

theorem dropWhile_eq_self {p : Char → Bool} {cs : List Char} (h : ∀ c ∈ cs.head?, p c = false) :
    cs.dropWhile p = cs := by
  cases cs with
  | nil => rfl
  | cons c cs => rw [List.dropWhile_cons_of_neg (by rw [h c rfl]; exact Bool.false_ne_true)]

/-- Taking the characters of a class off both ends leaves what neither begins nor ends with one. -/
theorem exists_padding (p : Char → Bool) (cs : List Char) : ∃ before middle after,
    cs = before ++ middle ++ after ∧ (∀ c ∈ before, p c = true) ∧ (∀ c ∈ after, p c = true) ∧
      (∀ c ∈ middle.head?, p c = false) ∧ ∀ c ∈ middle.getLast?, p c = false := by
  refine ⟨cs.takeWhile p, (cs.dropWhile p).rdropWhile p, (cs.dropWhile p).rtakeWhile p, ?_,
    fun c => List.mem_takeWhile_imp, fun c => List.mem_rtakeWhile_imp, fun c hc => ?_,
    fun c hc => ?_⟩
  · rw [List.append_assoc, List.rdropWhile_append_rtakeWhile, List.takeWhile_append_dropWhile]
  · have hfirst := head?_dropEnd hc
    have hnot := List.head?_dropWhile_not p cs
    rw [Option.mem_def.mp hfirst] at hnot
    exact hnot
  · have hne : (cs.dropWhile p).rdropWhile p ≠ [] := List.ne_nil_of_mem (List.mem_of_getLast? hc)
    rw [List.getLast?_eq_some_getLast hne] at hc
    obtain rfl := Option.some.inj hc
    exact Bool.not_eq_true _ ▸ List.rdropWhile_last_not p _ hne

theorem trimChars_eq_self {cs : List Char} (h : Trimmed cs) : trimChars cs = cs := by
  rw [trimChars, dropWhile_eq_self h.first, dropEnd_eq_self h.last]

theorem trim_eq_self {s : String} (h : Trimmed s.toList) : trim s = s := by
  rw [trim, trimChars_eq_self h, String.ofList_toList]

/-- A text without any blank is trimmed. -/
theorem trimmed_of_forall {cs : List Char} (h : ∀ c ∈ cs, isBlank c = false) : Trimmed cs :=
  ⟨fun c hc => h c (List.mem_of_mem_head? hc), fun c hc => h c (List.mem_of_getLast? hc)⟩

theorem dropEnd_append {p : Char → Bool} {cs after : List Char} (h : ∀ c ∈ after, p c = true) :
    dropEnd p (cs ++ after) = dropEnd p cs := by
  have hreverse : ∀ c ∈ after.reverse, p c = true := by simpa using h
  rw [dropEnd, dropEnd, List.reverse_append, List.dropWhile_append_of_pos hreverse]

theorem trim_padded {before s after : String} (hbefore : isBlankText before = true)
    (h : Trimmed s.toList) (hafter : isBlankText after = true) :
    trim (before ++ s ++ after) = s := by
  rw [isBlankText, List.all_eq_true] at hbefore hafter
  have hchars : trimChars (before ++ s ++ after).toList = s.toList := by
    rw [trimChars, String.toList_append, String.toList_append, List.append_assoc,
      List.dropWhile_append_of_pos hbefore]
    by_cases hempty : s.toList = []
    · rw [hempty, List.nil_append, List.dropWhile_eq_nil_iff.mpr hafter]
      rfl
    · have hfirst : ∀ c ∈ (s.toList ++ after.toList).head?, isBlank c = false := by
        rw [List.head?_append_of_ne_nil _ hempty]
        exact h.first
      rw [dropWhile_eq_self hfirst, dropEnd_append hafter, dropEnd_eq_self h.last]
  rw [trim, hchars, String.ofList_toList]

/-- A text is its trimmed form with blanks around it. -/
theorem exists_trim (s : String) : ∃ before after, s = before ++ trim s ++ after ∧
    isBlankText before = true ∧ isBlankText after = true ∧ Trimmed (trim s).toList := by
  obtain ⟨before, middle, after, hs, hbefore, hafter, hfirst, hlast⟩ :=
    exists_padding isBlank s.toList
  have hblank : ∀ {cs : List Char}, (∀ c ∈ cs, isBlank c = true) →
      isBlankText (String.ofList cs) = true := by
    intro cs h
    rwa [isBlankText, String.toList_ofList, List.all_eq_true]
  have htrimmed : Trimmed (String.ofList middle).toList := by
    rw [String.toList_ofList]
    exact ⟨hfirst, hlast⟩
  have htext : s = String.ofList before ++ String.ofList middle ++ String.ofList after := by
    rw [← String.ofList_append, ← String.ofList_append, ← hs, String.ofList_toList]
  have htrim : trim s = String.ofList middle := by
    rw [htext, trim_padded (hblank hbefore) htrimmed (hblank hafter)]
  exact ⟨_, _, htrim ▸ htext, hblank hbefore, hblank hafter, htrim ▸ htrimmed⟩

theorem trim_trim (s : String) : trim (trim s) = trim s := by
  obtain ⟨-, -, -, -, -, htrimmed⟩ := exists_trim s
  exact trim_eq_self htrimmed

theorem trimmed_between (first last : Char) (hfirst : isBlank first = false)
    (hlast : isBlank last = false) (s t : String) :
    Trimmed (String.singleton first ++ s ++ (t ++ String.singleton last)).toList := by
  have hsplit : (String.singleton first ++ s ++ (t ++ String.singleton last)).toList =
      (first :: (s.toList ++ t.toList)) ++ [last] := by
    simp
  rw [hsplit]
  refine ⟨fun c hc => ?_, fun c hc => ?_⟩
  · obtain rfl : first = c := Option.some.inj hc
    exact hfirst
  · rw [List.getLast?_concat] at hc
    obtain rfl : last = c := Option.some.inj hc
    exact hlast

/-- A trimmed text does not begin with a blank. -/
theorem not_blank_of_head?_trim {s : String} {c : Char} (h : c ∈ (trim s).toList.head?) :
    isBlank c = false := by
  rw [trim, String.toList_ofList, trimChars] at h
  have hc := head?_dropEnd h
  rw [Option.mem_def] at hc
  have hne := List.head?_dropWhile_not isBlank s.toList
  rw [hc] at hne
  exact hne

theorem isBlankText_eq_false {s : String} {c : Char} (hmem : c ∈ s.toList)
    (hc : isBlank c = false) : isBlankText s = false := by
  rw [isBlankText, List.all_eq_false]
  exact ⟨c, hmem, by rw [hc]; exact Bool.false_ne_true⟩

theorem filter_blank_eq_self {s : String} (h : isBlankText s = false) :
    (some s).filter (! isBlankText ·) = some s :=
  Option.filter_some_pos (by rw [h]; rfl)

theorem filter_blank_eq_none_iff {o : Option String} : o.filter (! isBlankText ·) = none ↔
    ∀ s, o = some s → isBlankText s = true := by
  simp [Option.filter_eq_none_iff]

theorem trim_of_isBlankText {s : String} (h : isBlankText s = true) : trim s = "" := by
  rw [isBlankText, List.all_eq_true] at h
  rw [trim, trimChars, List.dropWhile_eq_nil_iff.mpr h]
  rfl

theorem nonEmpty_eq_none_iff {o : Option String} : nonEmpty o = none ↔ o = none ∨ o = some "" := by
  cases o with
  | none => simp [nonEmpty]
  | some s => simp [nonEmpty, Option.filter]

theorem nonEmpty_eq_some_iff {o : Option String} {s : String} :
    nonEmpty o = some s ↔ o = some s ∧ s ≠ "" := by
  rw [nonEmpty, Option.filter_eq_some_iff, bne_iff_ne]

end Workbench.Text
