import Workbench.Text.Blank
import Workbench.Text.Lowercase

/-!
# Lower case and the rest

What lowering the case of a text leaves alone, read off the table of case mappings.

* `lowerChar_cases`: a character has one character for its lower case, but for one that has two;
* `lowerChar_of_isBlank`: a blank is its own lower case;
* `eq_dash_of_lowerChar`: nothing but a dash has a dash for its lower case.
-/
namespace Workbench.Text

variable {c : Char}

theorem lowerChar_cases (c : Char) :
    (∃ d, lowerChar c = [d]) ∨ lowerChar c = ['i', '\u0307'] := by
  unfold lowerChar
  split
  · exact .inr rfl
  · split
    · exact .inl ⟨_, rfl⟩
    · exact .inl ⟨_, rfl⟩

/-- A character outside the table is its own lower case. -/
theorem lowerChar_eq_self (hdotted : c.toNat ≠ 0x130)
    (h : ∀ r ∈ caseRuns, r.holds c.toNat = false) : lowerChar c = [c] := by
  have hfind : caseRuns.find? (·.holds c.toNat) = none :=
    List.find?_eq_none.mpr fun r hr => by rw [h r hr]; exact Bool.false_ne_true
  rw [lowerChar, if_neg hdotted, hfind]

/-- The capital letters of the table stand between the blanks. -/
theorem caseRuns_between_blanks : ∀ r ∈ caseRuns,
    (0x20 < r.first ∧ r.last < 0x85) ∨ (0xA0 < r.first ∧ r.last < 0x1680) ∨
      (0x1680 < r.first ∧ r.last < 0x2000) ∨ (0x205F < r.first ∧ r.last < 0x3000) ∨
      0x3000 < r.first := by
  decide +kernel

theorem lowerChar_of_isBlank (h : isBlank c = true) : lowerChar c = [c] := by
  simp only [isBlank, Bool.or_eq_true, Bool.and_eq_true, decide_eq_true_eq, beq_iff_eq] at h
  refine lowerChar_eq_self (by omega) fun r hr => ?_
  have hgap := caseRuns_between_blanks r hr
  rw [Bool.eq_false_iff]
  intro hholds
  simp only [CaseRun.holds, Bool.and_eq_true, decide_eq_true_eq] at hholds
  omega

/-- No run of the table leads to a dash. -/
theorem caseRuns_miss_dash : ∀ r ∈ caseRuns, r.holds ('-'.toNat - r.shift).toNat = false := by
  decide +kernel

/-- Only the character zero stands for more numbers than its own. -/
theorem eq_toNat_of_ofNat_eq {n : Nat} (h : Char.ofNat n = c) (hc : c ≠ '\x00') :
    n = c.toNat := by
  by_cases hvalid : n.isValidChar
  · have hof : Char.ofNat n = Char.ofNatAux n hvalid := dif_pos hvalid
    rw [← h, hof]
    rfl
  · exact absurd (h.symm.trans (dif_neg hvalid)) hc

theorem eq_dash_of_lowerChar (h : lowerChar c = ['-']) : c = '-' := by
  unfold lowerChar at h
  split at h
  · cases h
  · split at h
    · rename_i r hfind
      have hmem := List.mem_of_find?_eq_some hfind
      have hholds := List.find?_some hfind
      have hvalue := eq_toNat_of_ofNat_eq (List.cons.inj h).1 (by decide)
      have horigin : ('-'.toNat - r.shift).toNat = c.toNat := by
        have hpositive : 0 < '-'.toNat := by decide
        omega
      have hmiss := caseRuns_miss_dash r hmem
      rw [horigin, hholds] at hmiss
      cases hmiss
    · exact (List.cons.inj h).1

end Workbench.Text
