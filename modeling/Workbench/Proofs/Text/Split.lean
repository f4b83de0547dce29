import Workbench.Text.Split

/-!
# Cutting at a separator

A text is cut into its parts at every separator, so that no part has one in it. Where two texts meet
in a separator, the parts of both are the parts of the whole.
-/
namespace Workbench.Text

variable {separator : Char} {cs : List Char}

theorem exists_splitOn_eq_cons (separator : Char) (cs : List Char) :
    ∃ part parts, splitOn separator cs = part :: parts := by
  cases cs with
  | nil => exact ⟨_, _, rfl⟩
  | cons c cs =>
    rw [splitOn]
    split
    · exact ⟨_, _, rfl⟩
    · split <;> exact ⟨_, _, rfl⟩

/-- A character that does not separate joins the first part. -/
theorem splitOn_cons_of_ne {c : Char} (hc : c ≠ separator) {part : List Char}
    {parts : List (List Char)} (h : splitOn separator cs = part :: parts) :
    splitOn separator (c :: cs) = (c :: part) :: parts := by
  rw [splitOn, if_neg hc, h]

theorem splitOn_of_not_mem (h : separator ∉ cs) : splitOn separator cs = [cs] := by
  induction cs with
  | nil => rfl
  | cons c cs ih =>
    rw [List.mem_cons, not_or] at h
    exact splitOn_cons_of_ne (Ne.symm h.1) (ih h.2)

theorem splitOn_append (separator : Char) (cs ds : List Char) :
    splitOn separator (cs ++ separator :: ds) = splitOn separator cs ++ splitOn separator ds := by
  induction cs with
  | nil => simp [splitOn]
  | cons c cs ih =>
    by_cases hc : c = separator
    · simp only [List.cons_append, splitOn, hc, if_true, ih]
    · obtain ⟨part, parts, hparts⟩ := exists_splitOn_eq_cons separator cs
      rw [hparts, List.cons_append] at ih
      rw [List.cons_append, splitOn_cons_of_ne hc ih, splitOn_cons_of_ne hc hparts,
        List.cons_append]

theorem not_mem_of_mem_splitOn {part : List Char} (h : part ∈ splitOn separator cs) :
    separator ∉ part := by
  induction cs generalizing part with
  | nil =>
    obtain rfl := List.mem_singleton.1 h
    exact List.not_mem_nil
  | cons c cs ih =>
    by_cases hc : c = separator
    · rw [splitOn, if_pos hc] at h
      rcases List.mem_cons.1 h with rfl | h
      · exact List.not_mem_nil
      · exact ih h
    · obtain ⟨first, parts, hparts⟩ := exists_splitOn_eq_cons separator cs
      rw [splitOn_cons_of_ne hc hparts] at h
      rcases List.mem_cons.1 h with rfl | h
      · rw [List.mem_cons, not_or]
        exact ⟨Ne.symm hc, ih (hparts ▸ List.mem_cons_self)⟩
      · exact ih (hparts ▸ List.mem_cons_of_mem first h)

end Workbench.Text
