import Mathlib.Data.List.Forall2
import Workbench.Menu
import Workbench.Proofs.Text.Blank
import Workbench.Proofs.Text.Lowercase

/-!
# Words for actions

An action is named by a word that somebody types. A text is a variant of a word (`IsVariant`) when
it differs from it in nothing but capital letters, dashes for underscores and blanks around it.

* `normalWord_eq_iff`: a text has an id for its normal form exactly if it is a variant of the id;
* `parse_eq_iff`: which action a text means;
* `Lowers.parse_eq_builtIn_iff`: it does not matter which small sigma stands for a capital one;
* `parse_trim`: blanks around a word do not count, whatever it names;
* `parse_settled`: hence the id of the action that was read is read as this action, and no id of a
  custom action that was read is a variant of a built-in id.
-/
namespace Workbench.Action

open Text (isBlank isBlankText lowerChar)

/-- The character that is typed stands for the one that is meant. -/
inductive StandsFor (typed meant : Char) : Prop
  | lower (h : lowerChar typed = [meant])
  | dash (htyped : typed = '-') (hmeant : meant = '_')

/-- `text` is `word` up to capital letters, dashes for underscores and blanks around it. -/
def IsVariant (text word : String) : Prop :=
  ∃ before typed after, text = before ++ typed ++ after ∧ isBlankText before = true ∧
    isBlankText after = true ∧ List.Forall₂ StandsFor typed.toList word.toList

/-- `lowered` is `cs` in lower case, whichever of its two small letters stands for a capital
sigma. -/
inductive Lowers : (cs lowered : List Char) → Prop
  | nil : Lowers [] []
  | char (c : Char) {cs lowered : List Char} (h : Lowers cs lowered) :
    Lowers (c :: cs) (lowerChar c ++ lowered)
  | finalSigma {cs lowered : List Char} (h : Lowers cs lowered) :
    Lowers ('Σ' :: cs) ('ς' :: lowered)

/-- The characters of which built-in ids are made. -/
def IsIdChar (c : Char) : Prop := c.isLower = true ∨ c = '_'

instance (c : Char) : Decidable (IsIdChar c) := inferInstanceAs (Decidable (_ ∨ _))

variable {c d : Char} {cs ds : List Char} {s word : String} {a b : Action}

/-! ## Characters -/

theorem IsIdChar.ne (h : IsIdChar c) (hd : ¬IsIdChar d) : c ≠ d := fun heq => hd (heq ▸ h)

theorem IsIdChar.not_blank (h : IsIdChar c) : isBlank c = false := by
  rcases h with hlower | rfl
  · have halpha : c.isAlpha = true := Bool.or_eq_true_iff.mpr (.inr hlower)
    exact Text.not_blank_of_isAlphanum (Bool.or_eq_true_iff.mpr (.inl halpha))
  · decide

/-- What stands for a character that is no blank is none itself. -/
theorem StandsFor.not_blank (h : StandsFor c d) (hd : isBlank d = false) : isBlank c = false := by
  cases h with
  | lower h =>
    rw [Bool.eq_false_iff]
    intro hblank
    rw [Text.lowerChar_of_isBlank hblank] at h
    rw [(List.cons.inj h).1, hd] at hblank
    cases hblank
  | dash htyped =>
    rw [htyped]
    decide

/-- A dash is written as an underscore. -/
def undash (c : Char) : Char := if c = '-' then '_' else c

theorem undash_lowerChar_of_standsFor (h : StandsFor c d) (hd : IsIdChar d) :
    (lowerChar c).map undash = [d] := by
  cases h with
  | lower h => rw [h, List.map_singleton, undash, if_neg (hd.ne (by decide))]
  | dash htyped hmeant =>
    rw [htyped, hmeant]
    decide

/-- What is normalised to characters of ids is normalised to one, for which it stands. -/
theorem exists_standsFor (h : ∀ d ∈ (lowerChar c).map undash, IsIdChar d) :
    ∃ d, (lowerChar c).map undash = [d] ∧ StandsFor c d := by
  rcases Text.lowerChar_cases c with ⟨d, hd⟩ | hdotted
  · rw [hd]
    refine ⟨undash d, rfl, ?_⟩
    by_cases hdash : d = '-'
    · subst hdash
      exact .dash (Text.eq_dash_of_lowerChar hd) rfl
    · rw [undash, if_neg hdash]
      exact .lower hd
  · rw [hdotted] at h
    exact absurd (h '\u0307' (by decide)) (by decide)

/-- A capital sigma stands for no character of an id. -/
theorem not_standsFor_sigma (hd : IsIdChar d) : ¬StandsFor 'Σ' d := by
  intro h
  cases h with
  | lower h =>
    have hsigma : lowerChar 'Σ' = ['σ'] := by decide
    rw [← (List.cons.inj (hsigma.symm.trans h)).1] at hd
    exact absurd hd (by decide)
  | dash htyped => exact absurd htyped (by decide)

/-! ## Normal forms -/

theorem toList_normalWord (s : String) :
    (normalWord s).toList = ((Text.trim s).toList.flatMap lowerChar).map undash := by
  simp [normalWord, Text.lower, undash]

theorem lowers_flatMap (cs : List Char) : Lowers cs (cs.flatMap lowerChar) := by
  induction cs with
  | nil => exact .nil
  | cons c cs ih => exact .char c ih

/-- However sigmas are lowered, characters of ids come out of what stands for them only. -/
theorem Lowers.map_undash_eq_iff {lowered : List Char} (h : Lowers cs lowered)
    (hds : ∀ d ∈ ds, IsIdChar d) : lowered.map undash = ds ↔ List.Forall₂ StandsFor cs ds := by
  induction h generalizing ds with
  | nil => simp [eq_comm]
  | char c _ ih =>
    rw [List.map_append]
    constructor
    · rintro rfl
      rw [List.forall_mem_append] at hds
      obtain ⟨d, hd, hstands⟩ := exists_standsFor hds.1
      rw [hd]
      exact .cons hstands ((ih hds.2).mp rfl)
    · rintro (_ | ⟨hstands, hrest⟩)
      rw [List.forall_mem_cons] at hds
      rw [undash_lowerChar_of_standsFor hstands hds.1, (ih hds.2).mpr hrest]
      rfl
  | finalSigma =>
    constructor
    · rintro rfl
      exact absurd (List.forall_mem_cons.mp hds).1 (by decide)
    · rintro (_ | ⟨hstands, -⟩)
      exact absurd hstands (not_standsFor_sigma (List.forall_mem_cons.mp hds).1)

theorem not_blank_of_standsFor (h : List.Forall₂ StandsFor cs ds) (hds : ∀ d ∈ ds, IsIdChar d) :
    ∀ c ∈ cs, isBlank c = false := by
  induction h with
  | nil => exact fun c hc => absurd hc List.not_mem_nil
  | cons hstands _ ih =>
    rw [List.forall_mem_cons] at hds ⊢
    exact ⟨hstands.not_blank hds.1.not_blank, ih hds.2⟩

/-- The normal form takes away just what makes a variant. -/
theorem normalWord_eq_iff (hword : ∀ c ∈ word.toList, IsIdChar c) :
    normalWord s = word ↔ IsVariant s word := by
  rw [← String.toList_inj, toList_normalWord, (lowers_flatMap _).map_undash_eq_iff hword]
  constructor
  · intro h
    obtain ⟨before, after, hs, hbefore, hafter, -⟩ := Text.exists_trim s
    exact ⟨before, Text.trim s, after, hs, hbefore, hafter, h⟩
  · rintro ⟨before, typed, after, rfl, hbefore, hafter, h⟩
    have htyped := Text.trimmed_of_forall (not_blank_of_standsFor h hword)
    rwa [Text.trim_padded hbefore htyped hafter]

/-! ## Reading -/

theorem isIdChar_of_builtIn : ∀ a ∈ builtIn, ∀ c ∈ a.id.toList, IsIdChar c := by
  simp [builtIn, Action.id, IsIdChar]

theorem id_injOn_builtIn : ∀ a ∈ builtIn, ∀ b ∈ builtIn, a.id = b.id → a = b := by
  decide

theorem parse_id_of_builtIn : ∀ a ∈ builtIn, parse a.id = a := by
  decide +kernel

theorem custom_not_builtIn (id : String) : .custom id ∉ builtIn := by
  simp [builtIn]

theorem parse_trim (s : String) : parse (Text.trim s) = parse s := by
  unfold parse normalWord
  rw [Text.trim_trim]

/-- A word means the built-in action whose id is its normal form and, if there is none, a custom
action. -/
theorem parse_eq_iff (input : String) (a : Action) : parse input = a ↔
    (a ∈ builtIn ∧ normalWord input = a.id) ∨
      (a = .custom (Text.trim input) ∧ ∀ b ∈ builtIn, normalWord input ≠ b.id) := by
  unfold parse
  split
  · rename_i b hfind
    have hb := List.mem_of_find?_eq_some hfind
    have hword := List.find?_some hfind
    rw [beq_iff_eq] at hword
    constructor
    · rintro rfl
      exact .inl ⟨hb, hword.symm⟩
    · rintro (⟨ha, hid⟩ | ⟨-, hnone⟩)
      · exact id_injOn_builtIn b hb a ha (hword.trans hid)
      · exact absurd hword.symm (hnone b hb)
  · rename_i hfind
    have hnone : ∀ b ∈ builtIn, normalWord input ≠ b.id := fun b hb heq =>
      List.find?_eq_none.mp hfind b hb (beq_iff_eq.mpr heq.symm)
    constructor
    · rintro rfl
      exact .inr ⟨rfl, hnone⟩
    · rintro (⟨ha, hid⟩ | ⟨rfl, -⟩)
      · exact absurd hid (hnone a ha)
      · rfl

theorem parse_eq_builtIn_iff (ha : a ∈ builtIn) (input : String) :
    parse input = a ↔ normalWord input = a.id := by
  rw [parse_eq_iff]
  constructor
  · rintro (⟨-, hid⟩ | ⟨rfl, -⟩)
    · exact hid
    · exact absurd ha (custom_not_builtIn _)
  · exact fun hid => .inl ⟨ha, hid⟩

theorem parse_eq_builtIn_iff_isVariant (ha : a ∈ builtIn) (input : String) :
    parse input = a ↔ IsVariant input a.id :=
  (parse_eq_builtIn_iff ha input).trans (normalWord_eq_iff (isIdChar_of_builtIn a ha))

/-- No built-in id depends on how sigmas are lowered. -/
theorem Lowers.parse_eq_builtIn_iff {input : String} {lowered : List Char}
    (h : Lowers (Text.trim input).toList lowered) (ha : a ∈ builtIn) :
    parse input = a ↔ lowered.map undash = a.id.toList := by
  have hid := isIdChar_of_builtIn a ha
  rw [Action.parse_eq_builtIn_iff ha, ← String.toList_inj, toList_normalWord,
    (lowers_flatMap _).map_undash_eq_iff hid, h.map_undash_eq_iff hid]

/-- The id of an action that was read is read as this action. -/
theorem parse_id_parse (input : String) : parse (parse input).id = parse input := by
  rcases (parse_eq_iff input _).mp rfl with ⟨hbuiltIn, -⟩ | ⟨hcustom, -⟩
  · exact parse_id_of_builtIn _ hbuiltIn
  · have hid : (parse input).id = Text.trim input := by
      rw [hcustom]
      rfl
    rw [hid, parse_trim]

/-- **Reading settles.** The id of an action that was read is read as this action again. A word
means a built-in action exactly if its normal form is the id of the action, however sigmas are
lowered, which is to say if it is a variant of the id, and else the custom action under the trimmed
word. No id of a custom action that was read is a variant of a built-in id. -/
theorem parse_settled (input : String) :
    parse (parse input).id = parse input ∧
      (∀ a, parse input = a ↔ (a ∈ builtIn ∧ normalWord input = a.id) ∨
        (a = .custom (Text.trim input) ∧ ∀ b ∈ builtIn, normalWord input ≠ b.id)) ∧
      (∀ lowered, Lowers (Text.trim input).toList lowered →
        ∀ a ∈ builtIn, parse input = a ↔ lowered.map undash = a.id.toList) ∧
      (∀ a ∈ builtIn, parse input = a ↔ IsVariant input a.id) ∧
      ∀ id, parse input = .custom id → ∀ a ∈ builtIn, ¬IsVariant id a.id := by
  refine ⟨parse_id_parse input, parse_eq_iff input,
    fun lowered hlowers a ha => hlowers.parse_eq_builtIn_iff ha,
    fun a ha => parse_eq_builtIn_iff_isVariant ha input, ?_⟩
  intro id hid a ha hvariant
  have hagain : parse id = .custom id := by
    have hsettled := parse_id_parse input
    rwa [hid] at hsettled
  have hbuiltIn : parse id = a := (parse_eq_builtIn_iff_isVariant ha id).mpr hvariant
  exact custom_not_builtIn id (hagain.symm.trans hbuiltIn ▸ ha)

/-- A built-in id that is typed loosely, and a word that only begins like one. -/
theorem parse_settled_typed :
    parse " Switch-To_CHATFLOW\t" = .switchToChatflow ∧
      IsVariant " Switch-To_CHATFLOW\t" "switch_to_chatflow" ∧
      parse " Copy-All " = .custom "Copy-All" ∧ ¬IsVariant "Copy-All" "copy" := by
  have hswitch : parse " Switch-To_CHATFLOW\t" = .switchToChatflow := by decide +kernel
  have hcopy : parse " Copy-All " = .custom "Copy-All" := by decide +kernel
  exact ⟨hswitch, ((parse_settled _).2.2.2.1 _ (by decide)).mp hswitch, hcopy,
    (parse_settled _).2.2.2.2 _ hcopy .copy (by decide)⟩

end Workbench.Action
