import Workbench.Proofs.Json.Lookup

/-!
# Tokens before blanks

A reader that stops of its own accord, at a closing quote or brace or at a byte that does not go on
with a number, does not look at the end of the text: if blanks stand there they can be taken away,
and it reads the same and leaves as much of the text.

`Contained` says this of a reader. `ContainedAt` says it of a reader and the bytes before the
blanks, for readers that only ever start at a byte which has been seen.

* `ContainedAt.bind`: readers in sequence, by which the lemmas follow the definitions;
* `contained_moreItems`, `contained_moreMembers`: what stands between the parts of a value;
* `containedAt_word`, `containedAt_string`, `containedAt_number`: the tokens.
-/
namespace Workbench.Json

/-- What `r` reads from `s` does not reach into blanks behind `s`, nor depend on them. -/
def Reader.ContainedAt {α : Type} (r : Reader α) (s : List UInt8) : Prop :=
  ∀ ⦃g a rest⦄, Gaps g → r (s ++ g) = .ok (a, rest) →
    ∃ t, rest = t ++ g ∧ t <:+ s ∧ r s = .ok (a, t)

def Reader.Contained {α : Type} (r : Reader α) : Prop := ∀ s, r.ContainedAt s

variable {α β σ : Type} {g s s' t rest : List UInt8} {b : UInt8} {r : Reader α}

/-! ## Readers in sequence -/

theorem Reader.Contained.suffix {a : α} (hr : r.Contained) (h : r s = .ok (a, t)) : t <:+ s := by
  obtain ⟨t', rfl, hsuffix, -⟩ := hr s gaps_nil (by rw [List.append_nil]; exact h)
  rwa [List.append_nil]

theorem containedAt_pure (a : α) : (pure a : Reader α).ContainedAt s := by
  intro g a' rest hg h
  cases h
  exact ⟨s, rfl, List.suffix_refl s, rfl⟩

/-- Readers that never succeed. -/
theorem containedAt_of_ne_ok (h : ∀ g a rest, r (s ++ g) ≠ .ok (a, rest)) : r.ContainedAt s :=
  fun g a rest _ hread => absurd hread (h g a rest)

theorem Reader.ContainedAt.bind {f : α → Reader β} (hr : r.ContainedAt s)
    (hf : ∀ {a t}, r s = .ok (a, t) → (f a).ContainedAt t) : (r >>= f).ContainedAt s := by
  intro g b rest hg h
  obtain ⟨a, s₁, hread, h⟩ := of_bind_ok h
  obtain ⟨t, rfl, hsuffix, hread⟩ := hr hg hread
  obtain ⟨t', rfl, hsuffix', h⟩ := hf hread hg h
  exact ⟨t', rfl, hsuffix'.trans hsuffix, by rw [bind_of_ok hread, h]⟩

/-- A decision that does not depend on blanks at the end. -/
theorem containedAt_ite {P : List UInt8 → Prop} [DecidablePred P] {r₁ r₂ : Reader α}
    (hP : ∀ g, Gaps g → (P (s ++ g) ↔ P s)) (h₁ : P s → r₁.ContainedAt s)
    (h₂ : ¬ P s → r₂.ContainedAt s) :
    Reader.ContainedAt (fun s => if P s then r₁ s else r₂ s) s := by
  intro g a rest hg h
  dsimp only at h ⊢
  by_cases hs : P s
  · rw [if_pos ((hP g hg).mpr hs)] at h
    obtain ⟨t, rfl, hsuffix, h⟩ := h₁ hs hg h
    exact ⟨t, rfl, hsuffix, by rw [if_pos hs, h]⟩
  · rw [if_neg fun hpadded => hs ((hP g hg).mp hpadded)] at h
    obtain ⟨t, rfl, hsuffix, h⟩ := h₂ hs hg h
    exact ⟨t, rfl, hsuffix, by rw [if_neg hs, h]⟩

/-! ## Punctuation -/

theorem skipGaps_gaps (hg : Gaps g) : skipGaps g = [] := List.dropWhile_eq_nil_iff.mpr hg

/-- A token that stands before blanks at the end is found without them. -/
theorem skipGaps_of_append (hg : Gaps g) (h : skipGaps (s ++ g) = b :: rest) :
    ∃ t, rest = t ++ g ∧ skipGaps s = b :: t := by
  cases hs : skipGaps s with
  | nil =>
    rw [skipGaps_append (List.dropWhile_eq_nil_iff.mp hs), skipGaps_gaps hg] at h
    cases h
  | cons c t =>
    have happend : skipGaps (s ++ g) = skipGaps s ++ g := by
      have hnotAll : (List.dropWhile isGap s).isEmpty = false := by
        change (skipGaps s).isEmpty = false
        rw [hs]
        rfl
      rw [skipGaps, List.dropWhile_append, hnotAll]
      rfl
    rw [happend, hs] at h
    cases h
    exact ⟨t, rfl, rfl⟩

theorem skipGaps_suffix (s : List UInt8) : skipGaps s <:+ s := List.dropWhile_suffix _

/-- A reader that looks at the next byte, and stops if there is none. -/
theorem contained_peek_bind {f : Option UInt8 → Reader α}
    (hnone : ∀ s a rest, f none s ≠ .ok (a, rest))
    (hsome : ∀ b s, (f (some b)).ContainedAt (b :: s)) : (peek >>= f).Contained := by
  intro s g a rest hg h
  obtain ⟨next, s₁, hpeek, h⟩ := of_bind_ok h
  obtain ⟨rfl, rfl⟩ := of_peek hpeek
  cases hs : skipGaps (s ++ g) with
  | nil =>
    rw [hs] at h
    exact absurd h (hnone _ _ _)
  | cons b u =>
    rw [hs] at h
    obtain ⟨t, rfl, ht⟩ := skipGaps_of_append hg hs
    obtain ⟨t', rfl, hsuffix, h⟩ := hsome b t hg h
    refine ⟨t', rfl, hsuffix.trans ?_, by rw [bind_of_ok (peek_of_skipGaps ht), h]⟩
    exact ht ▸ skipGaps_suffix s

theorem stopPast_ne_ok {p : Problem} {a : α} : Reader.stopPast p s ≠ .ok (a, rest) := nofun

theorem contained_stopPast (p : Problem) : (Reader.stopPast p : Reader α).ContainedAt s :=
  containedAt_of_ne_ok fun _ _ _ => stopPast_ne_ok

theorem contained_head : head.Contained :=
  contained_peek_bind (fun _ _ _ => stopPast_ne_ok) fun _ _ => containedAt_pure _

theorem containedAt_advance : advance.ContainedAt (b :: s) := by
  intro g a rest hg h
  cases h
  exact ⟨s, rfl, List.suffix_cons b s, rfl⟩

theorem contained_colon : colon.Contained := by
  refine contained_peek_bind (fun _ _ _ => stopPast_ne_ok) fun b s => ?_
  split
  · exact containedAt_advance
  · exact contained_stopPast _
  · exact contained_stopPast _

theorem contained_moreItems (first : Bool) : (moreItems first).Contained := by
  refine contained_peek_bind (fun _ _ _ => stopPast_ne_ok) fun b s => ?_
  split
  · exact contained_stopPast _
  · exact containedAt_pure _
  · split
    · exact containedAt_pure _
    split
    · refine containedAt_advance.bind fun _ => ?_
      refine contained_peek_bind (fun _ _ _ => stopPast_ne_ok) (fun c t => ?_) _
      split
      · exact contained_stopPast _
      · exact containedAt_pure _
      · exact contained_stopPast _
    · exact contained_stopPast _

theorem contained_moreMembers (first : Bool) : (moreMembers first).Contained := by
  refine contained_peek_bind (fun _ _ _ => stopPast_ne_ok) fun b s => ?_
  split
  · exact contained_stopPast _
  · exact containedAt_pure _
  · split
    · split
      · exact containedAt_pure _
      · exact contained_stopPast _
    split
    · refine containedAt_advance.bind fun _ => ?_
      refine contained_peek_bind (fun _ _ _ => stopPast_ne_ok) (fun c t => ?_) _
      split
      · exact containedAt_pure _
      · exact contained_stopPast _
      · exact contained_stopPast _
      · exact contained_stopPast _
    · exact contained_stopPast _

/-! ## Words and texts -/

theorem contained_word {bs : List UInt8} (hbs : ∀ b ∈ bs, isGap b = false) :
    (word bs).Contained := by
  induction bs with
  | nil => exact fun s => containedAt_pure ()
  | cons b bs ih =>
    obtain ⟨hb, hbs⟩ := List.forall_mem_cons.mp hbs
    intro s g a rest hg h
    cases s with
    | nil =>
      unfold word at h
      split at h
      · cases h
      · rename_i c g' hgap
        split at h
        · rename_i hc
          have := hg c (by rw [List.nil_append] at hgap; rw [hgap]; exact List.mem_cons_self)
          rw [hc, hb] at this
          cases this
        · cases h
    | cons c s =>
      rw [List.cons_append, word] at h
      dsimp only at h
      split at h
      · rename_i hc
        obtain ⟨t, rfl, hsuffix, h⟩ := ih hbs s hg h
        refine ⟨t, rfl, hsuffix.trans (List.suffix_cons c s), ?_⟩
        rw [word]
        dsimp only
        rw [if_pos hc, h]
      · cases h

/-- A word behind its first byte. -/
theorem containedAt_word {bs : List UInt8} (hbs : ∀ b ∈ bs, isGap b = false) :
    Reader.ContainedAt (do advance; word bs) (b :: s) :=
  containedAt_advance.bind fun _ => contained_word hbs _

/-- What the next byte of a text comes to, whatever follows it: the end of the text, another byte to
read, or a fault. -/
theorem stringRest_cons_cases (acc : List UInt8) (e : Escape) (b : UInt8) :
    (b = 0x22 ∧ ∀ s, stringRest acc e (b :: s) = .ok (acc.reverse, s)) ∨
      (∃ acc' e', ∀ s, stringRest acc e (b :: s) = stringRest acc' e' s) ∨
      ∀ s, ∃ stop, stringRest acc e (b :: s) = .error stop := by
  cases e with
  | none =>
    simp only [stringRest]
    split_ifs with hquote hslash hcontrol
    · exact .inl ⟨hquote, fun _ => rfl⟩
    · exact .inr (.inl ⟨_, _, fun _ => rfl⟩)
    · exact .inr (.inr fun _ => ⟨_, rfl⟩)
    · exact .inr (.inl ⟨_, _, fun _ => rfl⟩)
  | backslash =>
    simp only [stringRest]
    split
    · exact .inr (.inl ⟨_, _, fun _ => rfl⟩)
    · cases shortEscape b with
      | some c => exact .inr (.inl ⟨_, _, fun _ => rfl⟩)
      | none => exact .inr (.inr fun _ => ⟨_, rfl⟩)
  | hex due value lead =>
    simp only [stringRest]
    generalize (do return (← value) * 16 + (← hexValue b) : Option Nat) = value'
    split
    · cases value' with
      | none => exact .inr (.inr fun _ => ⟨_, rfl⟩)
      | some n =>
        cases lead with
        | none =>
          dsimp only
          split_ifs
          · exact .inr (.inr fun _ => ⟨_, rfl⟩)
          · exact .inr (.inl ⟨_, _, fun _ => rfl⟩)
          · exact .inr (.inl ⟨_, _, fun _ => rfl⟩)
        | some m =>
          dsimp only
          split_ifs
          · exact .inr (.inl ⟨_, _, fun _ => rfl⟩)
          · exact .inr (.inr fun _ => ⟨_, rfl⟩)
    · exact .inr (.inl ⟨_, _, fun _ => rfl⟩)
  | pair lead backslash =>
    cases backslash <;> simp only [stringRest] <;> split
    · exact .inr (.inl ⟨_, _, fun _ => rfl⟩)
    · exact .inr (.inr fun _ => ⟨_, rfl⟩)
    · exact .inr (.inl ⟨_, _, fun _ => rfl⟩)
    · exact .inr (.inr fun _ => ⟨_, rfl⟩)

/-- A text is not closed by blanks. -/
theorem stringRest_gaps {acc bs : List UInt8} {e : Escape} (hg : Gaps g) :
    stringRest acc e g ≠ .ok (bs, rest) := by
  induction g generalizing acc e with
  | nil => cases e <;> exact nofun
  | cons b g ih =>
    obtain ⟨hb, hg⟩ := List.forall_mem_cons.mp hg
    intro h
    rcases stringRest_cons_cases acc e b with ⟨rfl, -⟩ | ⟨acc', e', hstep⟩ | hstop
    · cases hb
    · rw [hstep] at h
      exact ih hg h
    · obtain ⟨stop, hstop⟩ := hstop g
      rw [hstop] at h
      cases h

theorem contained_stringRest (acc : List UInt8) (e : Escape) : (stringRest acc e).Contained := by
  intro s
  induction s generalizing acc e with
  | nil => exact fun g bs rest hg h => absurd h (stringRest_gaps hg)
  | cons b s ih =>
    intro g bs rest hg h
    rcases stringRest_cons_cases acc e b with ⟨-, hclose⟩ | ⟨acc', e', hstep⟩ | hstop
    · rw [List.cons_append, hclose] at h
      cases h
      exact ⟨s, rfl, List.suffix_cons b s, hclose s⟩
    · rw [List.cons_append, hstep] at h
      obtain ⟨t, rfl, hsuffix, h⟩ := ih acc' e' hg h
      exact ⟨t, rfl, hsuffix.trans (List.suffix_cons b s), by rw [hstep, h]⟩
    · obtain ⟨stop, hstop⟩ := hstop (s ++ g)
      rw [List.cons_append, hstop] at h
      cases h

theorem containedAt_string : string.ContainedAt (b :: s) := by
  intro g a rest hg h
  rw [List.cons_append, string, advance_bind] at h
  obtain ⟨start, s₁, hstart, h⟩ := of_bind_ok h
  cases hstart
  obtain ⟨bs, s₂, hrest, h⟩ := of_bind_ok h
  obtain ⟨t, rfl, hsuffix, hrest⟩ := contained_stringRest [] .none s hg hrest
  cases hbytes : Text.ofBytes? bs with
  | none =>
    rw [hbytes] at h
    cases h
  | some text =>
    rw [hbytes] at h
    cases h
    refine ⟨t, rfl, hsuffix.trans (List.suffix_cons b s), ?_⟩
    rw [string, advance_bind]
    show (get >>= fun start => stringRest [] .none >>= _ : Reader String) s = _
    rw [bind_of_ok (show (get : Reader _) s = .ok (s, s) from rfl), bind_of_ok hrest, hbytes]
    rfl

/-! ## Numbers -/

theorem ends_of_gaps (hg : Gaps g) : Ends g := by
  have h := ends_gaps hg ends_nil
  rwa [List.append_nil] at h

theorem head?_append_gaps (hg : Gaps g) (hb : isGap b = false) :
    (s ++ g).head? = some b ↔ s.head? = some b := by
  cases s with
  | nil =>
    refine ⟨fun h => ?_, nofun⟩
    have hgap := hg b (List.mem_of_mem_head? h)
    rw [hb] at hgap
    cases hgap
  | cons c s => rfl

theorem isExponentMark_append_gaps (hg : Gaps g) :
    isExponentMark (s ++ g).head? = isExponentMark s.head? := by
  cases s with
  | nil => exact (ends_of_gaps hg).not_exponentMark
  | cons c s => rfl

theorem digits_append_gaps (hg : Gaps g) :
    digits (s ++ g) = ((digits s).1, (digits s).2 ++ g) := by
  induction s with
  | nil =>
    cases g with
    | nil => rfl
    | cons b g =>
      have hb : isDigit b = false := (ends_of_gaps hg).noDigit b rfl
      simp [digits, hb]
  | cons b s ih =>
    obtain ⟨hdigits, hrest⟩ := Prod.mk.inj ih
    cases hb : isDigit b with
    | true => simpa [digits, hb] using ⟨hdigits, hrest⟩
    | false => simp [digits, hb]

theorem digits_suffix (s : List UInt8) : (digits s).2 <:+ s := List.dropWhile_suffix _

section Numbers

variable {negative : Bool} {significand dropped : Nat} {exponent : Int}

theorem contained_floatOf : (floatOf negative significand exponent).Contained := by
  intro s g n rest hg h
  unfold floatOf at h ⊢
  split at h
  · cases h
    exact ⟨s, rfl, List.suffix_refl s, rfl⟩
  · cases h

/-- Whether a minus stands before the digits of an exponent, and what follows the sign. -/
def exponentSign (s : List UInt8) : Bool × List UInt8 :=
  if s.head? = some 0x2B then (false, s.tail)
  else if s.head? = some 0x2D then (true, s.tail)
  else (false, s)

/-- The digits of an exponent. -/
def exponentDigitsPart (negative : Bool) (significand : Nat) (exponent : Int) (down : Bool) :
    Reader Number := fun s =>
  match s with
  | [] => .error (.placed (.fault .endInValue) 0)
  | b :: after =>
    if isDigit b then
      let (ds, rest) := digits s
      match absorb maxExponent 0 ds with
      | (e, []) =>
        floatOf negative significand (if down then exponent - e else exponent + e) rest
      | (_, _ :: more) =>
        if significand ≠ 0 ∧ ¬ down then
          .error (.placed (.fault .numberTooLarge) (more.length + rest.length))
        else .ok (.float (Binary64.zero negative), rest)
    else .error (.placed (.fault .badNumber) after.length)

theorem exponentPart_eq (s : List UInt8) : exponentPart negative significand exponent s =
    exponentDigitsPart negative significand exponent (exponentSign s.tail).1
      (exponentSign s.tail).2 := rfl

theorem exponentSign_append_gaps (hg : Gaps g) :
    exponentSign (s ++ g) = ((exponentSign s).1, (exponentSign s).2 ++ g) := by
  cases s with
  | nil =>
    have hne {b : UInt8} (hb : isGap b = false) : g.head? ≠ some b := fun h =>
      nomatch (head?_append_gaps (s := []) hg hb).mp h
    have hplus := hne (b := 0x2B) rfl
    have hminus := hne (b := 0x2D) rfl
    simp [exponentSign, hplus, hminus]
  | cons b s =>
    simp only [exponentSign, List.cons_append, List.head?_cons, List.tail_cons]
    by_cases hplus : some b = some 0x2B
    · simp only [hplus, if_true]
    · by_cases hminus : some b = some 0x2D <;> simp [hplus, hminus]

theorem exponentSign_suffix (s : List UInt8) : (exponentSign s).2 <:+ s := by
  unfold exponentSign
  split_ifs
  · exact List.tail_suffix s
  · exact List.tail_suffix s
  · exact List.suffix_refl s

theorem contained_exponentDigitsPart {down : Bool} :
    (exponentDigitsPart negative significand exponent down).Contained := by
  intro s g n rest hg h
  cases s with
  | nil =>
    cases g with
    | nil => cases h
    | cons b g =>
      have hb : isDigit b = false := (ends_of_gaps hg).noDigit b rfl
      simp only [exponentDigitsPart, List.nil_append, hb] at h
      cases h
  | cons b s =>
    simp only [exponentDigitsPart, List.cons_append] at h ⊢
    rw [← List.cons_append, digits_append_gaps hg] at h
    dsimp only at h
    have hsuffix := digits_suffix (b :: s)
    split at h
    · rename_i hb
      simp only [hb, if_true]
      split at h
      · obtain ⟨t, rfl, hsuffix', h⟩ := contained_floatOf _ hg h
        exact ⟨t, rfl, hsuffix'.trans hsuffix, h⟩
      · split at h
        · cases h
        · rename_i hzero
          cases h
          exact ⟨_, rfl, hsuffix, if_neg hzero⟩
    · cases h

theorem containedAt_exponentPart :
    (exponentPart negative significand exponent).ContainedAt (b :: s) := by
  intro g n rest hg h
  rw [exponentPart_eq, List.cons_append, List.tail_cons, exponentSign_append_gaps hg] at h
  obtain ⟨t, rfl, hsuffix, h⟩ := contained_exponentDigitsPart _ hg h
  exact ⟨t, rfl, (hsuffix.trans (exponentSign_suffix s)).trans (List.suffix_cons b s), h⟩

/-- What stands at an exponent mark is not the end. -/
theorem exists_cons_of_exponentMark (h : isExponentMark s.head? = true) : ∃ b t, s = b :: t := by
  cases s with
  | nil => cases h
  | cons b t => exact ⟨b, t, rfl⟩

theorem containedAt_fractionPart :
    (fractionPart negative significand exponent).ContainedAt (b :: s) := by
  intro g n rest hg h
  unfold fractionPart at h ⊢
  rw [List.cons_append, List.tail_cons, digits_append_gaps hg] at h
  rw [List.tail_cons]
  dsimp only at h ⊢
  have hsuffix := (digits_suffix s).trans (List.suffix_cons b s)
  split at h
  · split at h <;> cases h
  rename_i hdigits
  rw [if_neg hdigits]
  rw [isExponentMark_append_gaps hg] at h
  split at h
  · rename_i hmark
    rw [if_pos hmark]
    obtain ⟨c, u, hcons⟩ := exists_cons_of_exponentMark hmark
    rw [hcons] at h hsuffix ⊢
    obtain ⟨t, rfl, hsuffix', h⟩ := containedAt_exponentPart hg h
    exact ⟨t, rfl, hsuffix'.trans hsuffix, h⟩
  · rename_i hmark
    rw [if_neg hmark]
    obtain ⟨t, rfl, hsuffix', h⟩ := contained_floatOf _ hg h
    exact ⟨t, rfl, hsuffix'.trans hsuffix, h⟩

theorem contained_afterDigits : (afterDigits negative significand dropped).Contained := by
  intro s
  have hconst {c : Prop} (g : List UInt8) (_ : Gaps g) : c ↔ c := Iff.rfl
  unfold afterDigits
  refine containedAt_ite (fun g hg => head?_append_gaps hg rfl) (fun hpoint => ?point) fun _ => ?_
  case point =>
    rw [eq_cons_of_head? hpoint]
    exact containedAt_fractionPart
  refine containedAt_ite (fun g hg => by rw [isExponentMark_append_gaps hg]) (fun hmark => ?mark)
    fun _ => ?_
  case mark =>
    obtain ⟨b, t, rfl⟩ := exists_cons_of_exponentMark hmark
    exact containedAt_exponentPart
  refine containedAt_ite hconst (fun _ => contained_floatOf s) fun _ => ?_
  refine containedAt_ite hconst (fun _ => containedAt_pure _) fun _ => ?_
  exact containedAt_ite hconst (fun _ => containedAt_pure _) fun _ => contained_floatOf s

theorem contained_unsigned : (unsigned negative).Contained := by
  intro s g n rest hg h
  cases s with
  | nil =>
    cases g with
    | nil => cases h
    | cons b g =>
      have hb : isDigit b = false := (ends_of_gaps hg).noDigit b rfl
      have hzero : b ≠ 0x30 := by
        rintro rfl
        cases hb
      simp [unsigned, hb, hzero] at h
  | cons b s =>
    have htail := List.suffix_cons b s
    rw [List.cons_append, unsigned] at h
    rw [unsigned]
    dsimp only at h ⊢
    split at h
    · rename_i hzero
      rw [if_pos hzero]
      split at h
      · cases h
      · rename_i hdigit
        have hdigit' : ¬ (s.head?.map isDigit).getD false = true := by
          cases s with
          | nil => exact Bool.false_ne_true
          | cons c s => exact hdigit
        rw [if_neg hdigit']
        obtain ⟨t, rfl, hsuffix, h⟩ := contained_afterDigits s hg h
        exact ⟨t, rfl, hsuffix.trans htail, h⟩
    · rename_i hzero
      rw [if_neg hzero]
      split at h
      · rename_i hdigit
        rw [if_pos hdigit]
        rw [← List.cons_append, digits_append_gaps hg] at h
        obtain ⟨t, rfl, hsuffix, h⟩ := contained_afterDigits _ hg h
        exact ⟨t, rfl, hsuffix.trans (digits_suffix (b :: s)), h⟩
      · cases h

theorem containedAt_number {first : Head} : (number first).ContainedAt (b :: s) := by
  unfold number
  split
  · exact containedAt_advance.bind fun _ => contained_unsigned _
  · exact contained_unsigned _

end Numbers

end Workbench.Json
