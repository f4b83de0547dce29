import Workbench.Proofs.Json.Reread

/-!
# Values read back

A written value comes back as `reread` says exactly if no more arrays and objects are open at once
than the reader allows. An `Outcome` says both at once: what is read if everything fits, and where
reading stops otherwise.

* `items_write`, `members_write`: arrays and objects are read back by whatever reads their parts.
* `value_write`: reading a written value, with a layout that puts only blanks between the parts
  and with any bytes behind it that do not continue a number.
* `read_write`: the same for whole texts.
-/
namespace Workbench.Json

open Text (bytes)

/-! ## Outcomes -/

/-- Reading comes to `a` if nothing is nested too deeply, and stops at the nesting otherwise. -/
structure Outcome {α : Type} (fits : Prop) (a : α) (rest : List UInt8)
    (result : Except Stop (α × List UInt8)) : Prop where
  ok : fits → result = .ok (a, rest)
  tooDeep : ¬ fits → ∃ left, result = .error (.placed (.fault .tooDeep) left)

namespace Outcome

variable {α β : Type} {P Q : Prop} {a : α} {b : β} {s s' s'' : List UInt8} {r : Reader α}
  {f : α → Reader β} {result : Except Stop (α × List UInt8)}

theorem of_ok (h : result = .ok (a, s)) : Outcome True a s result :=
  ⟨fun _ => h, fun hn => absurd trivial hn⟩

theorem congr (h : Outcome P a s result) (hiff : P ↔ Q) : Outcome Q a s result :=
  ⟨fun hq => h.ok (hiff.mpr hq), fun hq => h.tooDeep fun hp => hq (hiff.mp hp)⟩

theorem bind (h : Outcome P a s' (r s)) (hf : Outcome Q b s'' (f a s')) :
    Outcome (P ∧ Q) b s'' ((r >>= f) s) := by
  refine ⟨fun ⟨hp, hq⟩ => ?_, fun hn => ?_⟩
  · rw [bind_of_ok (h.ok hp), hf.ok hq]
  · by_cases hp : P
    · rw [bind_of_ok (h.ok hp)]
      exact hf.tooDeep fun hq => hn ⟨hp, hq⟩
    · obtain ⟨left, herror⟩ := h.tooDeep hp
      exact ⟨left, bind_of_error herror⟩

/-- Behind a step that cannot stop. -/
theorem after (h : r s = .ok (a, s')) (hf : Outcome P b s'' (f a s')) :
    Outcome P b s'' ((r >>= f) s) := by
  rw [bind_of_ok h]
  exact hf

/-- Before a step that cannot stop. -/
theorem before (h : Outcome P a s' (r s)) (hf : f a s' = .ok (b, s'')) :
    Outcome P b s'' ((r >>= f) s) :=
  (h.bind (of_ok hf)).congr (and_iff_left trivial)

/-- Inside brackets. -/
theorem enclosed {c : UInt8} (h : Outcome P a s' (r s))
    (closing : List UInt8 → Option Fault × List UInt8) (hclosing : closing s' = (none, s'')) :
    Outcome P a s'' (enclosed closing r (c :: s)) := by
  refine ⟨fun hp => ?_, fun hp => ?_⟩
  · simp [Json.enclosed, h.ok hp, hclosing]
  · obtain ⟨left, herror⟩ := h.tooDeep hp
    exact ⟨left, by simp [Json.enclosed, herror]⟩

end Outcome

/-! ## Layouts -/

/-- A layout that puts nothing but blanks between the parts. -/
structure Layout.Blank (l : Layout) : Prop where
  gap : ∀ n, Gaps (bytes (l.gap n))
  colon : ∃ g, Gaps g ∧ bytes l.colon = 0x3A :: g

theorem blank_compact : Layout.Blank .compact :=
  ⟨fun _ => by simp [Layout.compact, Gaps, bytes], [], gaps_nil, rfl⟩

theorem blank_pretty : Layout.Blank .pretty where
  gap n := by
    intro b hb
    rw [Layout.pretty, Text.bytes_ofList, List.mem_flatMap] at hb
    obtain ⟨c, hc, hb⟩ := hb
    rcases List.mem_cons.mp hc with rfl | hc
    · rcases List.mem_singleton.mp hb with rfl
      rfl
    · rw [List.eq_of_mem_replicate hc] at hb
      rcases List.mem_singleton.mp hb with rfl
      rfl
  colon := ⟨[0x20], by simp [Gaps, isGap], rfl⟩

theorem ends_cons {b : UInt8} (hdigit : isDigit b = false) (hpoint : b ≠ 0x2E)
    (hmark : isExponentMark (some b) = false) (s : List UInt8) : Ends (b :: s) := by
  rintro _ ⟨⟩
  exact ⟨hdigit, hpoint, hmark⟩

/-- Blanks end a number. -/
theorem ends_gaps {g s : List UInt8} (hg : Gaps g) (hs : Ends s) : Ends (g ++ s) := by
  cases g with
  | nil => exact hs
  | cons b g =>
    have hgap : b = 0x20 ∨ b = 0x0A ∨ b = 0x09 ∨ b = 0x0D := by
      simpa [isGap, or_assoc] using hg b (by simp)
    rcases hgap with rfl | rfl | rfl | rfl <;> exact ends_cons rfl (by decide) rfl _

/-! ## Beginnings of values -/

/-- The first byte of a value: neither a blank nor a closing bracket. -/
def Starts (s : List UInt8) : Prop :=
  ∃ b tail, s = b :: tail ∧ isGap b = false ∧ b ≠ 0x5D

theorem Starts.append {s : List UInt8} (h : Starts s) (t : List UInt8) : Starts (s ++ t) := by
  obtain ⟨b, tail, rfl, hb⟩ := h
  exact ⟨b, tail ++ t, rfl, hb⟩

theorem isGap_of_isDigit {b : UInt8} (hb : isDigit b = true) : isGap b = false := by
  simp only [isGap, Bool.or_eq_false_iff, beq_eq_false_iff_ne]
  exact ⟨⟨⟨ne_of_isDigit hb rfl, ne_of_isDigit hb rfl⟩, ne_of_isDigit hb rfl⟩,
    ne_of_isDigit hb rfl⟩

/-- How the text of a value begins; only that of `null` begins with this letter. -/
theorem write_eq_cons (l : Layout) (level : Nat) {v : Json} (hv : Held v) :
    ∃ b tail, bytes (write l level v) = b :: tail ∧ isGap b = false ∧ b ≠ 0x5D ∧
      (b ≠ 0x6E ∨ v.isNull = true) := by
  cases hv with
  | null => exact ⟨0x6E, _, rfl, rfl, by decide, .inr rfl⟩
  | bool b => cases b <;> exact ⟨_, _, rfl, rfl, by decide, .inl (by decide)⟩
  | num hn =>
    obtain ⟨b, tail, htext, hb, -⟩ := number_writeNumber hn
    refine ⟨b, tail, htext, ?_⟩
    rcases hb with rfl | hb
    · exact ⟨rfl, by decide, .inl (by decide)⟩
    · exact ⟨isGap_of_isDigit hb, ne_of_isDigit hb rfl, .inl (ne_of_isDigit hb rfl)⟩
  | str s => exact ⟨_, _, bytes_writeString s, rfl, by decide, .inl (by decide)⟩
  | @arr vs _ =>
    cases vs with
    | nil => exact ⟨_, _, rfl, rfl, by decide, .inl (by decide)⟩
    | cons v vs =>
      rw [write, Text.bytes_append, Text.bytes_append]
      exact ⟨0x5B, _, rfl, rfl, by decide, .inl (by decide)⟩
  | @obj ms _ =>
    cases ms with
    | nil => exact ⟨_, _, rfl, rfl, by decide, .inl (by decide)⟩
    | cons m ms =>
      rw [write, Text.bytes_append, Text.bytes_append]
      exact ⟨0x7B, _, rfl, rfl, by decide, .inl (by decide)⟩

theorem starts_write (l : Layout) (level : Nat) {v : Json} (hv : Held v) :
    Starts (bytes (write l level v)) := by
  obtain ⟨b, tail, htext, hgap, hb, -⟩ := write_eq_cons l level hv
  exact ⟨b, tail, htext, hgap, hb⟩

/-! ## Arrays -/

section Arrays

variable {α : Type} {item : Reader α} {g s rest : List UInt8}

theorem moreItems_first (hg : Gaps g) (hs : Starts s) :
    moreItems true (g ++ s) = .ok (true, s) := by
  obtain ⟨b, tail, rfl, hgap, hb⟩ := hs
  rw [moreItems, bind_of_ok (peek_at hg hgap)]
  simp

theorem moreItems_comma (hg : Gaps g) (hs : Starts s) :
    moreItems false (0x2C :: (g ++ s)) = .ok (true, s) := by
  obtain ⟨b, tail, rfl, hgap, hb⟩ := hs
  have hnext := peek_at (s := tail) hg hgap
  rw [moreItems, bind_of_ok (peek_cons rfl)]
  simp [advance_bind, bind_of_ok hnext]

theorem moreItems_end (hg : Gaps g) (first : Bool) :
    moreItems first (g ++ 0x5D :: rest) = .ok (false, 0x5D :: rest) := by
  rw [moreItems, bind_of_ok (peek_at hg rfl)]
  rfl

theorem itemsUpTo_end (hg : Gaps g) (fuel : Nat) (first : Bool) :
    itemsUpTo item (fuel + 1) first (g ++ 0x5D :: rest) = .ok ([], 0x5D :: rest) := by
  rw [itemsUpTo, bind_of_ok (moreItems_end hg first)]
  rfl

/-- The text of `v` is read by `item` as `a`, if it `fits`. -/
def ReadsItem (l : Layout) (item : Reader α) (fits : Json → Prop) (v : Json) (a : α) : Prop :=
  Held v ∧ ∀ level rest, Ends rest →
    Outcome (fits v) a rest (item (bytes (write l level v) ++ rest))

/-- How `item` reads the text of each of `vs`: as what `f` makes of it, if it `fits`. -/
def ReadsEach (l : Layout) (item : Reader α) (fits : Json → Prop) (f : Json → α)
    (vs : List Json) : Prop :=
  ∀ v ∈ vs, ReadsItem l item fits v (f v)

variable {l : Layout} {fits : Json → Prop} {f : Json → α} {vs : List Json} {as : List α}

theorem ReadsEach.forall₂ (h : ReadsEach l item fits f vs) :
    List.Forall₂ (ReadsItem l item fits) vs (vs.map f) :=
  List.forall₂_map_right_iff.mpr (List.forall₂_same.mpr h)

theorem ends_writeItems (hg : Gaps g) (level : Nat) (vs : List Json) (rest : List UInt8) :
    Ends (bytes (writeItems l level vs) ++ (g ++ 0x5D :: rest)) := by
  cases vs with
  | nil =>
    show Ends (g ++ 0x5D :: rest)
    exact ends_gaps hg (ends_cons rfl (by decide) rfl rest)
  | cons v vs =>
    rw [writeItems, Text.bytes_append, Text.bytes_append]
    exact ends_cons rfl (by decide) rfl _

/-- The items after the first. -/
theorem itemsUpTo_writeItems (hl : l.Blank) (h : List.Forall₂ (ReadsItem l item fits) vs as)
    (hg : Gaps g) (level : Nat) {fuel : Nat} (hfuel : vs.length < fuel) :
    Outcome (∀ v ∈ vs, fits v) as (0x5D :: rest)
      (itemsUpTo item fuel false (bytes (writeItems l level vs) ++ (g ++ 0x5D :: rest))) := by
  induction h generalizing fuel with
  | nil =>
    obtain ⟨fuel, rfl⟩ := Nat.exists_eq_succ_of_ne_zero (Nat.ne_of_gt hfuel)
    exact (Outcome.of_ok (itemsUpTo_end hg fuel false)).congr (by simp)
  | @cons v a vs as hitem hvs ih =>
    obtain ⟨fuel, rfl⟩ := Nat.exists_eq_succ_of_ne_zero (Nat.ne_of_gt (Nat.zero_lt_of_lt hfuel))
    obtain ⟨hv, hitem⟩ := hitem
    have htext : bytes (writeItems l level (v :: vs)) ++ (g ++ 0x5D :: rest) =
        0x2C :: (bytes (l.gap level) ++ (bytes (write l level v) ++
          (bytes (writeItems l level vs) ++ (g ++ 0x5D :: rest)))) := by
      rw [writeItems]
      simp only [Text.bytes_append, List.append_assoc]
      rfl
    have hmore := moreItems_comma (hl.gap level) ((starts_write l level hv).append
      (bytes (writeItems l level vs) ++ (g ++ 0x5D :: rest)))
    rw [htext, itemsUpTo]
    refine (Outcome.after hmore ?_).congr List.forall_mem_cons.symm
    exact (hitem level _ (ends_writeItems hg level vs rest)).bind
      ((ih (Nat.lt_of_succ_lt_succ hfuel)).before rfl)

theorem length_le_writeItems (level : Nat) (vs : List Json) :
    vs.length ≤ (bytes (writeItems l level vs)).length := by
  induction vs with
  | nil => exact Nat.zero_le _
  | cons v vs ih =>
    rw [writeItems, Text.bytes_append, Text.bytes_append, List.length_append, List.length_append,
      List.length_cons]
    have : (bytes ",").length = 1 := rfl
    omega

/-- An array from behind its opening bracket. -/
theorem items_write (hl : l.Blank) (level : Nat) (h : List.Forall₂ (ReadsItem l item fits) vs as)
    (rest : List UInt8) :
    ∃ body, bytes (write l level (.arr vs)) = 0x5B :: body ∧
      Outcome (∀ v ∈ vs, fits v) as (0x5D :: rest) (items item (body ++ rest)) := by
  cases h with
  | nil =>
    refine ⟨[0x5D], rfl, ?_⟩
    exact (Outcome.of_ok (itemsUpTo_end gaps_nil _ true)).congr (by simp)
  | @cons v a vs as hitem hvs =>
    obtain ⟨hv, hitem⟩ := hitem
    refine ⟨bytes (l.gap (level + 1)) ++ (bytes (write l (level + 1) v) ++
      (bytes (writeItems l (level + 1) vs) ++ (bytes (l.gap level) ++ [0x5D]))), ?_, ?_⟩
    · rw [write]
      simp only [Text.bytes_append, List.append_assoc]
      rfl
    · have hmore := moreItems_first (hl.gap (level + 1)) ((starts_write l (level + 1) hv).append
        (bytes (writeItems l (level + 1) vs) ++ (bytes (l.gap level) ++ 0x5D :: rest)))
      have hlength := length_le_writeItems (l := l) (level + 1) vs
      simp only [List.append_assoc, List.singleton_append]
      unfold items
      rw [itemsUpTo]
      refine (Outcome.after hmore ?_).congr List.forall_mem_cons.symm
      refine (hitem (level + 1) _ (ends_writeItems (hl.gap level) _ vs rest)).bind
        ((itemsUpTo_writeItems hl hvs (hl.gap level) (level + 1) ?_).before rfl)
      simp only [List.length_append, List.length_cons]
      omega

end Arrays

/-! ## Objects -/

section Objects

variable {σ : Type} {member : σ → String → Reader σ} {g s rest : List UInt8}

theorem starts_writeString (s : String) (rest : List UInt8) :
    ∃ tail, bytes (writeString s) ++ rest = 0x22 :: tail := by
  rw [bytes_writeString]
  exact ⟨_, rfl⟩

theorem moreMembers_first (hg : Gaps g) (n : String) (rest : List UInt8) :
    moreMembers true (g ++ (bytes (writeString n) ++ rest)) =
      .ok (true, bytes (writeString n) ++ rest) := by
  obtain ⟨tail, htail⟩ := starts_writeString n rest
  rw [htail, moreMembers, bind_of_ok (peek_at hg rfl)]
  rfl

theorem moreMembers_comma (hg : Gaps g) (n : String) (rest : List UInt8) :
    moreMembers false (0x2C :: (g ++ (bytes (writeString n) ++ rest))) =
      .ok (true, bytes (writeString n) ++ rest) := by
  obtain ⟨tail, htail⟩ := starts_writeString n rest
  have hnext := peek_at (b := 0x22) (s := tail) hg rfl
  rw [htail, moreMembers, bind_of_ok (peek_cons rfl)]
  simp [advance_bind, bind_of_ok hnext]

theorem moreMembers_end (hg : Gaps g) (first : Bool) :
    moreMembers first (g ++ 0x7D :: rest) = .ok (false, 0x7D :: rest) := by
  rw [moreMembers, bind_of_ok (peek_at hg rfl)]
  rfl

theorem membersUpTo_end (hg : Gaps g) (fuel : Nat) (first : Bool) (acc : σ) :
    membersUpTo member (fuel + 1) first acc (g ++ 0x7D :: rest) = .ok (acc, 0x7D :: rest) := by
  rw [membersUpTo, bind_of_ok (moreMembers_end hg first)]
  rfl

/-- Behind the colon nothing but blanks stands before the value. -/
theorem colon_write {l : Layout} (hl : l.Blank) (s : List UInt8) :
    ∃ g, Gaps g ∧ colon (bytes l.colon ++ s) = .ok ((), g ++ s) := by
  obtain ⟨g, hg, hcolon⟩ := hl.colon
  refine ⟨g, hg, ?_⟩
  rw [hcolon, List.cons_append, colon, bind_of_ok (peek_cons rfl)]
  rfl

/-- The text behind the name of `m` takes `member` from `acc` to `acc'`, if it `fits`. -/
def ReadsMember (l : Layout) (member : σ → String → Reader σ) (fits : Json → Prop) (acc : σ)
    (m : String × Json) (acc' : σ) : Prop :=
  ∀ level rest, Ends rest → Outcome (fits m.2) acc' rest
    (member acc m.1 (bytes l.colon ++ (bytes (write l level m.2) ++ rest)))

/-- The texts of members in a row take `member` from one state to another. -/
inductive ReadsFrom (l : Layout) (member : σ → String → Reader σ) (fits : Json → Prop) :
    σ → List (String × Json) → σ → Prop
  | nil (acc : σ) : ReadsFrom l member fits acc [] acc
  | cons {acc acc' acc'' : σ} {m : String × Json} {ms : List (String × Json)}
      (first : ReadsMember l member fits acc m acc') (rest : ReadsFrom l member fits acc' ms acc'') :
      ReadsFrom l member fits acc (m :: ms) acc''

/-- How `member` reads the text behind each name of `ms`: as what `step` makes of the value, if it
`fits`. -/
def ReadsMembers (l : Layout) (member : σ → String → Reader σ) (fits : Json → Prop)
    (step : σ → String → Json → σ) (ms : List (String × Json)) : Prop :=
  ∀ m ∈ ms, ∀ acc, ReadsMember l member fits acc m (step acc m.1 m.2)

variable {l : Layout} {fits : Json → Prop} {step : σ → String → Json → σ}
  {ms : List (String × Json)} {acc acc' : σ}

theorem ReadsMembers.readsFrom (h : ReadsMembers l member fits step ms) (acc : σ) :
    ReadsFrom l member fits acc ms (ms.foldl (fun acc m => step acc m.1 m.2) acc) := by
  induction ms generalizing acc with
  | nil => exact .nil acc
  | cons m ms ih =>
    obtain ⟨hm, hms⟩ := List.forall_mem_cons.mp h
    exact .cons (hm acc) (ih hms _)

theorem ends_writeMembers (hg : Gaps g) (level : Nat) (ms : List (String × Json))
    (rest : List UInt8) : Ends (bytes (writeMembers l level ms) ++ (g ++ 0x7D :: rest)) := by
  cases ms with
  | nil =>
    show Ends (g ++ 0x7D :: rest)
    exact ends_gaps hg (ends_cons rfl (by decide) rfl rest)
  | cons m ms =>
    rw [writeMembers, Text.bytes_append, Text.bytes_append]
    exact ends_cons rfl (by decide) rfl _

/-- The members after the first. -/
theorem membersUpTo_writeMembers (hl : l.Blank) (h : ReadsFrom l member fits acc ms acc')
    (hg : Gaps g) (level : Nat) {fuel : Nat} (hfuel : ms.length < fuel) :
    Outcome (∀ m ∈ ms, fits m.2) acc' (0x7D :: rest)
      (membersUpTo member fuel false acc
        (bytes (writeMembers l level ms) ++ (g ++ 0x7D :: rest))) := by
  induction h generalizing fuel with
  | nil acc =>
    obtain ⟨fuel, rfl⟩ := Nat.exists_eq_succ_of_ne_zero (Nat.ne_of_gt hfuel)
    exact (Outcome.of_ok (membersUpTo_end hg fuel false acc)).congr (by simp)
  | @cons _ _ _ m ms hmember hms ih =>
    obtain ⟨n, v⟩ := m
    obtain ⟨fuel, rfl⟩ := Nat.exists_eq_succ_of_ne_zero (Nat.ne_of_gt (Nat.zero_lt_of_lt hfuel))
    have htext : bytes (writeMembers l level ((n, v) :: ms)) ++ (g ++ 0x7D :: rest) =
        0x2C :: (bytes (l.gap level) ++ (bytes (writeString n) ++ (bytes l.colon ++
          (bytes (write l level v) ++
            (bytes (writeMembers l level ms) ++ (g ++ 0x7D :: rest)))))) := by
      rw [writeMembers]
      simp only [Text.bytes_append, List.append_assoc]
      rfl
    rw [htext, membersUpTo]
    refine (Outcome.after (moreMembers_comma (hl.gap level) n _) ?_).congr
      List.forall_mem_cons.symm
    refine Outcome.after (string_writeString n _) ?_
    exact (hmember level _ (ends_writeMembers hg level ms rest)).bind
      (ih (Nat.lt_of_succ_lt_succ hfuel))

theorem length_le_writeMembers (level : Nat) (ms : List (String × Json)) :
    ms.length ≤ (bytes (writeMembers l level ms)).length := by
  induction ms with
  | nil => exact Nat.zero_le _
  | cons m ms ih =>
    rw [writeMembers, Text.bytes_append, Text.bytes_append, List.length_append,
      List.length_append, List.length_cons]
    have : (bytes ",").length = 1 := rfl
    omega

/-- An object from behind its opening brace. -/
theorem members_write (hl : l.Blank) (level : Nat) (h : ReadsFrom l member fits acc ms acc')
    (rest : List UInt8) :
    ∃ body, bytes (write l level (.obj ms)) = 0x7B :: body ∧
      Outcome (∀ m ∈ ms, fits m.2) acc' (0x7D :: rest) (members member acc (body ++ rest)) := by
  cases h with
  | nil =>
    refine ⟨[0x7D], rfl, ?_⟩
    exact (Outcome.of_ok (membersUpTo_end gaps_nil _ true acc)).congr (by simp)
  | @cons _ _ _ m ms hmember hms =>
    obtain ⟨n, v⟩ := m
    refine ⟨bytes (l.gap (level + 1)) ++ (bytes (writeString n) ++ (bytes l.colon ++
      (bytes (write l (level + 1) v) ++ (bytes (writeMembers l (level + 1) ms) ++
        (bytes (l.gap level) ++ [0x7D]))))), ?_, ?_⟩
    · rw [write]
      simp only [Text.bytes_append, List.append_assoc]
      rfl
    · have hlength := length_le_writeMembers (l := l) (level + 1) ms
      simp only [List.append_assoc, List.singleton_append]
      unfold members
      rw [membersUpTo]
      refine (Outcome.after (moreMembers_first (hl.gap (level + 1)) n _) ?_).congr
        List.forall_mem_cons.symm
      refine Outcome.after (string_writeString n _) ?_
      refine (hmember (level + 1) _ (ends_writeMembers (hl.gap level) _ ms rest)).bind
        (membersUpTo_writeMembers hl hms (hl.gap level) (level + 1) ?_)
      simp only [List.length_append, List.length_cons]
      omega

end Objects

/-! ## Values -/

section Values

variable {list object : Reader Json} {s rest : List UInt8}

theorem node_gaps {g : List UInt8} (hg : Gaps g) :
    node list object (g ++ s) = node list object s := by
  simp only [node, bind, StateT.bind, head_gaps hg]

theorem value_gaps {g : List UInt8} (hg : Gaps g) (nesting : Nat) :
    value nesting (g ++ s) = value nesting s := by
  cases nesting <;> exact node_gaps hg

theorem node_bracket : node list object (0x5B :: s) = list (0x5B :: s) :=
  bind_of_ok (head_cons rfl)

theorem node_brace : node list object (0x7B :: s) = object (0x7B :: s) :=
  bind_of_ok (head_cons rfl)

theorem node_string (t : String) (rest : List UInt8) :
    node list object (bytes (writeString t) ++ rest) = .ok (.str t, rest) := by
  have hstring := string_writeString t rest
  obtain ⟨tail, htail⟩ := starts_writeString t rest
  rw [htail] at hstring ⊢
  rw [node, bind_of_ok (head_cons rfl)]
  exact bind_of_ok hstring

theorem node_number {n : Number} (hn : n.Held) (hrest : Ends rest) :
    node list object (bytes (writeNumber n) ++ rest) = .ok (.num n.reread, rest) := by
  obtain ⟨b, tail, heq, hb, hread⟩ := number_writeNumber hn
  have hnumber := hread rest hrest
  rw [heq]
  rcases hb with rfl | hb
  · rw [List.cons_append, node, bind_of_ok (head_cons rfl)]
    exact bind_of_ok hnumber
  · rw [head_of_digit hb] at hnumber
    rw [List.cons_append, node, bind_of_ok (head_cons (isGap_of_isDigit hb)), head_of_digit hb]
    exact bind_of_ok hnumber

end Values

theorem anyMember_write {l : Layout} (hl : l.Blank) {nesting : Nat} {v : Json} {level : Nat}
    {rest : List UInt8}
    (h : Outcome (v.depth ≤ nesting) v.reread rest
      (value nesting (bytes (write l level v) ++ rest)))
    (acc : List (String × Json)) (name : String) :
    Outcome (v.depth ≤ nesting) (insert name v.reread acc) rest
      (anyMember (value nesting) acc name
        (bytes l.colon ++ (bytes (write l level v) ++ rest))) := by
  obtain ⟨g, hg, hcolon⟩ := colon_write hl (bytes (write l level v) ++ rest)
  rw [anyMember]
  refine Outcome.after hcolon ?_
  rw [← value_gaps hg] at h
  exact h.before rfl

theorem value_of_node {s rest : List UInt8} {v : Json}
    (h : ∀ list object, node list object s = .ok (v, rest)) (nesting : Nat) :
    value nesting s = .ok (v, rest) := by
  cases nesting <;> exact h _ _

section Nesting

variable {l : Layout} {rest : List UInt8}

theorem scalar_write {v w : Json} {level : Nat} (hdepth : v.depth = 0)
    (h : ∀ list object, node list object (bytes (write l level v) ++ rest) = .ok (w, rest))
    (nesting : Nat) :
    Outcome (v.depth ≤ nesting) w rest (value nesting (bytes (write l level v) ++ rest)) :=
  (Outcome.of_ok (value_of_node h nesting)).congr (by simp [hdepth])

theorem arr_write (hl : l.Blank) {vs : List Json}
    (h : ∀ nesting, ReadsEach l (value nesting) (·.depth ≤ nesting) reread vs)
    (nesting level : Nat) :
    Outcome ((arr vs).depth ≤ nesting) (arr vs).reread rest
      (value nesting (bytes (write l level (.arr vs)) ++ rest)) := by
  rw [reread, rereadItems_eq_map]
  cases nesting with
  | zero =>
    obtain ⟨body, hbody, -⟩ := items_write hl level (h 0).forall₂ rest
    rw [hbody, List.cons_append]
    exact ⟨fun hdepth => absurd hdepth (by rw [depth]; omega),
      fun _ => ⟨(0x5B :: (body ++ rest)).length - 1, node_bracket⟩⟩
  | succ nesting =>
    obtain ⟨body, hbody, hitems⟩ := items_write hl level (h nesting).forall₂ rest
    rw [hbody, List.cons_append, value, node_bracket]
    have harr := hitems.before (f := fun items => pure (arr items)) rfl
    exact (harr.enclosed endOfList rfl).congr depth_arr_le_succ_iff

theorem obj_write (hl : l.Blank) {ms : List (String × Json)}
    (h : ∀ nesting, ReadsMembers l (anyMember (value nesting)) (·.depth ≤ nesting)
      (fun acc n v => insert n v.reread acc) ms)
    (nesting level : Nat) :
    Outcome ((obj ms).depth ≤ nesting) (obj ms).reread rest
      (value nesting (bytes (write l level (.obj ms)) ++ rest)) := by
  rw [reread, rereadMembers_eq_foldl]
  cases nesting with
  | zero =>
    obtain ⟨body, hbody, -⟩ := members_write hl level ((h 0).readsFrom []) rest
    rw [hbody, List.cons_append]
    exact ⟨fun hdepth => absurd hdepth (by rw [depth]; omega),
      fun _ => ⟨(0x7B :: (body ++ rest)).length - 1, node_brace⟩⟩
  | succ nesting =>
    obtain ⟨body, hbody, hmembers⟩ := members_write hl level ((h nesting).readsFrom []) rest
    rw [hbody, List.cons_append, value, node_brace]
    have hobj := hmembers.before (f := fun members => pure (obj members)) rfl
    exact (hobj.enclosed endOfObject rfl).congr depth_obj_le_succ_iff

end Nesting

/-- **Values are read back.** With `nesting` levels left, a written value is read as `reread` says
if it is not nested more deeply, and refused for its nesting otherwise. -/
theorem value_write {l : Layout} (hl : l.Blank) {v : Json} (hv : Held v) (nesting level : Nat)
    {rest : List UInt8} (hrest : Ends rest) :
    Outcome (v.depth ≤ nesting) v.reread rest
      (value nesting (bytes (write l level v) ++ rest)) := by
  induction v using Json.inductionOn generalizing nesting level rest with
  | null => exact scalar_write (w := .null) rfl (fun _ _ => rfl) nesting
  | bool b =>
    cases b with
    | false => exact scalar_write (w := .bool false) rfl (fun _ _ => rfl) nesting
    | true => exact scalar_write (w := .bool true) rfl (fun _ _ => rfl) nesting
  | num n =>
    cases hv with
    | num hn =>
      refine scalar_write (w := .num n.reread) rfl (fun _ _ => ?_) nesting
      rw [write]
      exact node_number hn hrest
  | str s =>
    refine scalar_write (w := .str s) rfl (fun _ _ => ?_) nesting
    rw [write]
    exact node_string s rest
  | arr vs ih =>
    cases hv with
    | arr hvs =>
      exact arr_write hl (fun nesting v hv =>
        ⟨hvs v hv, fun level _ hrest => ih v hv (hvs v hv) nesting level hrest⟩) nesting level
  | obj ms ih =>
    cases hv with
    | obj hms =>
      exact obj_write hl (fun nesting m hm acc level _ hrest =>
        anyMember_write hl (ih m hm (hms m hm) nesting level hrest) acc m.1) nesting level

/-! ## Whole texts -/

/-- **Texts are read back.** -/
theorem read_write {l : Layout} (hl : l.Blank) {v : Json} (hv : Held v) (level : Nat)
    (hdepth : v.depth ≤ maxNesting) : read (bytes (write l level v)) = .ok v.reread := by
  have h := (value_write hl hv maxNesting level ends_nil).ok hdepth
  rw [List.append_nil] at h
  rw [read, Reader.run, bind_of_ok h]
  rfl

theorem read_write_tooDeep {l : Layout} (hl : l.Blank) {v : Json} (hv : Held v) (level : Nat)
    (hdepth : maxNesting < v.depth) :
    ∃ place, read (bytes (write l level v)) = .error ⟨.fault .tooDeep, some place⟩ := by
  obtain ⟨left, h⟩ := (value_write hl hv maxNesting level ends_nil).tooDeep (not_le.mpr hdepth)
  rw [List.append_nil] at h
  refine ⟨placeAt (bytes (write l level v)) left, ?_⟩
  rw [read, Reader.run, bind_of_error h]

end Workbench.Json
