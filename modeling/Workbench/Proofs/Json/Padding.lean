import Workbench.Proofs.Json.Contained
import Workbench.Proofs.Text.Blank

/-!
# Blanks around a value

Blanks around the value of a text do not matter. Arrays and objects are given fuel by the length of
the text, which becomes less when blanks are taken away; what is left is still enough for them, as
each item and each member takes at least a byte.

Trimming takes away more than the blanks of JSON. Of a text with an object in it, it takes away no
more: anything else outside the braces would not have been read.

* `itemsUpTo_fuel`, `membersUpTo_fuel`: any fuel will do that is more than the bytes;
* `contained_value`: values of any kind;
* `read_of_padded`: the blanks before and behind a value;
* `read_trim_of_obj`: the object in a text that is trimmed.
-/
namespace Workbench.Json

open Text (bytes)

variable {α σ : Type} {g s s' t rest : List UInt8} {b : UInt8}

/-! ## Arrays and objects -/

/-- Whatever reads at least a byte is given enough fuel by the length of the text. -/
theorem itemsUpTo_fuel {item : Reader α}
    (hitem : ∀ {s a t}, item s = .ok (a, t) → t.length < s.length) {fuel fuel' : Nat}
    {first : Bool} {as : List α} (h : itemsUpTo item fuel first s = .ok (as, t))
    (hfuel : s.length < fuel') : itemsUpTo item fuel' first s = .ok (as, t) := by
  induction fuel generalizing fuel' first s as with
  | zero => cases h
  | succ fuel ih =>
    obtain ⟨fuel', rfl⟩ := Nat.exists_eq_add_one_of_ne_zero (Nat.ne_zero_of_lt hfuel)
    rw [itemsUpTo] at h ⊢
    obtain ⟨more, s₁, hmore, h⟩ := of_bind_ok h
    rw [bind_of_ok hmore]
    cases more with
    | false => exact h
    | true =>
      obtain ⟨a, s₂, ha, h⟩ := of_bind_ok h
      obtain ⟨as', s₃, has, h⟩ := of_bind_ok h
      cases h
      have hle := ((contained_moreItems first).suffix hmore).length_le
      have hlt := hitem ha
      exact (bind_of_ok ha).trans (bind_of_ok (ih has (by omega)))

theorem contained_itemsUpTo {item : Reader α} (hitem : item.Contained) (fuel : Nat)
    (first : Bool) : (itemsUpTo item fuel first).Contained := by
  induction fuel generalizing first with
  | zero => exact fun s => contained_stopPast _
  | succ fuel ih =>
    intro s
    refine (contained_moreItems first s).bind fun {more t} _ => ?_
    cases more with
    | false => exact containedAt_pure _
    | true =>
      refine (hitem t).bind fun _ => ?_
      exact (ih false _).bind fun _ => containedAt_pure _

theorem contained_items {item : Reader α} (hitem : item.Contained)
    (hlt : ∀ {s a t}, item s = .ok (a, t) → t.length < s.length) : (items item).Contained := by
  intro s g as rest hg h
  obtain ⟨t, rfl, hsuffix, h⟩ := contained_itemsUpTo hitem _ true s hg h
  exact ⟨t, rfl, hsuffix, itemsUpTo_fuel hlt h (Nat.lt_succ_self _)⟩

theorem length_of_string {text : String} (h : string s = .ok (text, t)) : t.length < s.length :=
  length_of_skipString (skipString_of_string h)

theorem membersUpTo_fuel {member : σ → String → Reader σ}
    (hmember : ∀ {acc name s acc' t}, member acc name s = .ok (acc', t) → t.length ≤ s.length)
    {fuel fuel' : Nat} {first : Bool} {acc acc' : σ}
    (h : membersUpTo member fuel first acc s = .ok (acc', t)) (hfuel : s.length < fuel') :
    membersUpTo member fuel' first acc s = .ok (acc', t) := by
  induction fuel generalizing fuel' first acc s with
  | zero => cases h
  | succ fuel ih =>
    obtain ⟨fuel', rfl⟩ := Nat.exists_eq_add_one_of_ne_zero (Nat.ne_zero_of_lt hfuel)
    rcases membersUpTo_succ.mp h with
      ⟨hmore, rfl⟩ | ⟨s₁, name, s₂, acc₁, s₃, hmore, hname, hstep, h⟩
    · exact membersUpTo_succ.mpr (.inl ⟨hmore, rfl⟩)
    · have hle := ((contained_moreMembers first).suffix hmore).length_le
      have hlt := length_of_string hname
      have hle' := hmember hstep
      exact membersUpTo_succ.mpr
        (.inr ⟨s₁, name, s₂, acc₁, s₃, hmore, hname, hstep, ih h (by omega)⟩)

theorem contained_membersUpTo {member : σ → String → Reader σ}
    (hmember : ∀ acc name, (member acc name).Contained) (fuel : Nat) (first : Bool) (acc : σ) :
    (membersUpTo member fuel first acc).Contained := by
  induction fuel generalizing first acc with
  | zero => exact fun s => contained_stopPast _
  | succ fuel ih =>
    intro s
    refine (contained_moreMembers first s).bind fun {more t} hmore => ?_
    cases more with
    | false => exact containedAt_pure _
    | true =>
      -- there is a quote to begin the name with
      obtain ⟨u, rfl⟩ : ∃ u, t = 0x22 :: u := by
        rcases of_moreMembers hmore with ⟨⟨⟩, -⟩ | ⟨-, u, rfl, -⟩
        exact ⟨u, rfl⟩
      refine containedAt_string.bind fun {name t} _ => ?_
      exact (hmember acc name t).bind fun _ => ih false _ _

theorem contained_members {member : σ → String → Reader σ}
    (hmember : ∀ acc name, (member acc name).Contained) (start : σ) :
    (members member start).Contained := by
  intro s g acc rest hg h
  obtain ⟨t, rfl, hsuffix, h⟩ := contained_membersUpTo hmember _ true start s hg h
  refine ⟨t, rfl, hsuffix, membersUpTo_fuel (fun hstep => ?_) h (Nat.lt_succ_self _)⟩
  exact ((hmember _ _).suffix hstep).length_le

/-- Brackets around what `body` reads. -/
theorem containedAt_enclosed {closing : List UInt8 → Option Fault × List UInt8} {c : UInt8}
    {body : Reader α} (hbody : body.Contained)
    (hclosing : ∀ {s t}, closing s = (none, t) ↔ skipGaps s = c :: t) :
    (enclosed closing body).ContainedAt (b :: s) := by
  intro g a rest hg h
  obtain ⟨s', hread, hclose⟩ := of_enclosed h
  obtain ⟨t, rfl, hsuffix, hread⟩ := hbody s hg hread
  obtain ⟨t', rfl, hend⟩ := skipGaps_of_append hg (hclosing.mp hclose)
  refine ⟨t', rfl, ?_, enclosed_iff.mpr ⟨t, hread, hclosing.mpr hend⟩⟩
  have hend : t' <:+ t := (List.suffix_cons c t').trans (hend ▸ skipGaps_suffix t)
  exact (hend.trans hsuffix).trans (List.suffix_cons b s)

theorem endOfList_iff : endOfList s = (none, t) ↔ skipGaps s = 0x5D :: t := by
  refine ⟨skipGaps_of_endOfList, fun h => ?_⟩
  rw [endOfList, h]
  rfl

theorem endOfObject_iff : endOfObject s = (none, t) ↔ skipGaps s = 0x7D :: t := by
  refine ⟨skipGaps_of_endOfObject, fun h => ?_⟩
  rw [endOfObject, h]
  rfl

/-! ## Values -/

theorem contained_node {list object : Reader Json} (hlist : ∀ b s, list.ContainedAt (b :: s))
    (hobject : ∀ b s, object.ContainedAt (b :: s)) : (node list object).Contained := by
  intro s
  refine (contained_head s).bind fun {first t} hhead => ?_
  obtain ⟨-, b, t, rfl, -⟩ := of_head hhead
  have hnull : nullWord.ContainedAt (b :: t) := containedAt_word (by simp [isGap])
  have htrue : trueWord.ContainedAt (b :: t) := containedAt_word (by simp [isGap])
  have hfalse : falseWord.ContainedAt (b :: t) := containedAt_word (by simp [isGap])
  cases first with
  | null => exact hnull.bind fun _ => containedAt_pure _
  | true => exact htrue.bind fun _ => containedAt_pure _
  | false => exact hfalse.bind fun _ => containedAt_pure _
  | minus => exact containedAt_number.bind fun _ => containedAt_pure _
  | digit => exact containedAt_number.bind fun _ => containedAt_pure _
  | quote => exact containedAt_string.bind fun _ => containedAt_pure _
  | bracket => exact hlist b t
  | brace => exact hobject b t
  | other => exact contained_stopPast _

theorem contained_anyMember {item : Reader Json} (hitem : item.Contained)
    (acc : List (String × Json)) (name : String) : (anyMember item acc name).Contained := by
  intro s
  refine (contained_colon s).bind fun _ => ?_
  exact (hitem _).bind fun _ => containedAt_pure _

theorem contained_value (nesting : Nat) : (value nesting).Contained := by
  induction nesting with
  | zero => exact contained_node (fun _ _ => contained_stopPast _) fun _ _ => contained_stopPast _
  | succ nesting ih =>
    have hlt {s t : List UInt8} {v : Json} (h : value nesting s = .ok (v, t)) :
        t.length < s.length := (value_spanning nesting h).length_lt
    refine contained_node (fun b s => ?_) fun b s => ?_
    · refine containedAt_enclosed (fun s => ?_) endOfList_iff
      exact (contained_items ih hlt s).bind fun _ => containedAt_pure _
    · refine containedAt_enclosed (fun s => ?_) endOfObject_iff
      exact (contained_members (contained_anyMember ih) [] s).bind fun _ => containedAt_pure _

/-! ## Whole texts -/

section Texts

variable {v : Json} {ms : List (String × Json)}

theorem atEnd_iff : (∃ t, atEnd s = .ok ((), t)) ↔ Gaps s := by
  rw [show Gaps s ↔ skipGaps s = [] from List.dropWhile_eq_nil_iff.symm]
  cases hs : skipGaps s with
  | nil =>
    have hpeek : peek s = .ok (none, []) := by
      rw [peek, hs]
      rfl
    exact iff_of_true ⟨[], bind_of_ok hpeek⟩ rfl
  | cons b t =>
    refine iff_of_false ?_ (List.cons_ne_nil b t)
    rintro ⟨t', h⟩
    rw [atEnd, bind_of_ok (peek_of_skipGaps hs)] at h
    cases h

theorem read_iff : read s = .ok v ↔ ∃ t, value maxNesting s = .ok (v, t) ∧ Gaps t := by
  rw [read, run_whole_iff]
  constructor
  · rintro ⟨t, s', hvalue, hend⟩
    exact ⟨t, hvalue, atEnd_iff.mp ⟨s', hend⟩⟩
  · rintro ⟨t, hvalue, hgaps⟩
    obtain ⟨s', hend⟩ := atEnd_iff.mpr hgaps
    exact ⟨t, s', hvalue, hend⟩

/-- **Blanks around a value do not matter.** -/
theorem read_of_padded {before after : List UInt8} (hbefore : Gaps before) (hafter : Gaps after)
    (h : read (before ++ s ++ after) = .ok v) : read s = .ok v := by
  rw [read_iff] at h ⊢
  obtain ⟨t, hvalue, hgaps⟩ := h
  rw [List.append_assoc, value_gaps hbefore] at hvalue
  obtain ⟨t, rfl, -, hvalue⟩ := contained_value maxNesting s hafter hvalue
  exact ⟨t, hvalue, fun b hb => hgaps b (List.mem_append_left _ hb)⟩

/-- The braces at both ends of an object. -/
theorem of_read_obj (h : read s = .ok (.obj ms)) :
    (∃ t, skipGaps s = 0x7B :: t) ∧ ∃ t, 0x7D :: t <:+ s ∧ Gaps t := by
  obtain ⟨t, hvalue, hgaps⟩ := read_iff.mp h
  obtain ⟨s₁, s', hhead, hmembers, hend⟩ := of_value_obj (n := maxNesting - 1) hvalue
  obtain ⟨rfl, b, u, hcons, hb⟩ := of_head hhead
  rw [eq_of_head_brace hb] at hcons
  refine ⟨⟨u, hcons⟩, t, ?_, hgaps⟩
  have hbody := (contained_members (contained_anyMember (contained_value _)) []).suffix hmembers
  rw [← skipGaps_of_endOfObject hend]
  exact ((skipGaps_suffix s').trans hbody).trans ((List.tail_suffix _).trans (skipGaps_suffix s))

/-! ## Trimmed texts -/

/-- A character that is written as bytes which may stand before a token. -/
def isGapChar (c : Char) : Bool := (String.utf8EncodeChar c).all isGap

theorem lt_of_isGap (h : isGap b = true) : b < 0x80 := by
  simp only [isGap, Bool.or_eq_true, beq_iff_eq, or_assoc] at h
  rcases h with rfl | rfl | rfl | rfl <;> decide

theorem not_isGap_of_mem {c : Char} (hc : isGapChar c = false)
    (hmem : b ∈ String.utf8EncodeChar c) : isGap b = false := by
  cases hb : isGap b with
  | false => rfl
  | true =>
    rw [isGapChar, (Text.eq_of_mem_utf8EncodeChar hmem (lt_of_isGap hb)).1] at hc
    simp [hb] at hc

theorem isBlank_of_isGapChar {c : Char} (hc : isGapChar c = true) : Text.isBlank c = true := by
  obtain ⟨b, tail, hcons⟩ := List.exists_cons_of_ne_nil (Text.utf8EncodeChar_ne_nil c)
  have hmem : b ∈ String.utf8EncodeChar c := by
    rw [hcons]
    exact List.mem_cons_self
  have hb : isGap b = true := List.all_eq_true.mp hc b hmem
  have hnat := (Text.eq_of_mem_utf8EncodeChar hmem (lt_of_isGap hb)).2
  simp only [isGap, Bool.or_eq_true, beq_iff_eq, or_assoc] at hb
  rcases hb with rfl | rfl | rfl | rfl <;> simp [Text.isBlank, hnat]

theorem gaps_flatMap {cs : List Char} (h : ∀ c ∈ cs, isGapChar c = true) :
    Gaps (cs.flatMap String.utf8EncodeChar) := by
  intro b hb
  obtain ⟨c, hc, hb⟩ := List.mem_flatMap.mp hb
  exact List.all_eq_true.mp (h c hc) b hb

theorem trimmed_of_read_obj {cs : List Char}
    (hfirst : ∀ c ∈ cs.head?, isGapChar c = false) (hlast : ∀ c ∈ cs.getLast?, isGapChar c = false)
    (h : read (cs.flatMap String.utf8EncodeChar) = .ok (.obj ms)) : Text.Trimmed cs := by
  obtain ⟨⟨u, hopen⟩, t, hclose, hgaps⟩ := of_read_obj h
  constructor
  · intro c hc
    obtain ⟨cs', rfl⟩ : ∃ cs', cs = c :: cs' := ⟨cs.tail, (List.cons_head?_tail hc).symm⟩
    obtain ⟨b, tail, hcons⟩ := List.exists_cons_of_ne_nil (Text.utf8EncodeChar_ne_nil c)
    have hmem : b ∈ String.utf8EncodeChar c := hcons ▸ List.mem_cons_self
    have hb := not_isGap_of_mem (hfirst c hc) hmem
    rw [List.flatMap_cons, hcons, List.cons_append, skipGaps_cons hb] at hopen
    obtain ⟨rfl, -⟩ := List.cons.inj hopen
    have hnat := (Text.eq_of_mem_utf8EncodeChar hmem (by decide)).2
    simp [Text.isBlank, hnat]
  · intro c hc
    obtain ⟨cs', rfl⟩ : ∃ cs', cs = cs' ++ [c] := List.getLast?_eq_some_iff.mp hc
    -- the last byte is that of the closing brace, since none of the character is a blank
    obtain ⟨init, b, hconcat⟩ := (List.eq_nil_or_concat (String.utf8EncodeChar c)).resolve_left
      (Text.utf8EncodeChar_ne_nil c)
    have hmem : b ∈ String.utf8EncodeChar c := by simp [hconcat]
    have hb := not_isGap_of_mem (hlast c hc) hmem
    obtain ⟨before, hsplit⟩ := hclose
    have hend : (0x7D :: t).getLast? = some b := by
      have hbytes := congrArg List.getLast? hsplit
      rwa [List.flatMap_append, List.flatMap_singleton, hconcat, List.concat_eq_append,
        ← List.append_assoc, List.getLast?_concat,
        List.getLast?_append_of_ne_nil _ (List.cons_ne_nil _ _)] at hbytes
    rcases List.mem_cons.mp (List.mem_of_getLast? hend) with rfl | ht
    · have hnat := (Text.eq_of_mem_utf8EncodeChar hmem (by decide)).2
      simp [Text.isBlank, hnat]
    · rw [hgaps b ht] at hb
      cases hb

/-- **Trimming a text does not change the object that is read.** -/
theorem read_trim_of_obj {text : String}
    (h : read (bytes text) = .ok (.obj ms)) : read (bytes (Text.trim text)) = .ok (.obj ms) := by
  obtain ⟨before, middle, after, hsplit, hbefore, hafter, hfirst, hlast⟩ :=
    Text.exists_padding isGapChar text.toList
  rw [Text.bytes_eq_flatMap, hsplit, List.flatMap_append, List.flatMap_append] at h
  have hread := read_of_padded (gaps_flatMap hbefore) (gaps_flatMap hafter) h
  have hblank {cs : List Char} (hcs : ∀ c ∈ cs, isGapChar c = true) :
      Text.isBlankText (String.ofList cs) = true := by
    rw [Text.isBlankText, String.toList_ofList, List.all_eq_true]
    exact fun c hc => isBlank_of_isGapChar (hcs c hc)
  have htext : text = String.ofList before ++ String.ofList middle ++ String.ofList after := by
    rw [← String.ofList_append, ← String.ofList_append, ← hsplit, String.ofList_toList]
  have htrimmed : Text.Trimmed (String.ofList middle).toList := by
    rw [String.toList_ofList]
    exact trimmed_of_read_obj hfirst hlast hread
  rw [htext, Text.trim_padded (hblank hbefore) htrimmed (hblank hafter), Text.bytes_ofList]
  exact hread

end Texts

end Workbench.Json
