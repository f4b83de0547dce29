import Workbench.Proofs.Json.Lawful
import Workbench.Proofs.Json.Readable
import Workbench.Proofs.Json.Span

/-!
# Readers that read values

Whatever reads a value, be it of any kind or of the one that a codec asks for, ends where passing
over that value ends. The lemmas follow the readers: first arrays and objects, whatever is read in
them, then values of any kind, then one lemma for each codec.

* `value_spanning`: a value of any kind;
* `record_spanning`: a structure, as an object or as an array, whose fields are read by codecs of
  which the same is true.
-/
namespace Workbench.Json

variable {α σ : Type} {s s' s'' t rest : List UInt8} {b : UInt8} {first : Bool}

/-! ## Arrays and objects -/

theorem SpansItems.of_skipGaps (h : SpansItems first (skipGaps s) rest) :
    SpansItems first s rest := by
  have hle := length_skipGaps_le s
  refine ⟨h.length_lt.trans_le hle, fun fuel n hfuel hn => ?_⟩
  rw [← h.passed fuel n (hle.trans_lt hfuel) (hle.trans_lt hn)]
  obtain ⟨n, rfl⟩ := Nat.exists_eq_add_one_of_ne_zero (Nat.ne_zero_of_lt hn)
  simp only [skipItems, bind, StateT.bind, peek_skipGaps]

theorem skipGaps_of_endOfList (h : endOfList s = (none, rest)) : skipGaps s = 0x5D :: rest := by
  unfold endOfList at h
  grind

theorem skipGaps_of_endOfObject (h : endOfObject s = (none, rest)) :
    skipGaps s = 0x7D :: rest := by
  unfold endOfObject at h
  grind

/-- What `moreItems` has seen: the closing bracket, the first item, or a comma and an item. -/
theorem of_moreItems {more : Bool} (h : moreItems first s = .ok (more, s')) :
    (more = false ∧ s' = skipGaps s) ∨
      (more = true ∧ first = true ∧ s' = skipGaps s ∧ ∃ b t, s' = b :: t ∧ b ≠ 0x5D) ∨
      (more = true ∧ first = false ∧ ∃ t, skipGaps s = 0x2C :: t ∧ s' = skipGaps t) := by
  obtain ⟨next, s₁, hpeek, h⟩ := of_bind_ok h
  obtain ⟨rfl, hnext⟩ := of_peek hpeek
  split at h
  · cases h
  · cases h
    exact .inl ⟨rfl, rfl⟩
  · rename_i b hclose
    have hs := eq_cons_of_head? hnext.symm
    cases first with
    | true =>
      cases h
      exact .inr (.inl ⟨rfl, rfl, rfl, b, _, hs, fun hb => hclose (hb ▸ rfl)⟩)
    | false =>
      rw [hs] at h
      simp only [Bool.false_eq_true, if_false] at h
      split at h
      · rename_i hcomma
        subst hcomma
        rw [advance_bind, List.tail_cons] at h
        obtain ⟨next, s₂, hpeek, h⟩ := of_bind_ok h
        obtain ⟨rfl, -⟩ := of_peek hpeek
        split at h
        · cases h
        · cases h
          exact .inr (.inr ⟨rfl, rfl, _, hs, rfl⟩)
        · cases h
      · cases h

theorem SpansItems.more (hmore : moreItems first s = .ok (true, s')) (hitem : Spans s' s'')
    (hrest : SpansItems false s'' rest) : SpansItems first s rest := by
  rcases of_moreItems hmore with ⟨⟨⟩, -⟩ | ⟨-, rfl, rfl, b, t, hs, hb⟩ | ⟨-, rfl, t, hs, rfl⟩
  · rw [hs] at hitem
    exact .item hs hb hitem hrest
  · exact .comma hs hitem.of_skipGaps hrest

/-- What `moreMembers` has seen: the closing brace, the first name, or a comma and a name. -/
theorem of_moreMembers {more : Bool} (h : moreMembers first s = .ok (more, s')) :
    (more = false ∧ s' = skipGaps s) ∨
      (more = true ∧ ∃ t, s' = 0x22 :: t ∧
        ((first = true ∧ skipGaps s = s') ∨
          (first = false ∧ ∃ u, skipGaps s = 0x2C :: u ∧ skipGaps u = s'))) := by
  obtain ⟨next, s₁, hpeek, h⟩ := of_bind_ok h
  obtain ⟨rfl, hnext⟩ := of_peek hpeek
  split at h
  · cases h
  · cases h
    exact .inl ⟨rfl, rfl⟩
  · rename_i b hclose
    have hs := eq_cons_of_head? hnext.symm
    cases first with
    | true =>
      simp only [if_true] at h
      split at h
      · rename_i hquote
        subst hquote
        cases h
        exact .inr ⟨rfl, _, hs, .inl ⟨rfl, rfl⟩⟩
      · cases h
    | false =>
      rw [hs] at h
      simp only [Bool.false_eq_true, if_false] at h
      split at h
      · rename_i hcomma
        subst hcomma
        rw [advance_bind, List.tail_cons] at h
        obtain ⟨next, s₂, hpeek, h⟩ := of_bind_ok h
        obtain ⟨rfl, hnext⟩ := of_peek hpeek
        split at h
        · cases h
          exact .inr ⟨rfl, _, eq_cons_of_head? hnext.symm, .inr ⟨rfl, _, hs, rfl⟩⟩
        · cases h
        · cases h
        · cases h
      · cases h

theorem skipName_of_string {name : String} (hquote : skipGaps s = 0x22 :: t)
    (hstring : string (0x22 :: t) = .ok (name, s')) (hcolon : colon s' = .ok ((), s'')) :
    skipName s = .ok ((), s'') := by
  rw [skipName, bind_of_ok (peek_of_skipGaps hquote)]
  exact (bind_of_ok (skipString_of_string hstring)).trans hcolon

theorem SpansMembers.more {name : String} (hmore : moreMembers first s = .ok (true, s'))
    (hstring : string s' = .ok (name, s'')) (hcolon : colon s'' = .ok ((), t))
    {t' : List UInt8} (hvalue : Spans t t') (hrest : SpansMembers false t' rest) :
    SpansMembers first s rest := by
  rcases of_moreMembers hmore with ⟨⟨⟩, -⟩ | ⟨-, u, rfl, ⟨rfl, hs⟩ | ⟨rfl, v, hs, hv⟩⟩
  · exact .member hs (by decide)
      (skipName_of_string (skipGaps_cons rfl) hstring hcolon) hvalue hrest
  · exact .comma hs (skipName_of_string hv hstring hcolon) hvalue hrest

theorem spansItems_of_itemsUpTo {item : Reader α} (hitem : item.Spanning) {fuel : Nat}
    {as : List α} (h : itemsUpTo item fuel first s = .ok (as, s'))
    (hend : endOfList s' = (none, rest)) : SpansItems first s rest := by
  induction fuel generalizing first s as with
  | zero => cases h
  | succ fuel ih =>
    rw [itemsUpTo] at h
    obtain ⟨more, s₁, hmore, h⟩ := of_bind_ok h
    cases more with
    | false =>
      cases h
      rcases of_moreItems hmore with ⟨-, rfl⟩ | ⟨⟨⟩, -⟩ | ⟨⟨⟩, -⟩
      exact (SpansItems.close (skipGaps_of_endOfList hend)).of_skipGaps
    | true =>
      obtain ⟨a, s₂, ha, h⟩ := of_bind_ok h
      obtain ⟨as', s₃, has, h⟩ := of_bind_ok h
      cases h
      exact .more hmore (hitem ha) (ih has)

/-- The reader of a member reads a colon and a value. -/
def ReadsValues (member : σ → String → Reader σ) : Prop :=
  ∀ {acc name s acc' s'}, member acc name s = .ok (acc', s') →
    ∃ t, colon s = .ok ((), t) ∧ Spans t s'

theorem spansMembers_of_membersUpTo {member : σ → String → Reader σ}
    (hmember : ReadsValues member) {fuel : Nat} {acc acc' : σ}
    (h : membersUpTo member fuel first acc s = .ok (acc', s'))
    (hend : endOfObject s' = (none, rest)) : SpansMembers first s rest := by
  induction fuel generalizing first acc s with
  | zero => cases h
  | succ fuel ih =>
    rw [membersUpTo] at h
    obtain ⟨more, s₁, hmore, h⟩ := of_bind_ok h
    cases more with
    | false =>
      cases h
      rcases of_moreMembers hmore with ⟨-, rfl⟩ | ⟨⟨⟩, -⟩
      have hs := skipGaps_of_endOfObject hend
      rw [skipGaps_skipGaps] at hs
      exact .close hs
    | true =>
      obtain ⟨name, s₂, hname, h⟩ := of_bind_ok h
      obtain ⟨acc₁, s₃, hstep, h⟩ := of_bind_ok h
      obtain ⟨t, hcolon, hvalue⟩ := hmember hstep
      exact .more hmore hname hcolon hvalue (ih h)

theorem spans_enclosed_items {body : Reader α}
    (hbody : ∀ {s a s' rest}, body s = .ok (a, s') → endOfList s' = (none, rest) →
      SpansItems true s rest)
    {a : α} (hhead : head s = .ok (.bracket, s'))
    (h : enclosed endOfList body s' = .ok (a, rest)) : Spans s rest := by
  obtain ⟨rfl, b, t, hs, hb⟩ := of_head hhead
  rw [eq_of_head_bracket hb] at hs
  obtain ⟨s₁, hread, hend⟩ := of_enclosed h
  rw [hs] at hread
  exact .array hs (hbody hread hend)

theorem spans_enclosed_members {body : Reader α}
    (hbody : ∀ {s a s' rest}, body s = .ok (a, s') → endOfObject s' = (none, rest) →
      SpansMembers true s rest)
    {a : α} (hhead : head s = .ok (.brace, s'))
    (h : enclosed endOfObject body s' = .ok (a, rest)) : Spans s rest := by
  obtain ⟨rfl, b, t, hs, hb⟩ := of_head hhead
  rw [eq_of_head_brace hb] at hs
  obtain ⟨s₁, hread, hend⟩ := of_enclosed h
  rw [hs] at hread
  exact .object hs (hbody hread hend)

/-! ## Values of any kind -/

theorem node_spanning {list object : Reader Json}
    (hlist : ∀ {s s' v rest}, head s = .ok (.bracket, s') → list s' = .ok (v, rest) → Spans s rest)
    (hobject : ∀ {s s' v rest}, head s = .ok (.brace, s') → object s' = .ok (v, rest) →
      Spans s rest) : (node list object).Spanning := by
  intro s v rest h
  obtain ⟨first, s₁, hhead, h⟩ := of_bind_ok h
  cases first with
  | null =>
    obtain ⟨_, _, hword, h⟩ := of_bind_ok h
    cases h
    exact spans_null hhead hword
  | true =>
    obtain ⟨_, _, hword, h⟩ := of_bind_ok h
    cases h
    exact spans_true hhead hword
  | false =>
    obtain ⟨_, _, hword, h⟩ := of_bind_ok h
    cases h
    exact spans_false hhead hword
  | minus =>
    obtain ⟨_, _, hnumber, h⟩ := of_bind_ok h
    cases h
    exact spans_number (.inl rfl) hhead (skipNumber_of_number hnumber)
  | digit =>
    obtain ⟨_, _, hnumber, h⟩ := of_bind_ok h
    cases h
    exact spans_number (.inr rfl) hhead (skipNumber_of_number hnumber)
  | quote =>
    obtain ⟨_, _, hstring, h⟩ := of_bind_ok h
    cases h
    exact spans_string hhead (skipString_of_string hstring)
  | bracket => exact hlist hhead h
  | brace => exact hobject hhead h
  | other => cases h

theorem value_spanning (nesting : Nat) : (value nesting).Spanning := by
  induction nesting with
  | zero => exact node_spanning (fun _ h => by cases h) (fun _ h => by cases h)
  | succ nesting ih =>
    refine node_spanning (spans_enclosed_items fun h hend => ?_)
      (spans_enclosed_members fun h hend => ?_)
    · obtain ⟨vs, _, hvs, h⟩ := of_bind_ok h
      cases h
      exact spansItems_of_itemsUpTo ih hvs hend
    · obtain ⟨ms, _, hms, h⟩ := of_bind_ok h
      cases h
      refine spansMembers_of_membersUpTo (fun h => ?_) hms hend
      unfold anyMember at h
      obtain ⟨_, t, hcolon, h⟩ := of_bind_ok h
      obtain ⟨v, _, hv, h⟩ := of_bind_ok h
      cases h
      exact ⟨t, hcolon, ih hv⟩

/-! ## Codecs -/

/-- A value of another kind than the expected one is never read. -/
theorem mismatch_ne_ok {expected : String} {a : α} : mismatch expected s ≠ .ok (a, rest) := by
  intro h
  obtain ⟨first, s₁, -, h⟩ := of_bind_ok h
  cases first with
  | null | true | false | minus | digit | quote =>
    obtain ⟨_, _, -, h⟩ := of_bind_ok h
    cases h
  | bracket | brace | other => cases h

/-- Whatever the codec reads is a value. -/
def Codec.Spanning (c : Codec α) : Prop := ∀ n, (c.reader n).Spanning

theorem any_spanning : Codec.any.Spanning := value_spanning

theorem string_spanning : Codec.string.Spanning := by
  intro n s a rest h
  obtain ⟨first, s₁, hhead, h⟩ := of_bind_ok h
  split at h
  · exact spans_string hhead (skipString_of_string h)
  · exact absurd h mismatch_ne_ok

theorem integer_spanning {name : String} {lo hi : Int} {toInt : α → Int} {ofInt : Int → α} :
    (Codec.integer name lo hi toInt ofInt).Spanning := by
  intro n s a rest h
  obtain ⟨first, s₁, hhead, h⟩ := of_bind_ok h
  split at h
  · rename_i hnumber
    obtain ⟨x, s₂, hx, h⟩ := of_bind_ok h
    cases hwithin : Codec.within name lo hi x with
    | error p =>
      rw [hwithin] at h
      cases h
    | ok i =>
      rw [hwithin] at h
      cases h
      exact spans_number hnumber hhead (skipNumber_of_number hx)
  · exact absurd h mismatch_ne_ok

theorem option_spanning {c : Codec α} (hc : c.Spanning) : c.option.Spanning := by
  intro n s a rest h
  obtain ⟨next, s₁, hpeek, h⟩ := of_bind_ok h
  obtain ⟨rfl, hnext⟩ := of_peek hpeek
  split at h
  · obtain ⟨_, s₂, hword, h⟩ := of_bind_ok h
    cases h
    exact spans_null (head_of_skipGaps (eq_cons_of_head? hnext.symm))
      (by rwa [← eq_cons_of_head? hnext.symm])
  · obtain ⟨v, s₂, hv, h⟩ := of_bind_ok h
    cases h
    exact (hc n hv).of_skipGaps

/-! ### Enumerations -/

namespace Choice

theorem unitReader_spanning : unitReader.Spanning := by
  intro s a rest h
  obtain ⟨first, s₁, hhead, h⟩ := of_bind_ok h
  split at h
  · exact spans_null hhead h
  · exact absurd h mismatch_ne_ok

theorem of_nameReader {c : Choice α} {v : Variant α} (h : c.nameReader s = .ok (v, rest)) :
    ∃ t name, skipGaps s = 0x22 :: t ∧ string (0x22 :: t) = .ok (name, rest) := by
  obtain ⟨first, s₁, hhead, h⟩ := of_bind_ok h
  split at h
  · obtain ⟨rfl, b, t, hs, hb⟩ := of_head hhead
    obtain ⟨name, s₂, hname, h⟩ := of_bind_ok h
    cases hlookup : c.lookup name with
    | error p =>
      rw [hlookup] at h
      cases h
    | ok v =>
      rw [hlookup] at h
      cases h
      rw [hs, eq_of_head_quote hb] at hname
      rw [eq_of_head_quote hb] at hs
      exact ⟨t, name, hs, hname⟩
  · exact absurd h mismatch_ne_ok

theorem spansMembers_of_objectReader {c : Choice α} {a : α}
    (h : c.objectReader (b :: s) = .ok (a, rest)) : SpansMembers true s rest := by
  unfold objectReader at h
  rw [advance_bind, List.tail_cons] at h
  obtain ⟨v, s₁, hv, h⟩ := of_bind_ok h
  obtain ⟨_, s₂, hcolon, h⟩ := of_bind_ok h
  obtain ⟨t, name, hs, hname⟩ := of_nameReader hv
  have hclose {s₃ : List UInt8} (hvalue : Spans s₂ s₃) (hend : skipGaps s₃ = 0x7D :: rest) :
      SpansMembers true s rest :=
    .member hs (by decide) (skipName_of_string (skipGaps_cons rfl) hname hcolon) hvalue
      (.close hend)
  cases v with
  | plain name a =>
    obtain ⟨_, s₃, hunit, h⟩ := of_bind_ok h
    rw [pure_bind] at h
    obtain ⟨next, s₄, hpeek, h⟩ := of_bind_ok h
    obtain ⟨rfl, hnext⟩ := of_peek hpeek
    split at h <;> cases h
    exact hclose (unitReader_spanning hunit) (eq_cons_of_head? hnext.symm)
  | text name make =>
    obtain ⟨text, s₃, hstring, h⟩ := of_bind_ok h
    rw [pure_bind] at h
    obtain ⟨next, s₄, hpeek, h⟩ := of_bind_ok h
    obtain ⟨rfl, hnext⟩ := of_peek hpeek
    split at h <;> cases h
    exact hclose (string_spanning 0 hstring) (eq_cons_of_head? hnext.symm)

theorem codec_spanning (c : Choice α) : c.codec.Spanning := by
  intro n s a rest h
  obtain ⟨next, s₁, hpeek, h⟩ := of_bind_ok h
  obtain ⟨rfl, hnext⟩ := of_peek hpeek
  split at h
  · cases h
  · rename_i b
    have hs := eq_cons_of_head? hnext.symm
    cases hfirst : Head.of b with
    | brace =>
      rw [hfirst] at h
      dsimp only at h
      split at h
      · cases h
      · rw [hs] at h
        rw [eq_of_head_brace hfirst] at hs
        exact .object hs (spansMembers_of_objectReader h)
    | quote =>
      rw [hfirst] at h
      obtain ⟨v, s₂, hv, h⟩ := of_bind_ok h
      obtain ⟨t, name, ht, hname⟩ := of_nameReader hv
      rw [skipGaps_skipGaps] at ht
      cases v with
      | plain name a =>
        cases h
        exact spans_string (head_of_skipGaps ht) (skipString_of_string hname)
      | text name make => cases h
    | null | true | false | minus | digit | bracket | other =>
      rw [hfirst] at h
      cases h

end Choice

/-! ### Structures -/

namespace Fields

variable {ts : List Type}

/-- Whatever the codecs of the fields read are values. -/
def Spanning : {ts : List Type} → Fields ts → Prop
  | _, .nil => True
  | _, .cons f rest => f.codec.Spanning ∧ rest.Spanning

/-- A member is taken by the first field of its name, which must not have been seen yet. -/
theorem of_readMember {f : Field α} {others : Fields ts} {n : Nat} {slot : Option α}
    {slots : Slots ts} {name : String} {slots' : Slots (α :: ts)}
    (h : (cons f others).readMember n (slot, slots) name s = .ok (slots', s')) :
    (name = f.name ∧ slot = none ∧ ∃ t a, colon s = .ok ((), t) ∧
        f.codec.reader n t = .ok (a, s') ∧ slots' = (some a, slots)) ∨
      (name ≠ f.name ∧ ∃ slots₁, others.readMember n slots name s = .ok (slots₁, s') ∧
        slots' = (slot, slots₁)) := by
  by_cases hname : name = f.name
  · subst hname
    cases slot with
    | some a =>
      rw [show (cons f others).readMember n (some a, slots) f.name =
        Reader.reject (.duplicateField f.name) from if_pos rfl] at h
      cases h
    | none =>
      rw [readMember_own] at h
      obtain ⟨_, t, hcolon, h⟩ := of_bind_ok h
      obtain ⟨a, s₂, ha, h⟩ := of_bind_ok h
      cases h
      exact .inl ⟨rfl, rfl, t, a, hcolon, ha, rfl⟩
  · rw [readMember_other hname] at h
    obtain ⟨slots₁, s₂, hothers, h⟩ := of_bind_ok h
    cases h
    exact .inr ⟨hname, slots₁, hothers, rfl⟩

theorem readMember_readsValues {fields : Fields ts} (hfields : fields.Spanning) (n : Nat) :
    ReadsValues (fields.readMember n) := by
  induction fields with
  | nil =>
    intro slots name s slots' s' h
    obtain ⟨_, t, hcolon, h⟩ := of_bind_ok h
    obtain ⟨_, s₂, hskip, h⟩ := of_bind_ok h
    cases h
    exact ⟨t, hcolon, skip_spanning hskip⟩
  | cons f others ih =>
    intro slots name s slots' s' h
    rcases of_readMember h with ⟨-, -, t, a, hcolon, ha, -⟩ | ⟨-, slots₁, hothers, -⟩
    · exact ⟨t, hcolon, hfields.1 n ha⟩
    · exact ih hfields.2 hothers

theorem spansMembers_of_readObject {fields : Fields ts} (hfields : fields.Spanning) {n : Nat}
    {row : Row ts} (h : fields.readObject n s = .ok (row, s'))
    (hend : endOfObject s' = (none, rest)) : SpansMembers true s rest := by
  obtain ⟨slots, s₁, hslots, h⟩ := of_bind_ok h
  cases hcomplete : fields.complete slots with
  | error p =>
    rw [hcomplete] at h
    cases h
  | ok row =>
    rw [hcomplete] at h
    cases h
    exact spansMembers_of_membersUpTo (readMember_readsValues hfields n) hslots hend

theorem spansItems_of_readItems {expected : String} {fields : Fields ts}
    (hfields : fields.Spanning) {n seen : Nat} {row : Row ts}
    (h : fields.readItems expected n first seen s = .ok (row, s'))
    (hend : endOfList s' = (none, rest)) : SpansItems first s rest := by
  induction fields generalizing s first seen with
  | nil =>
    cases h
    exact .close (skipGaps_of_endOfList hend)
  | cons f others ih =>
    unfold readItems at h
    obtain ⟨more, s₁, hmore, h⟩ := of_bind_ok h
    cases more with
    | true =>
      obtain ⟨a, s₂, ha, h⟩ := of_bind_ok h
      obtain ⟨row', s₃, hothers, h⟩ := of_bind_ok h
      cases h
      exact .more hmore (hfields.1 n ha) (ih hfields.2 hothers)
    | false =>
      rcases of_moreItems hmore with ⟨-, rfl⟩ | ⟨⟨⟩, -⟩ | ⟨⟨⟩, -⟩
      cases habsent : f.absent with
      | required | inObject =>
        rw [habsent] at h
        cases h
      | default a =>
        rw [habsent] at h
        obtain ⟨row', s₃, hothers, h⟩ := of_bind_ok h
        cases h
        exact (ih hfields.2 hothers).of_skipGaps

end Fields

theorem spans_nested {closing : List UInt8 → Option Fault × List UInt8} {body : Nat → Reader α}
    {n : Nat} {a : α} (h : nested closing body n s = .ok (a, rest)) :
    ∃ m, enclosed closing (body m) s = .ok (a, rest) := by
  cases n with
  | zero => cases h
  | succ n => exact ⟨n, h⟩

theorem record_spanning {name : String} {ts : List Type} {fields : Fields ts}
    {toRow : σ → Row ts} {ofRow : Row ts → σ} (hfields : fields.Spanning) :
    (Codec.record name fields toRow ofRow).Spanning := by
  intro n s a rest h
  obtain ⟨first, s₁, hhead, h⟩ := of_bind_ok h
  split at h
  · obtain ⟨row, s₂, hrow, h⟩ := of_bind_ok h
    cases h
    obtain ⟨m, hrow⟩ := spans_nested hrow
    exact spans_enclosed_members (Fields.spansMembers_of_readObject hfields) hhead hrow
  · obtain ⟨row, s₂, hrow, h⟩ := of_bind_ok h
    cases h
    obtain ⟨m, hrow⟩ := spans_nested hrow
    exact spans_enclosed_items (Fields.spansItems_of_readItems hfields) hhead hrow
  · exact absurd h mismatch_ne_ok

end Workbench.Json
