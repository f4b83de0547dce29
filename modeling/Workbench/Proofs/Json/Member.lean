import Workbench.Proofs.Json.Spanning

/-!
# Structures as their members say

The members of an object can be found without knowing what they hold: `membersOf` gives the name of
each together with the text from its value on. A structure that is read from the object has in each
field what the only member of this name is read as, or what an absent field stands for, and it is
read whenever this makes sense for all its fields.

* `readMember_iff`: a member is taken exactly if the slots remain those that the members so far
  fill;
* `membersUpTo_iff`: from this, by induction, the same of all members of an object;
* `parse_record_iff`: a text that is an object is a structure exactly as its members say.
-/
namespace Workbench.Json

/-- Names, each with the text from the value of a member on. -/
abbrev Places := List (String × List UInt8)

/-- Passes over a member and notes where its value begins. -/
def placedMember (acc : Places) (name : String) : Reader Places := do
  colon
  let start ← get
  skip
  return acc ++ [(name, start)]

/-- The members of an object. -/
def places : Reader Places := do
  match ← head with
  | .brace => enclosed endOfObject (members placedMember [])
  | _ => mismatch "an object"

/-- The members of the object that a text is. -/
def membersOf (text : List UInt8) : Except Error Places :=
  Reader.run (do let ms ← places; atEnd; return ms) text

/-- The texts of the members with this name. -/
def Places.found (ms : Places) (name : String) : List (List UInt8) :=
  (ms.filter (·.1 = name)).map Prod.snd

variable {α : Type} {ts : List Type} {n : Nat} {ms ms' : Places} {s s' t : List UInt8}
  {name : String}

namespace Places

theorem found_append (ms ms' : Places) (name : String) :
    (ms ++ ms').found name = ms.found name ++ ms'.found name := by
  simp only [found, List.filter_append, List.map_append]

theorem found_concat_self (ms : Places) (name : String) (s : List UInt8) :
    (ms ++ [(name, s)]).found name = ms.found name ++ [s] := by
  rw [found_append]
  simp [found]

theorem found_concat_other {other : String} (h : name ≠ other) (ms : Places) (s : List UInt8) :
    (ms ++ [(name, s)]).found other = ms.found other := by
  rw [found_append]
  simp [found, h]

theorem found_cons (m : String × List UInt8) (ms : Places) (name : String) :
    found (m :: ms) name = if m.1 = name then m.2 :: ms.found name else ms.found name := by
  simp only [found, List.filter_cons, decide_eq_true_eq]
  split <;> rfl

theorem found_eq_nil (h : name ∉ ms.map Prod.fst) : ms.found name = [] := by
  rw [found, List.map_eq_nil_iff, List.filter_eq_nil_iff]
  intro m hm heq
  exact h (List.mem_map.mpr ⟨m, hm, of_decide_eq_true heq⟩)

/-- Without repeated names there is at most one member of a name. -/
theorem found_of_nodup (h : (ms.map Prod.fst).Nodup) (name : String) :
    ms.found name = [] ∨ ∃ s, ms.found name = [s] := by
  induction ms with
  | nil => exact .inl rfl
  | cons m ms ih =>
    rw [List.map_cons, List.nodup_cons] at h
    rw [found_cons]
    split
    · rename_i heq
      rw [heq] at h
      exact .inr ⟨m.2, by rw [found_eq_nil h.1]⟩
    · exact ih h.2

end Places

/-! ## What members say -/

/-- The value at the beginning of `s` is read as `a`. -/
def Codec.ReadsAt (c : Codec α) (n : Nat) (s : List UInt8) (a : α) : Prop :=
  ∃ rest, c.reader n s = .ok (a, rest)

theorem Codec.ReadsAt.unique {c : Codec α} {a b : α} (ha : c.ReadsAt n s a)
    (hb : c.ReadsAt n s b) : a = b := by
  obtain ⟨_, ha⟩ := ha
  obtain ⟨_, hb⟩ := hb
  rw [ha] at hb
  cases hb
  rfl

namespace Field

/-- The slot of a field once these members have been seen. -/
def Fills (f : Field α) (n : Nat) (ms : Places) (slot : Option α) : Prop :=
  (ms.found f.name = [] ∧ slot = none) ∨
    ∃ s a, ms.found f.name = [s] ∧ slot = some a ∧ f.codec.ReadsAt n s a

/-- The value of a field in an object with these members. -/
def Says (f : Field α) (n : Nat) (ms : Places) (a : α) : Prop :=
  (ms.found f.name = [] ∧ (f.absent = .inObject a ∨ f.absent = .default a)) ∨
    ∃ s, ms.found f.name = [s] ∧ f.codec.ReadsAt n s a

variable {f : Field α} {slot slot' : Option α}

theorem Fills.unique (h : f.Fills n ms slot) (h' : f.Fills n ms slot') : slot = slot' := by
  rcases h with ⟨hnone, rfl⟩ | ⟨s, a, hone, rfl, ha⟩ <;>
    rcases h' with ⟨hnone', rfl⟩ | ⟨s', b, hone', rfl, hb⟩
  · rfl
  · rw [hnone] at hone'
    cases hone'
  · rw [hone] at hnone'
    cases hnone'
  · rw [hone] at hone'
    cases hone'
    rw [ha.unique hb]

theorem Fills.before (h : f.Fills n (ms ++ ms') slot) : ∃ slot', f.Fills n ms slot' := by
  cases hfound : ms.found f.name with
  | nil => exact ⟨none, .inl ⟨hfound, rfl⟩⟩
  | cons s others =>
    rcases h with ⟨hnone, -⟩ | ⟨s', a, hone, -, ha⟩
    · rw [Places.found_append, hfound] at hnone
      cases hnone
    · rw [Places.found_append, hfound, List.cons_append, List.cons.injEq] at hone
      obtain ⟨rfl, hothers⟩ := hone
      rw [(List.append_eq_nil_iff.mp hothers).1] at hfound
      exact ⟨some a, .inr ⟨s, a, hfound, rfl, ha⟩⟩

theorem Says.fills {a : α} (h : f.Says n ms a) : ∃ slot, f.Fills n ms slot := by
  rcases h with ⟨hnone, -⟩ | ⟨s, hone, ha⟩
  · exact ⟨none, .inl ⟨hnone, rfl⟩⟩
  · exact ⟨some a, .inr ⟨s, a, hone, rfl, ha⟩⟩

theorem says_of_none {a : α} (h : ms.found f.name = []) :
    f.Says n ms a ↔ f.absent = .inObject a ∨ f.absent = .default a := by
  simp [Says, h]

theorem says_of_one {a : α} (h : ms.found f.name = [s]) :
    f.Says n ms a ↔ f.codec.ReadsAt n s a := by
  simp [Says, h]

/-- The first member of a name fills the slot. -/
theorem fills_concat_none (h : f.Fills n ms none) :
    f.Fills n (ms ++ [(f.name, s)]) slot ↔ ∃ a, slot = some a ∧ f.codec.ReadsAt n s a := by
  rcases h with ⟨hnone, -⟩ | ⟨_, _, -, hsome, -⟩
  · unfold Fills
    rw [Places.found_concat_self, hnone]
    constructor
    · rintro (⟨hfound, -⟩ | ⟨s', a, hfound, rfl, ha⟩)
      · cases hfound
      · cases hfound
        exact ⟨a, rfl, ha⟩
    · rintro ⟨a, rfl, ha⟩
      exact .inr ⟨s, a, rfl, rfl, ha⟩
  · cases hsome

/-- A second member of the name is one too many. -/
theorem not_fills_concat_some {a : α} (h : f.Fills n ms (some a)) :
    ¬f.Fills n (ms ++ [(f.name, s)]) slot := by
  rcases h with ⟨-, hnone⟩ | ⟨s₁, _, hone, -, -⟩
  · cases hnone
  · unfold Fills
    rw [Places.found_concat_self, hone]
    rintro (⟨hfound, -⟩ | ⟨_, _, hfound, -, -⟩) <;> cases hfound

theorem fills_concat_other (h : name ≠ f.name) :
    f.Fills n (ms ++ [(name, s)]) slot ↔ f.Fills n ms slot := by
  rw [Fills, Fills, Places.found_concat_other h]

end Field

namespace Fields

/-- The slots once these members have been seen. -/
def Filled (n : Nat) (ms : Places) : {ts : List Type} → Fields ts → Slots ts → Prop
  | _, .nil, _ => True
  | _, .cons f rest, (slot, slots) => f.Fills n ms slot ∧ rest.Filled n ms slots

/-- The values of the fields in an object with these members. -/
def Say (n : Nat) (ms : Places) : {ts : List Type} → Fields ts → Row ts → Prop
  | _, .nil, _ => True
  | _, .cons f rest, (a, row) => f.Says n ms a ∧ rest.Say n ms row

variable {fields : Fields ts} {slots slots' : Slots ts} {row : Row ts}

theorem Filled.unique (h : fields.Filled n ms slots) (h' : fields.Filled n ms slots') :
    slots = slots' := by
  induction fields with
  | nil => rfl
  | cons f rest ih =>
    obtain ⟨slot, slots⟩ := slots
    obtain ⟨slot', slots'⟩ := slots'
    rw [h.1.unique h'.1, ih h.2 h'.2]

theorem Filled.before (h : fields.Filled n (ms ++ ms') slots) :
    ∃ slots', fields.Filled n ms slots' := by
  induction fields with
  | nil => exact ⟨(), trivial⟩
  | cons f rest ih =>
    obtain ⟨slot, slots⟩ := slots
    obtain ⟨slot', hslot⟩ := h.1.before
    obtain ⟨slots', hslots⟩ := ih h.2
    exact ⟨(slot', slots'), hslot, hslots⟩

theorem filled_empty (fields : Fields ts) (n : Nat) : fields.Filled n [] fields.empty := by
  induction fields with
  | nil => trivial
  | cons f rest ih => exact ⟨.inl ⟨rfl, rfl⟩, ih⟩

theorem Say.filled (h : fields.Say n ms row) : ∃ slots, fields.Filled n ms slots := by
  induction fields with
  | nil => exact ⟨(), trivial⟩
  | cons f rest ih =>
    obtain ⟨a, row⟩ := row
    obtain ⟨slot, hslot⟩ := h.1.fills
    obtain ⟨slots, hslots⟩ := ih h.2
    exact ⟨(slot, slots), hslot, hslots⟩

/-- A member of another name leaves the slots as they are. -/
theorem filled_concat_other (h : name ∉ fields.names) :
    fields.Filled n (ms ++ [(name, s)]) slots ↔ fields.Filled n ms slots := by
  induction fields with
  | nil => exact Iff.rfl
  | cons f rest ih =>
    obtain ⟨slot, slots⟩ := slots
    rw [names, List.mem_cons, not_or] at h
    exact and_congr (Field.fills_concat_other h.1) (ih h.2)

theorem pair_eq_ok {β : Type} {r : Except Problem β} {a a' : α} {b : β} :
    (do return (a, ← r) : Except Problem (α × β)) = .ok (a', b) ↔ a = a' ∧ r = .ok b := by
  cases r with
  | error p => exact ⟨fun h => (nomatch h), fun h => (nomatch h.2)⟩
  | ok b' =>
    constructor
    · intro h
      cases h
      exact ⟨rfl, rfl⟩
    · rintro ⟨rfl, h⟩
      cases h
      rfl

/-- The slots of all members make the fields that these say. -/
theorem complete_iff (h : fields.Filled n ms slots) :
    fields.complete slots = .ok row ↔ fields.Say n ms row := by
  induction fields with
  | nil => exact ⟨fun _ => trivial, fun _ => rfl⟩
  | cons f rest ih =>
    obtain ⟨slot, slots⟩ := slots
    obtain ⟨b, row⟩ := row
    rw [Say, ← ih h.2]
    rcases h.1 with ⟨hnone, rfl⟩ | ⟨s, a, hone, rfl, ha⟩
    · rw [Field.says_of_none hnone]
      cases habsent : f.absent with
      | required =>
        simp only [complete, habsent, reduceCtorEq, or_self, false_and, iff_false]
        intro hthrow
        cases hthrow
      | inObject a =>
        simp only [complete, habsent]
        exact pair_eq_ok.trans (by simp)
      | default a =>
        simp only [complete, habsent]
        exact pair_eq_ok.trans (by simp)
    · rw [Field.says_of_one hone]
      exact pair_eq_ok.trans (and_congr_left fun _ => ⟨fun h => h ▸ ha, ha.unique⟩)

/-- A member is taken exactly if the slots remain those that the members so far fill. -/
theorem readMember_iff (hspan : fields.Spanning) (hnd : fields.names.Nodup)
    (h : fields.Filled n ms slots) :
    fields.readMember n slots name s = .ok (slots', s') ↔
      ∃ t, colon s = .ok ((), t) ∧ skip t = .ok ((), s') ∧
        fields.Filled n (ms ++ [(name, t)]) slots' := by
  induction fields with
  | nil =>
    constructor
    · intro hread
      obtain ⟨_, t, hcolon, hread⟩ := of_bind_ok hread
      obtain ⟨_, s₂, hskip, hread⟩ := of_bind_ok hread
      cases hread
      exact ⟨t, hcolon, hskip, trivial⟩
    · rintro ⟨t, hcolon, hskip, -⟩
      exact (bind_of_ok hcolon).trans (bind_of_ok hskip)
  | cons f others ih =>
    obtain ⟨slot, slots⟩ := slots
    obtain ⟨slot', slots'⟩ := slots'
    rw [names, List.nodup_cons] at hnd
    constructor
    · intro hread
      rcases of_readMember hread with ⟨rfl, rfl, t, a, hcolon, ha, heq⟩ | ⟨hname, slots₁, hothers, heq⟩
      · cases heq
        exact ⟨t, hcolon, skip_of_spans (hspan.1 n ha),
          (Field.fills_concat_none h.1).mpr ⟨a, rfl, s', ha⟩, (filled_concat_other hnd.1).mpr h.2⟩
      · cases heq
        obtain ⟨t, hcolon, hskip, hfilled⟩ := (ih hspan.2 hnd.2 h.2).mp hothers
        exact ⟨t, hcolon, hskip, (Field.fills_concat_other hname).mpr h.1, hfilled⟩
    · rintro ⟨t, hcolon, hskip, hfills, hfilled⟩
      by_cases hname : name = f.name
      · subst hname
        -- the slots say that no member of this name has been seen, and how this one is read
        cases slot with
        | some a => exact absurd hfills (Field.not_fills_concat_some h.1)
        | none =>
          obtain ⟨a, rfl, s₁, ha⟩ := (Field.fills_concat_none h.1).mp hfills
          rw [skip_of_spans (hspan.1 n ha)] at hskip
          cases hskip
          obtain rfl := ((filled_concat_other hnd.1).mp hfilled).unique h.2
          rw [readMember_own, bind_of_ok hcolon, bind_of_ok ha]
          rfl
      · obtain rfl := ((Field.fills_concat_other hname).mp hfills).unique h.1
        have hothers := (ih hspan.2 hnd.2 h.2).mpr ⟨t, hcolon, hskip, hfilled⟩
        rw [readMember_other hname, bind_of_ok hothers]
        rfl

end Fields

/-! ## All members -/

theorem placedMember_iff :
    placedMember ms name s = .ok (ms', s') ↔
      ∃ t, colon s = .ok ((), t) ∧ skip t = .ok ((), s') ∧ ms' = ms ++ [(name, t)] := by
  constructor
  · intro h
    obtain ⟨_, t, hcolon, h⟩ := of_bind_ok h
    obtain ⟨_, _, hget, h⟩ := of_bind_ok h
    cases hget
    obtain ⟨_, s₂, hskip, h⟩ := of_bind_ok h
    cases h
    exact ⟨t, hcolon, hskip, rfl⟩
  · rintro ⟨t, hcolon, hskip, rfl⟩
    exact (bind_of_ok hcolon).trans ((bind_of_ok (r := get) rfl).trans (bind_of_ok hskip))

/-- Members are only added. -/
theorem exists_append_of_membersUpTo {fuel : Nat} {first : Bool}
    (h : membersUpTo placedMember fuel first ms s = .ok (ms', s')) : ∃ added, ms' = ms ++ added :=
  invariant_of_membersUpTo (I := fun acc => ∃ added, acc = ms ++ added)
    (fun acc name s acc' s' hacc h => by
      obtain ⟨added, rfl⟩ := hacc
      obtain ⟨t, -, -, rfl⟩ := placedMember_iff.mp h
      exact ⟨added ++ [(name, t)], List.append_assoc ..⟩)
    ⟨[], (List.append_nil ms).symm⟩ h

theorem membersUpTo_succ {σ : Type} {member : σ → String → Reader σ} {fuel : Nat} {first : Bool}
    {acc acc' : σ} : membersUpTo member (fuel + 1) first acc s = .ok (acc', s') ↔
      (moreMembers first s = .ok (false, s') ∧ acc' = acc) ∨
        ∃ s₁ name s₂ acc₁ s₃, moreMembers first s = .ok (true, s₁) ∧ string s₁ = .ok (name, s₂) ∧
          member acc name s₂ = .ok (acc₁, s₃) ∧
          membersUpTo member fuel false acc₁ s₃ = .ok (acc', s') := by
  constructor
  · intro h
    rw [membersUpTo] at h
    obtain ⟨more, s₁, hmore, h⟩ := of_bind_ok h
    cases more with
    | false =>
      cases h
      exact .inl ⟨hmore, rfl⟩
    | true =>
      obtain ⟨name, s₂, hname, h⟩ := of_bind_ok h
      obtain ⟨acc₁, s₃, hstep, h⟩ := of_bind_ok h
      exact .inr ⟨s₁, name, s₂, acc₁, s₃, hmore, hname, hstep, h⟩
  · rintro (⟨hmore, rfl⟩ | ⟨s₁, name, s₂, acc₁, s₃, hmore, hname, hstep, h⟩)
    · rw [membersUpTo, bind_of_ok hmore]
      rfl
    · rw [membersUpTo, bind_of_ok hmore]
      exact (bind_of_ok hname).trans ((bind_of_ok hstep).trans h)

theorem Fields.membersUpTo_iff {fields : Fields ts} {slots slots' : Slots ts}
    (hspan : fields.Spanning) (hnd : fields.names.Nodup) (h : fields.Filled n ms slots)
    {fuel : Nat} {first : Bool} :
    membersUpTo (fields.readMember n) fuel first slots s = .ok (slots', s') ↔
      ∃ ms', membersUpTo placedMember fuel first ms s = .ok (ms', s') ∧
        fields.Filled n ms' slots' := by
  induction fuel generalizing ms slots first s with
  | zero => exact ⟨fun h => (nomatch h), fun ⟨_, h, _⟩ => (nomatch h)⟩
  | succ fuel ih =>
    constructor
    · intro hread
      rcases membersUpTo_succ.mp hread with
        ⟨hmore, rfl⟩ | ⟨s₁, name, s₂, slots₁, s₃, hmore, hname, hstep, hread⟩
      · exact ⟨ms, membersUpTo_succ.mpr (.inl ⟨hmore, rfl⟩), h⟩
      · obtain ⟨t, hcolon, hskip, hfilled⟩ := (readMember_iff hspan hnd h).mp hstep
        obtain ⟨ms', hplaces, hfilled'⟩ := (ih hfilled).mp hread
        exact ⟨ms', membersUpTo_succ.mpr (.inr ⟨s₁, name, s₂, _, s₃, hmore, hname,
          placedMember_iff.mpr ⟨t, hcolon, hskip, rfl⟩, hplaces⟩), hfilled'⟩
    · rintro ⟨ms', hplaces, hfilled⟩
      rcases membersUpTo_succ.mp hplaces with
        ⟨hmore, rfl⟩ | ⟨s₁, name, s₂, ms₁, s₃, hmore, hname, hstep, hplaces⟩
      · exact membersUpTo_succ.mpr (.inl ⟨hmore, hfilled.unique h⟩)
      · obtain ⟨t, hcolon, hskip, rfl⟩ := placedMember_iff.mp hstep
        -- the slots after this member are those that a part of all members fills
        obtain ⟨added, rfl⟩ := exists_append_of_membersUpTo hplaces
        obtain ⟨slots₁, hfilled₁⟩ := hfilled.before
        exact membersUpTo_succ.mpr (.inr ⟨s₁, name, s₂, slots₁, s₃, hmore, hname,
          (readMember_iff hspan hnd h).mpr ⟨t, hcolon, hskip, hfilled₁⟩,
          (ih hfilled₁).mpr ⟨_, hplaces, hfilled⟩⟩)

/-! ## Structures -/

theorem enclosed_iff {closing : List UInt8 → Option Fault × List UInt8} {body : Reader α} {a : α} :
    enclosed closing body s = .ok (a, t) ↔
      ∃ s', body s.tail = .ok (a, s') ∧ closing s' = (none, t) := by
  refine ⟨of_enclosed, ?_⟩
  rintro ⟨s', hbody, hclosing⟩
  simp only [enclosed, hbody, hclosing]

theorem of_places (h : places s = .ok (ms, t)) :
    ∃ s₁ s', head s = .ok (.brace, s₁) ∧ members placedMember [] s₁.tail = .ok (ms, s') ∧
      endOfObject s' = (none, t) := by
  obtain ⟨first, s₁, hhead, h⟩ := of_bind_ok h
  split at h
  · obtain ⟨s', hmembers, hend⟩ := enclosed_iff.mp h
    exact ⟨s₁, s', hhead, hmembers, hend⟩
  · exact absurd h mismatch_ne_ok

namespace Fields

variable {fields : Fields ts} {row : Row ts}

theorem readObject_iff (hspan : fields.Spanning) (hnd : fields.names.Nodup) :
    fields.readObject n s = .ok (row, s') ↔
      ∃ ms, members placedMember [] s = .ok (ms, s') ∧ fields.Say n ms row := by
  constructor
  · intro h
    obtain ⟨slots, s₁, hslots, h⟩ := of_bind_ok h
    obtain ⟨ms, hplaces, hfilled⟩ := (membersUpTo_iff hspan hnd (filled_empty fields n)).mp hslots
    cases hcomplete : fields.complete slots with
    | error p =>
      rw [hcomplete] at h
      cases h
    | ok row' =>
      rw [hcomplete] at h
      cases h
      exact ⟨ms, hplaces, (complete_iff hfilled).mp hcomplete⟩
  · rintro ⟨ms, hplaces, hsay⟩
    obtain ⟨slots, hfilled⟩ := hsay.filled
    have hslots : members (fields.readMember n) fields.empty s = .ok (slots, s') :=
      (membersUpTo_iff hspan hnd (filled_empty fields n)).mpr ⟨ms, hplaces, hfilled⟩
    rw [readObject, bind_of_ok hslots, (complete_iff hfilled).mpr hsay]
    rfl

end Fields

section Record

variable {σ : Type} {fields : Fields ts} {toRow : σ → Row ts} {ofRow : Row ts → σ} {a : σ}

/-- An object is read as the structure that its members say. -/
theorem record_reader_iff (hspan : fields.Spanning) (hnd : fields.names.Nodup)
    (hplaces : places s = .ok (ms, t)) :
    (Codec.record name fields toRow ofRow).reader (n + 1) s = .ok (a, s') ↔
      s' = t ∧ ∃ row, fields.Say n ms row ∧ ofRow row = a := by
  obtain ⟨s₁, s₂, hhead, hmembers, hend⟩ := of_places hplaces
  constructor
  · intro h
    obtain ⟨first, _, hhead', h⟩ := of_bind_ok h
    rw [hhead] at hhead'
    cases hhead'
    obtain ⟨row, s₃, hrow, h⟩ := of_bind_ok h
    cases h
    obtain ⟨s₄, hobject, hend'⟩ := of_enclosed hrow
    obtain ⟨ms', hmembers', hsay⟩ := (Fields.readObject_iff hspan hnd).mp hobject
    rw [hmembers] at hmembers'
    cases hmembers'
    rw [hend] at hend'
    cases hend'
    exact ⟨rfl, row, hsay, rfl⟩
  · rintro ⟨rfl, row, hsay, rfl⟩
    have hobject := (Fields.readObject_iff hspan hnd).mpr ⟨ms, hmembers, hsay⟩
    exact (bind_of_ok hhead).trans (bind_of_ok (enclosed_iff.mpr ⟨s₂, hobject, hend⟩))

theorem record_readsAt_iff (hspan : fields.Spanning) (hnd : fields.names.Nodup)
    (hplaces : places s = .ok (ms, t)) :
    (Codec.record name fields toRow ofRow).ReadsAt (n + 1) s a ↔
      ∃ row, fields.Say n ms row ∧ ofRow row = a := by
  simp only [Codec.ReadsAt, record_reader_iff hspan hnd hplaces, exists_eq_left]

/-- **A text that is an object is the structure that its members say.** -/
theorem record_parse_iff (hspan : fields.Spanning) (hnd : fields.names.Nodup)
    (hms : membersOf s = .ok ms) :
    (Codec.record name fields toRow ofRow).parse s = .ok a ↔
      ∃ row, fields.Say (maxNesting - 1) ms row ∧ ofRow row = a := by
  obtain ⟨t, s₁, hplaces, hend⟩ := run_whole_iff.mp hms
  rw [Codec.parse, run_whole_iff]
  constructor
  · rintro ⟨t', s₂, hread, -⟩
    exact ((record_reader_iff hspan hnd hplaces).mp hread).2
  · rintro ⟨row, hsay, rfl⟩
    exact ⟨t, s₁, (record_reader_iff hspan hnd hplaces).mpr ⟨rfl, row, hsay, rfl⟩, hend⟩

end Record

/-! ## Nullable members -/

/-- The value at the beginning of `s` is `null`. -/
def NullAt (s : List UInt8) : Prop := ∃ t, skipGaps s = 0x6E :: 0x75 :: 0x6C :: 0x6C :: t

/-- The value of a nullable member: nothing if it is absent or `null`. -/
def Places.Holds (ms : Places) (name : String) (c : Codec α) (n : Nat) : Option α → Prop
  | none => ms.found name = [] ∨ ∃ s, ms.found name = [s] ∧ NullAt s
  | some a => ∃ s, ms.found name = [s] ∧ c.ReadsAt n s a

/-- The codec's reader passes over blanks first. -/
def Codec.SkipsGaps (c : Codec α) : Prop := ∀ n s, c.reader n (skipGaps s) = c.reader n s

theorem record_skipsGaps {σ : Type} {fields : Fields ts} {toRow : σ → Row ts}
    {ofRow : Row ts → σ} : (Codec.record name fields toRow ofRow).SkipsGaps := by
  intro n s
  simp only [Codec.record, bind, StateT.bind, head_skipGaps]

theorem any_skipsGaps : Codec.any.SkipsGaps := by
  intro n s
  cases n <;> simp only [Codec.any, value, node, bind, StateT.bind, head_skipGaps]

theorem eq_append_of_word {bs : List UInt8} (h : word bs s = .ok ((), t)) : s = bs ++ t := by
  induction bs generalizing s with
  | nil =>
    cases h
    rfl
  | cons b bs ih =>
    unfold word at h
    split at h
    · cases h
    · split at h
      · rename_i heq
        rw [ih h, heq, List.cons_append]
      · cases h

theorem of_option_readsAt {c : Codec α} (hc : c.SkipsGaps) {o : Option α}
    (h : c.option.ReadsAt n s o) : (o = none ∧ NullAt s) ∨ ∃ a, o = some a ∧ c.ReadsAt n s a := by
  obtain ⟨t, h⟩ := h
  obtain ⟨next, s₁, hpeek, h⟩ := of_bind_ok h
  obtain ⟨rfl, hnext⟩ := of_peek hpeek
  split at h
  · obtain ⟨_, s₂, hword, h⟩ := of_bind_ok h
    cases h
    have hs := eq_cons_of_head? hnext.symm
    rw [nullWord, advance_bind] at hword
    rw [eq_append_of_word hword] at hs
    exact .inl ⟨rfl, t, hs⟩
  · obtain ⟨a, s₂, ha, h⟩ := of_bind_ok h
    cases h
    rw [hc] at ha
    exact .inr ⟨a, rfl, _, ha⟩

/-- What a nullable field is in an object. -/
theorem holds_of_says {c : Codec α} (hc : c.SkipsGaps) {o : Option α}
    (h : (Field.nullable name c).Says n ms o) : ms.Holds name c n o := by
  rcases h with ⟨hnone, habsent | ⟨⟨⟩⟩⟩ | ⟨s, hone, hread⟩
  · cases habsent
    exact .inl hnone
  · rcases of_option_readsAt hc hread with ⟨rfl, hnull⟩ | ⟨a, rfl, ha⟩
    · exact .inr ⟨s, hone, hnull⟩
    · exact ⟨s, hone, ha⟩

end Workbench.Json
