import Workbench.Proofs.Common
import Workbench.Proofs.Json.Member

/-!
# Structures as their values say

A structure is decoded from an object member by member. If no name is repeated, this comes to
looking each field up: it is what the value under its name is decoded to, or what an absent field
stands for.

* `take_iff`: one member fills the slot of its field, if it has one, and leaves the others alone;
* `foldlM_take_iff`: from this, by induction, what all members do;
* `record_decode_iff`: the structure that an object is decoded to.
-/
namespace Workbench.Json

variable {α : Type} {ts : List Type} {n : String} {v : Json} {vs : List (String × Json)}

namespace Field

/-- What a slot becomes when `member` is all that the object has under the name of its field. -/
def After (f : Field α) : Option Json → Option α → Option α → Prop
  | none, slot, slot' => slot' = slot
  | some v, slot, slot' => slot = none ∧ ∃ a, slot' = some a ∧ f.codec.decode v = .ok a

/-- The value of a field when `member` is all that the object has under its name. -/
def Decodes (f : Field α) : Option Json → α → Prop
  | none, a => f.absent = .inObject a ∨ f.absent = .default a
  | some v, a => f.codec.decode v = .ok a

variable {f : Field α} {slot slot' : Option α}

theorem after_cons (h : n ∉ vs.map Prod.fst) :
    f.After (((n, v) :: vs).lookup f.name) slot slot' ↔
      ∃ slot₁, f.After ([(n, v)].lookup f.name) slot slot₁ ∧
        f.After (vs.lookup f.name) slot₁ slot' := by
  rw [lookup_cons_ite, lookup_cons_ite]
  split
  · rename_i hname
    rw [lookup_eq_none_of_not_mem (hname ▸ h)]
    exact ⟨fun h => ⟨slot', h, rfl⟩, fun ⟨_, h, heq⟩ => heq ▸ h⟩
  · exact ⟨fun h => ⟨slot, rfl, h⟩, fun ⟨_, heq, h⟩ => heq ▸ h⟩

end Field

namespace Fields

/-- What the slots become through these members. -/
def After (vs : List (String × Json)) : {ts : List Type} → Fields ts → Slots ts → Slots ts → Prop
  | _, .nil, _, _ => True
  | _, .cons f rest, (slot, slots), (slot', slots') =>
    f.After (vs.lookup f.name) slot slot' ∧ rest.After vs slots slots'

/-- The values of the fields in an object with these members. -/
def Decode (vs : List (String × Json)) : {ts : List Type} → Fields ts → Row ts → Prop
  | _, .nil, _ => True
  | _, .cons f rest, (a, row) => f.Decodes (vs.lookup f.name) a ∧ rest.Decode vs row

variable {fields : Fields ts} {slots slots' : Slots ts} {row : Row ts}

/-- Members without a field leave the slots as they are. -/
theorem after_of_absent (h : ∀ name ∈ fields.names, vs.lookup name = none) :
    fields.After vs slots slots' ↔ slots' = slots := by
  induction fields with
  | nil => exact ⟨fun _ => rfl, fun _ => trivial⟩
  | cons f rest ih =>
    obtain ⟨slot, slots⟩ := slots
    obtain ⟨slot', slots'⟩ := slots'
    obtain ⟨hfirst, hrest⟩ := List.forall_mem_cons.mp h
    rw [After, hfirst, ih hrest]
    exact Prod.mk_inj.symm

theorem after_cons (h : n ∉ vs.map Prod.fst) :
    fields.After ((n, v) :: vs) slots slots' ↔
      ∃ slots₁, fields.After [(n, v)] slots slots₁ ∧ fields.After vs slots₁ slots' := by
  induction fields with
  | nil => exact ⟨fun _ => ⟨(), trivial, trivial⟩, fun _ => trivial⟩
  | cons f rest ih =>
    obtain ⟨slot, slots⟩ := slots
    obtain ⟨slot', slots'⟩ := slots'
    rw [After, Field.after_cons h, ih]
    constructor
    · rintro ⟨⟨slot₁, hfirst, hnext⟩, slots₁, hfirsts, hnexts⟩
      exact ⟨(slot₁, slots₁), ⟨hfirst, hfirsts⟩, hnext, hnexts⟩
    · rintro ⟨⟨slot₁, slots₁⟩, ⟨hfirst, hfirsts⟩, hnext, hnexts⟩
      exact ⟨⟨slot₁, hfirst, hnext⟩, slots₁, hfirsts, hnexts⟩

theorem take_own (f : Field α) (rest : Fields ts) :
    (cons f rest).take (none, slots) f.name v =
      (do return (some (← f.codec.decode v), slots) : Except Problem (Slots (α :: ts))) :=
  if_pos rfl

theorem take_again (f : Field α) (rest : Fields ts) (a : α) :
    (cons f rest).take (some a, slots) f.name v = .error (.duplicateField f.name) :=
  if_pos rfl

theorem take_other {f : Field α} (hne : n ≠ f.name) {rest : Fields ts} {slot : Option α} :
    (cons f rest).take (slot, slots) n v =
      (do return (slot, ← rest.take slots n v) : Except Problem (Slots (α :: ts))) :=
  if_neg hne

/-- One member fills the slot of its field, if it has one. -/
theorem take_iff (hnd : fields.names.Nodup) :
    fields.take slots n v = .ok slots' ↔ fields.After [(n, v)] slots slots' := by
  induction fields with
  | nil => exact ⟨fun _ => trivial, fun _ => rfl⟩
  | cons f rest ih =>
    obtain ⟨slot, slots⟩ := slots
    obtain ⟨slot', slots'⟩ := slots'
    rw [names, List.nodup_cons] at hnd
    by_cases hname : n = f.name
    · subst hname
      -- no other field has this name
      have hothers : rest.After [(f.name, v)] slots slots' ↔ slots' = slots :=
        after_of_absent fun name hmem => by
          have hne : name ≠ f.name := fun h => hnd.1 (h ▸ hmem)
          rw [lookup_cons_ite, if_neg hne]
          rfl
      rw [After, List.lookup_cons_self, hothers]
      cases slot with
      | some a =>
        rw [take_again]
        constructor
        · intro h
          cases h
        · rintro ⟨⟨hnone, -⟩, -⟩
          cases hnone
      | none =>
        rw [take_own]
        refine bind_eq_ok_iff.trans ?_
        constructor
        · rintro ⟨a, ha, ⟨⟩⟩
          exact ⟨⟨rfl, a, rfl, ha⟩, rfl⟩
        · rintro ⟨⟨-, a, rfl, ha⟩, rfl⟩
          exact ⟨a, ha, rfl⟩
    · have hnone : [(n, v)].lookup f.name = none := by
        rw [lookup_cons_ite, if_neg (Ne.symm hname)]
        rfl
      rw [take_other hname, After, hnone, ← ih hnd.2]
      refine bind_eq_ok_iff.trans ?_
      constructor
      · rintro ⟨slots₁, hslots, ⟨⟩⟩
        exact ⟨rfl, hslots⟩
      · rintro ⟨hslot, hslots⟩
        exact ⟨slots', hslots, hslot ▸ rfl⟩

theorem foldlM_take_iff (hnd : fields.names.Nodup) (hvs : (vs.map Prod.fst).Nodup) :
    vs.foldlM (fun slots (n, v) => fields.take slots n v) slots = .ok slots' ↔
      fields.After vs slots slots' := by
  induction vs generalizing slots with
  | nil =>
    rw [after_of_absent fun _ _ => rfl]
    exact ⟨fun h => (Except.ok.inj h).symm, fun h => congrArg Except.ok h.symm⟩
  | cons m vs ih =>
    obtain ⟨n, v⟩ := m
    obtain ⟨hn, hvs⟩ := List.nodup_cons.mp hvs
    rw [List.foldlM_cons, bind_eq_ok_iff, after_cons hn]
    exact exists_congr fun slots₁ => and_congr (take_iff hnd) (ih hvs)

theorem Decode.after (h : fields.Decode vs row) :
    ∃ slots, fields.After vs fields.empty slots := by
  induction fields with
  | nil => exact ⟨(), trivial⟩
  | cons f rest ih =>
    obtain ⟨a, row⟩ := row
    obtain ⟨slots, hslots⟩ := ih h.2
    have hfirst := h.1
    cases hmember : vs.lookup f.name with
    | none => exact ⟨(none, slots), by rw [hmember]; rfl, hslots⟩
    | some v =>
      rw [hmember] at hfirst
      exact ⟨(some a, slots), by rw [hmember]; exact ⟨rfl, a, rfl, hfirst⟩, hslots⟩

/-- The slots that all members have filled make the fields that these are decoded to. -/
theorem complete_after_iff (h : fields.After vs fields.empty slots) :
    fields.complete slots = .ok row ↔ fields.Decode vs row := by
  induction fields with
  | nil => exact ⟨fun _ => trivial, fun _ => rfl⟩
  | cons f rest ih =>
    obtain ⟨slot, slots⟩ := slots
    obtain ⟨a, row⟩ := row
    obtain ⟨hslot, hslots⟩ := h
    rw [Decode, ← ih hslots]
    cases hmember : vs.lookup f.name with
    | none =>
      rw [hmember] at hslot
      obtain rfl : slot = none := hslot
      cases habsent : f.absent with
      | required =>
        simp only [Field.Decodes, complete, habsent, reduceCtorEq, or_self, false_and, iff_false]
        intro hthrow
        cases hthrow
      | inObject b =>
        simp only [complete, habsent]
        exact pair_eq_ok.trans (by simp [Field.Decodes, habsent])
      | default b =>
        simp only [complete, habsent]
        exact pair_eq_ok.trans (by simp [Field.Decodes, habsent])
    | some v =>
      rw [hmember] at hslot
      obtain ⟨-, b, rfl, hb⟩ := hslot
      refine pair_eq_ok.trans (and_congr_left fun _ => ?_)
      rw [Field.Decodes, hb, Except.ok.injEq]

end Fields

/-- **An object without repeated names is decoded to the structure that its members say.** -/
theorem record_decode_iff {σ : Type} {fields : Fields ts} {toRow : σ → Row ts}
    {ofRow : Row ts → σ} {a : σ} (hnd : fields.names.Nodup) (hvs : (vs.map Prod.fst).Nodup) :
    (Codec.record n fields toRow ofRow).decode (.obj vs) = .ok a ↔
      ∃ row, fields.Decode vs row ∧ ofRow row = a := by
  simp only [Codec.record, bind_eq_ok_iff, Fields.foldlM_take_iff hnd hvs]
  constructor
  · rintro ⟨slots, hslots, row, hrow, ⟨⟩⟩
    exact ⟨row, (Fields.complete_after_iff hslots).mp hrow, rfl⟩
  · rintro ⟨row, hrow, rfl⟩
    obtain ⟨slots, hslots⟩ := hrow.after
    exact ⟨slots, hslots, row, (Fields.complete_after_iff hslots).mpr hrow, rfl⟩

end Workbench.Json
