import Workbench.Proofs.Json.Lookup

/-!
# Structures as their items say

A structure can be written as an array of its fields in declared order. Where its codecs take
values of any kind, what it becomes is seen from the array that is read as a value: each field is
made of the item in its place, and the fields that are left stand for what they do when absent.

* `readItems_of_make`: reading the items field by field keeps in step with reading them as values;
* `record_parse_of_items`: hence the structure that an array is read as.
-/
namespace Workbench.Json

variable {α σ : Type} {ts : List Type} {n fuel : Nat} {first : Bool} {s s' t text : List UInt8}
  {v : Json} {vs : List Json} {name : String}

/-- Wherever a value is read as `v`, the codec reads `a` and ends in the same place. -/
def Codec.Makes (c : Codec α) (n : Nat) (v : Json) (a : α) : Prop :=
  ∀ s t, value n s = .ok (v, t) → c.reader n s = .ok (a, t)

theorem lenient_makes {encode : α → Json} {ofJson : Json → α} :
    (Codec.lenient encode ofJson).Makes n v (ofJson v) :=
  fun _ _ h => bind_of_ok h

/-- The values of the fields in an array of these items. -/
def Fields.Make (n : Nat) : {ts : List Type} → Fields ts → List Json → Row ts → Prop
  | _, .nil, vs, _ => vs = []
  | _, .cons f rest, [], (a, row) => f.absent = .default a ∧ rest.Make n [] row
  | _, .cons f rest, v :: vs, (a, row) => f.codec.Makes n v a ∧ rest.Make n vs row

/-! ## Items in step -/

theorem endOfList_skipGaps (s : List UInt8) : endOfList (skipGaps s) = endOfList s := by
  rw [endOfList, endOfList, skipGaps_skipGaps]

theorem moreItems_skipGaps (first : Bool) (s : List UInt8) :
    moreItems first (skipGaps s) = moreItems first s := by
  simp only [moreItems, bind, StateT.bind, peek_skipGaps]

theorem eq_skipGaps_of_moreItems (h : moreItems first s = .ok (false, s')) : s' = skipGaps s := by
  rcases of_moreItems h with ⟨-, hs⟩ | ⟨⟨⟩, -⟩ | ⟨⟨⟩, -⟩
  exact hs

theorem of_itemsUpTo {item : Reader α} {as : List α}
    (h : itemsUpTo item fuel first s = .ok (as, s')) :
    (moreItems first s = .ok (false, s') ∧ as = []) ∨
      ∃ fuel' s₁ a s₂ as', moreItems first s = .ok (true, s₁) ∧ item s₁ = .ok (a, s₂) ∧
        itemsUpTo item fuel' false s₂ = .ok (as', s') ∧ as = a :: as' := by
  cases fuel with
  | zero => cases h
  | succ fuel =>
    obtain ⟨more, s₁, hmore, h⟩ := of_bind_ok h
    cases more with
    | false =>
      cases h
      exact .inl ⟨hmore, rfl⟩
    | true =>
      obtain ⟨a, s₂, ha, h⟩ := of_bind_ok h
      obtain ⟨as', _, has, h⟩ := of_bind_ok h
      cases h
      exact .inr ⟨fuel, s₁, a, s₂, as', hmore, ha, has, rfl⟩

theorem readItems_of_make {fields : Fields ts} {row : Row ts} {expected : String} {seen : Nat}
    (hmake : fields.Make n vs row) (hitems : itemsUpTo (value n) fuel first s = .ok (vs, s'))
    (hend : endOfList s' = (none, t)) :
    ∃ s'', fields.readItems expected n first seen s = .ok (row, s'') ∧
      endOfList s'' = (none, t) := by
  induction fields generalizing vs fuel first s seen with
  | nil =>
    obtain rfl : vs = [] := hmake
    rcases of_itemsUpTo hitems with ⟨hmore, -⟩ | ⟨_, _, _, _, _, -, -, -, ⟨⟩⟩
    refine ⟨s, rfl, ?_⟩
    rwa [eq_skipGaps_of_moreItems hmore, endOfList_skipGaps] at hend
  | cons f rest ih =>
    obtain ⟨a, row⟩ := row
    rcases of_itemsUpTo hitems with ⟨hmore, rfl⟩ | ⟨fuel', s₁, v, s₂, vs', hmore, hv, hvs, rfl⟩
    · obtain ⟨habsent, hmake⟩ := hmake
      -- the end that has been seen is seen again by each of the other fields
      have hagain : moreItems first s' = .ok (false, s') := by
        obtain rfl := eq_skipGaps_of_moreItems hmore
        rw [moreItems_skipGaps, hmore]
      have hnone : itemsUpTo (value n) 1 first s' = .ok ([], s') := by
        rw [itemsUpTo, bind_of_ok hagain]
        rfl
      obtain ⟨s'', hrest, hend'⟩ := ih hmake hnone
      refine ⟨s'', ?_, hend'⟩
      rw [Fields.readItems, bind_of_ok hmore, habsent]
      exact bind_of_ok hrest
    · obtain ⟨hmakes, hmake⟩ := hmake
      obtain ⟨s'', hrest, hend'⟩ := ih hmake hvs
      refine ⟨s'', ?_, hend'⟩
      rw [Fields.readItems, bind_of_ok hmore]
      exact (bind_of_ok (hmakes s₁ s₂ hv)).trans (bind_of_ok hrest)

/-! ## Structures -/

theorem of_value_arr (h : value (n + 1) s = .ok (.arr vs, t)) :
    ∃ s₁ s', head s = .ok (.bracket, s₁) ∧ items (value n) s₁.tail = .ok (vs, s') ∧
      endOfList s' = (none, t) := by
  obtain ⟨first, s₁, hhead, h⟩ := of_bind_ok h
  cases first with
  | null | true | false | minus | digit | quote =>
    obtain ⟨_, _, -, h⟩ := of_bind_ok h
    cases h
  | bracket =>
    obtain ⟨s', hbody, hend⟩ := of_enclosed h
    obtain ⟨vs', _, hitems, hbody⟩ := of_bind_ok hbody
    cases hbody
    exact ⟨s₁, s', hhead, hitems, hend⟩
  | brace =>
    obtain ⟨_, h, -⟩ := of_enclosed h
    obtain ⟨_, _, -, h⟩ := of_bind_ok h
    cases h
  | other => cases h

/-- **An array is read as the structure that its items make.** -/
theorem record_parse_of_items {fields : Fields ts} {toRow : σ → Row ts} {ofRow : Row ts → σ}
    {row : Row ts} (hread : read text = .ok (.arr vs))
    (hmake : fields.Make (maxNesting - 1) vs row) :
    (Codec.record name fields toRow ofRow).parse text = .ok (ofRow row) := by
  obtain ⟨t, s', hvalue, hend⟩ := run_whole_iff.mp hread
  obtain ⟨s₁, s₂, hhead, hitems, hclose⟩ := of_value_arr (n := maxNesting - 1) hvalue
  obtain ⟨s₃, hrow, hclose'⟩ : ∃ s₃, fields.readItems (sized name fields.count) (maxNesting - 1)
      true 0 s₁.tail = .ok (row, s₃) ∧ endOfList s₃ = (none, t) :=
    readItems_of_make hmake hitems hclose
  have harray : enclosed endOfList (fields.readItems (sized name fields.count) (maxNesting - 1)
      true 0) s₁ = .ok (row, t) := enclosed_iff.mpr ⟨s₃, hrow, hclose'⟩
  refine run_whole_iff.mpr ⟨t, s', ?_, hend⟩
  exact (bind_of_ok hhead).trans (bind_of_ok harray)

end Workbench.Json
