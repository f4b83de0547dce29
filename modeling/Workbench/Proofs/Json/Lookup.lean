import Workbench.Proofs.Json.Member

/-!
# Looking up what is read

A structure and a value of any kind can be read from one text. What the value has under a name is
what its last member of this name is read as, and a field of the structure has the same when there
is only one such member.

* `latest_concat`: a member that is read next becomes the latest of its name;
* `latest_of_read`: from this, by induction, what an object that was read has under every name;
* `once_of_latest`: if there is only one member of a name, it is what was looked up;
* `lenient_says_iff`: a field that takes values of any kind is made of the only member of its name;
* `isJson_of_parse`: whatever a codec reads is JSON.
-/
namespace Workbench.Json

variable {α : Type} {n : Nat} {ms ms' : Places} {acc acc' vs : List (String × Json)}
  {s s' t text : List UInt8} {name : String}

theorem lookup_insert (name other : String) (a : α) (acc : List (String × α)) :
    (insert name a acc).lookup other = if other = name then some a else acc.lookup other := by
  induction acc with
  | nil => by_cases h : other = name <;> grind [insert]
  | cons m acc ih =>
    obtain ⟨first, b⟩ := m
    unfold insert
    by_cases h : other = name <;> grind

/-- `vs` has under each name what the last member of this name is read as. -/
def Places.Latest (n : Nat) (ms : Places) (vs : List (String × Json)) : Prop :=
  ∀ name, Option.Rel (Codec.any.ReadsAt n) (ms.found name).getLast? (vs.lookup name)

theorem latest_nil (n : Nat) : Places.Latest n [] [] := fun _ => .none

/-- The member that is read next becomes the latest of its name. -/
theorem latest_concat {v : Json} (h : ms.Latest n acc) (hv : Codec.any.ReadsAt n s v)
    (name : String) : Places.Latest n (ms ++ [(name, s)]) (insert name v acc) := by
  intro other
  rw [lookup_insert]
  split
  · rename_i hsame
    rw [hsame, Places.found_concat_self, List.getLast?_concat]
    exact .some hv
  · rename_i hother
    rw [Places.found_concat_other (Ne.symm hother)]
    exact h other

theorem latest_of_membersUpTo {fuel : Nat} {first : Bool} (hlatest : ms.Latest n acc)
    (h : membersUpTo (anyMember (value n)) fuel first acc s = .ok (acc', s')) :
    ∃ ms', membersUpTo placedMember fuel first ms s = .ok (ms', s') ∧ ms'.Latest n acc' := by
  induction fuel generalizing ms acc first s with
  | zero => cases h
  | succ fuel ih =>
    rcases membersUpTo_succ.mp h with
      ⟨hmore, rfl⟩ | ⟨s₁, name, s₂, acc₁, s₃, hmore, hname, hstep, h⟩
    · exact ⟨ms, membersUpTo_succ.mpr (.inl ⟨hmore, rfl⟩), hlatest⟩
    · obtain ⟨_, t, hcolon, hstep⟩ := of_bind_ok hstep
      obtain ⟨v, s₄, hv, hstep⟩ := of_bind_ok hstep
      cases hstep
      obtain ⟨ms', hplaces, hlatest'⟩ := ih (latest_concat hlatest ⟨_, hv⟩ name) h
      -- the value that was read ends where passing over it ends
      have hplaced : placedMember ms name s₂ = .ok (ms ++ [(name, t)], s₃) :=
        placedMember_iff.mpr ⟨t, hcolon, skip_of_spans (value_spanning n hv), rfl⟩
      exact ⟨ms', membersUpTo_succ.mpr
        (.inr ⟨s₁, name, s₂, _, s₃, hmore, hname, hplaced, hplaces⟩), hlatest'⟩

theorem of_value_obj (h : value (n + 1) s = .ok (.obj vs, t)) :
    ∃ s₁ s', head s = .ok (.brace, s₁) ∧
      members (anyMember (value n)) [] s₁.tail = .ok (vs, s') ∧ endOfObject s' = (none, t) := by
  obtain ⟨first, s₁, hhead, h⟩ := of_bind_ok h
  cases first with
  | null | true | false | minus | digit | quote =>
    obtain ⟨_, _, -, h⟩ := of_bind_ok h
    cases h
  | bracket =>
    obtain ⟨_, h, -⟩ := of_enclosed h
    obtain ⟨_, _, -, h⟩ := of_bind_ok h
    cases h
  | brace =>
    obtain ⟨s', hbody, hend⟩ := of_enclosed h
    obtain ⟨vs', _, hmembers, hbody⟩ := of_bind_ok hbody
    cases hbody
    exact ⟨s₁, s', hhead, hmembers, hend⟩
  | other => cases h

/-- **What an object that was read has under a name is what the last member of this name is.** -/
theorem latest_of_read (h : read text = .ok (.obj vs)) :
    ∃ ms, membersOf text = .ok ms ∧ ms.Latest (maxNesting - 1) vs := by
  obtain ⟨t, s', hvalue, hend⟩ := run_whole_iff.mp h
  obtain ⟨s₁, s₂, hhead, hmembers, hclose⟩ := of_value_obj (n := maxNesting - 1) hvalue
  obtain ⟨ms, hplaces, hlatest⟩ := latest_of_membersUpTo (latest_nil _) hmembers
  have hobject : places text = .ok (ms, t) :=
    (bind_of_ok hhead).trans (enclosed_iff.mpr ⟨s₂, hplaces, hclose⟩)
  exact ⟨ms, run_whole_iff.mpr ⟨t, s', hobject, hend⟩, hlatest⟩

/-- There is at most one member of this name, and `v` is what it is read as. -/
def Places.Once (n : Nat) (ms : Places) (name : String) (v : Option Json) : Prop :=
  List.Forall₂ (Codec.any.ReadsAt n) (ms.found name) v.toList

theorem once_of_latest (hlatest : ms.Latest n vs) (honce : (ms.found name).length ≤ 1) :
    ms.Once n name (vs.lookup name) := by
  have hrel := hlatest name
  unfold Places.Once
  match hfound : ms.found name with
  | [] =>
    rw [hfound] at hrel
    generalize vs.lookup name = v at hrel
    cases hrel
    exact .nil
  | [s] =>
    rw [hfound] at hrel
    generalize vs.lookup name = v at hrel
    cases hrel with
    | some hv => exact .cons hv .nil
  | _ :: _ :: _ =>
    rw [hfound] at honce
    simp at honce

/-! ## Fields of any shape -/

section Lenient

variable {encode : α → Json} {ofJson : Json → α} {a default : α}

theorem lenient_spanning : (Codec.lenient encode ofJson).Spanning := by
  intro n s a rest h
  obtain ⟨v, s₁, hv, h⟩ := of_bind_ok h
  cases h
  exact value_spanning n hv

theorem lenient_readsAt {v : Json} (hv : Codec.any.ReadsAt n s v) :
    (Codec.lenient encode ofJson).ReadsAt n s a ↔ a = ofJson v := by
  obtain ⟨rest, hv⟩ := hv
  have hread : (Codec.lenient encode ofJson).ReadsAt n s (ofJson v) := ⟨rest, bind_of_ok hv⟩
  exact ⟨fun h => h.unique hread, fun h => h ▸ hread⟩

/-- A field that takes values of any kind is made of the only member of its name. -/
theorem lenient_says_iff {v : Option Json} (h : ms.Once n name v) :
    (Field.default name (Codec.lenient encode ofJson) default).Says n ms a ↔
      a = (v.map ofJson).getD default := by
  unfold Places.Once at h
  cases v with
  | none =>
    rw [Field.says_of_none (List.forall₂_nil_right_iff.mp h)]
    simp [Field.default, eq_comm]
  | some v =>
    obtain ⟨s, rest, hv, hrest, hfound⟩ := List.forall₂_cons_right_iff.mp h
    rw [List.forall₂_nil_right_iff.mp hrest] at hfound
    rw [Field.says_of_one hfound]
    exact lenient_readsAt hv

end Lenient

/-! ## Texts that are no JSON -/

/-- One value by its grammar alone, be its numbers too large or its nesting too deep to be held. -/
def IsJson (text : List UInt8) : Prop := Reader.run (do skip; atEnd) text = .ok ()

theorem isJson_of_parse {c : Codec α} {a : α} (hc : c.Spanning) (h : c.parse text = .ok a) :
    IsJson text := by
  obtain ⟨rest, s', hread, hend⟩ := run_whole_iff.mp h
  rw [IsJson, Reader.run, bind_of_ok (skip_of_spans (hc maxNesting hread)), hend]

end Workbench.Json
