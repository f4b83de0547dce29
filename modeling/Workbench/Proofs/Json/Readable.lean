import Workbench.Proofs.Json.Reread

/-!
# What is read

A reader returns only values that it could read again once they are written: their numbers can be
held, and they are nested no more deeply than it allows.

* `forall_of_itemsUpTo`, `invariant_of_membersUpTo`: what the reader of a part ensures holds of an
  array, and what the reader of a member preserves holds of an object.
* `value_induction`: induction over all that the reader of values may return.
* `readable_of_value`, `ordered_of_value`: values that are read are `Readable`, and the members of
  their objects are in order.
-/
namespace Workbench.Json

section Reading

variable {α σ : Type} {item : Reader α} {member : σ → String → Reader σ} {s rest : List UInt8}

/-- Items satisfy what their reader ensures. -/
theorem forall_of_itemsUpTo {P : α → Prop} (hitem : ∀ s a s', item s = .ok (a, s') → P a)
    {fuel : Nat} {first : Bool} {as : List α}
    (h : itemsUpTo item fuel first s = .ok (as, rest)) : ∀ a ∈ as, P a := by
  induction fuel generalizing first s as with
  | zero => cases h
  | succ fuel ih =>
    rw [itemsUpTo] at h
    obtain ⟨more, s₁, -, h⟩ := of_bind_ok h
    cases more with
    | false =>
      cases h
      exact fun _ ha => nomatch ha
    | true =>
      obtain ⟨a, s₂, ha, h⟩ := of_bind_ok h
      obtain ⟨as', s₃, has, h⟩ := of_bind_ok h
      cases h
      exact List.forall_mem_cons.mpr ⟨hitem _ _ _ ha, ih has⟩

/-- What each member preserves holds in the end. -/
theorem invariant_of_membersUpTo {I : σ → Prop}
    (hmember : ∀ acc name s acc' s', I acc → member acc name s = .ok (acc', s') → I acc')
    {fuel : Nat} {first : Bool} {acc acc' : σ} (hacc : I acc)
    (h : membersUpTo member fuel first acc s = .ok (acc', rest)) : I acc' := by
  induction fuel generalizing first acc s with
  | zero => cases h
  | succ fuel ih =>
    rw [membersUpTo] at h
    obtain ⟨more, s₁, -, h⟩ := of_bind_ok h
    cases more with
    | false =>
      cases h
      exact hacc
    | true =>
      obtain ⟨name, s₂, -, h⟩ := of_bind_ok h
      obtain ⟨acc₁, s₃, hstep, h⟩ := of_bind_ok h
      exact ih (hmember _ _ _ _ _ hacc hstep) h

theorem of_enclosed {closing : List UInt8 → Option Fault × List UInt8} {body : Reader α} {a : α}
    (h : enclosed closing body s = .ok (a, rest)) :
    ∃ s', body s.tail = .ok (a, s') ∧ closing s' = (none, rest) := by
  unfold enclosed at h
  split at h
  · rename_i b s' hbody
    split at h <;> cases h
    rename_i hclosing
    exact ⟨s', hbody, hclosing⟩
  · cases h
  · cases h

/-- A whole text is read if nothing but blanks is left. -/
theorem run_whole_iff {r : Reader α} {a : α} :
    Reader.run (do let a ← r; atEnd; return a) s = .ok a ↔
      ∃ rest s', r s = .ok (a, rest) ∧ atEnd rest = .ok ((), s') := by
  constructor
  · intro h
    unfold Reader.run at h
    split at h
    · rename_i heq
      cases h
      obtain ⟨b, rest, hread, heq⟩ := of_bind_ok heq
      obtain ⟨_, s', hend, heq⟩ := of_bind_ok heq
      cases heq
      exact ⟨rest, _, hread, hend⟩
    · cases h
    · cases h
  · rintro ⟨rest, s', hread, hend⟩
    rw [Reader.run, bind_of_ok hread, bind_of_ok hend]
    rfl

theorem mem_insert {name : String} {a : α} {acc : List (String × α)} {m : String × α}
    (h : m ∈ insert name a acc) : m = (name, a) ∨ m ∈ acc := by
  induction acc with
  | nil => exact .inl (List.mem_singleton.mp h)
  | cons m' acc ih =>
    unfold insert at h
    grind

end Reading

/-- What a reader may return that allows `nesting` levels. -/
structure Readable (nesting : Nat) (v : Json) : Prop where
  depth_le : v.depth ≤ nesting
  held : Held v

theorem readable_arr {nesting : Nat} {vs : List Json} (h : ∀ v ∈ vs, Readable nesting v) :
    Readable (nesting + 1) (.arr vs) :=
  ⟨depth_arr_le_succ_iff.mp fun v hv => (h v hv).depth_le, .arr fun v hv => (h v hv).held⟩

theorem readable_obj {nesting : Nat} {ms : List (String × Json)}
    (h : ∀ m ∈ ms, Readable nesting m.2) : Readable (nesting + 1) (.obj ms) :=
  ⟨depth_obj_le_succ_iff.mp fun m hm => (h m hm).depth_le, .obj fun m hm => (h m hm).held⟩

/-! ## Induction over what is read -/

/-- A name keeps its place in the order of names. -/
theorem sortedNames_insert {α : Type} {name : String} {a : α} {acc : List (String × α)}
    (h : SortedNames acc) : SortedNames (insert name a acc) := by
  induction acc with
  | nil => exact List.pairwise_singleton _ _
  | cons m acc ih =>
    obtain ⟨n, b⟩ := m
    rw [SortedNames, List.map_cons, List.pairwise_cons] at h
    obtain ⟨hfirst, hacc⟩ := h
    unfold insert
    split
    · rename_i hlt
      refine List.pairwise_cons.mpr ⟨fun x hx => ?_, List.pairwise_cons.mpr ⟨hfirst, hacc⟩⟩
      rcases List.mem_cons.mp hx with rfl | hx
      · exact hlt
      · exact lt_trans hlt (hfirst x hx)
    · rename_i hnlt
      split
      · rename_i heq
        subst heq
        exact List.pairwise_cons.mpr ⟨hfirst, hacc⟩
      · rename_i hne
        have hlt : n < name := lt_of_le_of_ne (not_lt.mp hnlt) (Ne.symm hne)
        refine List.pairwise_cons.mpr ⟨fun x hx => ?_, ih hacc⟩
        obtain ⟨m, hm, rfl⟩ := List.mem_map.mp hx
        rcases mem_insert hm with rfl | hm
        · exact hlt
        · exact hfirst _ (List.mem_map_of_mem hm)

section Induction

variable {P : Nat → Json → Prop} (null : ∀ n, P n .null) (bool : ∀ n b, P n (.bool b))
  (num : ∀ n x, x.Held → P n (.num x)) (str : ∀ n s, P n (.str s))

include null bool num str

theorem of_node {list object : Reader Json} {nesting : Nat} {s rest : List UInt8} {v : Json}
    (hlist : ∀ s rest, list s = .ok (v, rest) → P nesting v)
    (hobject : ∀ s rest, object s = .ok (v, rest) → P nesting v)
    (h : node list object s = .ok (v, rest)) : P nesting v := by
  unfold node at h
  obtain ⟨head, s₁, -, h⟩ := of_bind_ok h
  cases head with
  | null =>
    obtain ⟨_, _, -, h⟩ := of_bind_ok h
    cases h
    exact null _
  | true =>
    obtain ⟨_, _, -, h⟩ := of_bind_ok h
    cases h
    exact bool _ _
  | false =>
    obtain ⟨_, _, -, h⟩ := of_bind_ok h
    cases h
    exact bool _ _
  | minus =>
    obtain ⟨n, _, hn, h⟩ := of_bind_ok h
    cases h
    exact num _ _ (held_of_number hn)
  | digit =>
    obtain ⟨n, _, hn, h⟩ := of_bind_ok h
    cases h
    exact num _ _ (held_of_number hn)
  | quote =>
    obtain ⟨_, _, -, h⟩ := of_bind_ok h
    cases h
    exact str _ _
  | bracket => exact hlist _ _ h
  | brace => exact hobject _ _ h
  | other => cases h

/-- What holds of scalars anywhere, of an array of what is read one level below, and of an object of
the same with its members in order, holds of whatever is read. -/
theorem value_induction (arr : ∀ n vs, (∀ v ∈ vs, P n v) → P (n + 1) (.arr vs))
    (obj : ∀ n ms, SortedNames ms → (∀ m ∈ ms, P n m.2) → P (n + 1) (.obj ms))
    {nesting : Nat} {s rest : List UInt8} {v : Json} (h : value nesting s = .ok (v, rest)) :
    P nesting v := by
  induction nesting generalizing s rest v with
  | zero => exact of_node null bool num str (fun _ _ h => by cases h) (fun _ _ h => by cases h) h
  | succ nesting ih =>
    refine of_node null bool num str (fun s rest h => ?_) (fun s rest h => ?_) h
    · obtain ⟨_, h, -⟩ := of_enclosed h
      obtain ⟨vs, _, hvs, h⟩ := of_bind_ok h
      cases h
      exact arr nesting vs (forall_of_itemsUpTo (fun _ _ _ h => ih h) hvs)
    · obtain ⟨_, h, -⟩ := of_enclosed h
      obtain ⟨ms, _, hms, h⟩ := of_bind_ok h
      cases h
      have hread : SortedNames ms ∧ ∀ m ∈ ms, P nesting m.2 := by
        refine invariant_of_membersUpTo (I := fun acc => SortedNames acc ∧ ∀ m ∈ acc, P nesting m.2)
          (fun acc name s acc' s' hacc h => ?_) ⟨by simp [SortedNames], by simp⟩ hms
        unfold anyMember at h
        obtain ⟨_, _, -, h⟩ := of_bind_ok h
        obtain ⟨v, _, hv, h⟩ := of_bind_ok h
        cases h
        refine ⟨sortedNames_insert hacc.1, fun m hm => ?_⟩
        rcases mem_insert hm with rfl | hm
        · exact ih hv
        · exact hacc.2 m hm
      exact obj nesting ms hread.1 hread.2

end Induction

/-- **Whatever is read can be written.** -/
theorem readable_of_value {nesting : Nat} {s rest : List UInt8} {v : Json}
    (h : value nesting s = .ok (v, rest)) : Readable nesting v := by
  refine value_induction (P := Readable) ?null ?bool ?num ?str ?arr ?obj h
  case null => exact fun n => ⟨Nat.zero_le _, .null⟩
  case bool => exact fun n b => ⟨Nat.zero_le _, .bool b⟩
  case num => exact fun n x hx => ⟨Nat.zero_le _, .num hx⟩
  case str => exact fun n s => ⟨Nat.zero_le _, .str s⟩
  case arr => exact fun n vs hvs => readable_arr hvs
  case obj => exact fun n ms _ hms => readable_obj hms

/-- Whatever is read has its members in order. -/
theorem ordered_of_value {nesting : Nat} {s rest : List UInt8} {v : Json}
    (h : value nesting s = .ok (v, rest)) : Ordered v := by
  refine value_induction (P := fun _ => Ordered) ?null ?bool ?num ?str ?arr ?obj h
  case null => exact fun n => .null
  case bool => exact fun n b => .bool b
  case num => exact fun n x _ => .num x
  case str => exact fun n s => .str s
  case arr => exact fun n vs hvs => .arr hvs
  case obj => exact fun n ms hnames hms => .obj hnames hms

theorem exists_value_of_read {text : List UInt8} {v : Json} (h : read text = .ok v) :
    ∃ rest, value maxNesting text = .ok (v, rest) := by
  obtain ⟨rest, _, hvalue, -⟩ := run_whole_iff.mp h
  exact ⟨rest, hvalue⟩

theorem readable_of_read {text : List UInt8} {v : Json} (h : read text = .ok v) :
    Readable maxNesting v := by
  obtain ⟨_, hread⟩ := exists_value_of_read h
  exact readable_of_value hread

theorem ordered_of_read {text : List UInt8} {v : Json} (h : read text = .ok v) : Ordered v := by
  obtain ⟨_, hread⟩ := exists_value_of_read h
  exact ordered_of_value hread

end Workbench.Json
