import Mathlib.Data.List.Induction
import Workbench.Json.Value
import Workbench.Proofs.Json.Numeral

/-!
# What values come back as

A written value is read back up to two things: a float can come back as its neighbour, and the
members of an object come back sorted by name, of equal names the last. `reread` is the value that
comes back.

* `inductionOn`: induction over arrays and objects through the membership in them.
* `foldl_insert_eq_self`: an association list that is sorted is put together from its own entries.
* `reread_eq_self`: values without floats come back as they are if their members are in order.
* `depth_arr_le_succ_iff`, `depth_obj_le_succ_iff`: an array or object is nested one level more
  deeply than what it holds.
-/
namespace Workbench.Json

@[elab_as_elim]
theorem inductionOn {P : Json → Prop} (v : Json) (null : P .null) (bool : ∀ b, P (.bool b))
    (num : ∀ n, P (.num n)) (str : ∀ s, P (.str s))
    (arr : ∀ vs, (∀ v ∈ vs, P v) → P (.arr vs))
    (obj : ∀ ms, (∀ m ∈ ms, P m.2) → P (.obj ms)) : P v :=
  go v
where
  go : ∀ v, P v
    | .null => null
    | .bool b => bool b
    | .num n => num n
    | .str s => str s
    | .arr vs => arr vs (items vs)
    | .obj ms => obj ms (members ms)
  items : ∀ vs : List Json, ∀ v ∈ vs, P v
    | [] => fun _ h => nomatch h
    | v :: vs => List.forall_mem_cons.mpr ⟨go v, items vs⟩
  members : ∀ ms : List (String × Json), ∀ m ∈ ms, P m.2
    | [] => fun _ h => nomatch h
    | (_, v) :: ms => List.forall_mem_cons.mpr ⟨go v, members ms⟩

/-! ## Association lists -/

/-- The names of an association list are sorted, each of them is there once. -/
def SortedNames {α : Type} (ms : List (String × α)) : Prop := (ms.map Prod.fst).Pairwise (· < ·)

instance {α : Type} (ms : List (String × α)) : Decidable (SortedNames ms) :=
  inferInstanceAs (Decidable (List.Pairwise _ _))

theorem insert_concat {α : Type} {name : String} {acc : List (String × α)} (a : α)
    (h : ∀ m ∈ acc, m.1 < name) : insert name a acc = acc ++ [(name, a)] := by
  induction acc with
  | nil => rfl
  | cons m acc ih =>
    obtain ⟨hm, hacc⟩ := List.forall_mem_cons.mp h
    have hne : name ≠ m.1 := fun heq => String.lt_irrefl _ (heq ▸ hm)
    rw [insert, if_neg (String.lt_asymm hm), if_neg hne, ih hacc, List.cons_append]

/-- A sorted list is what its own entries are put together to. -/
theorem foldl_insert_eq_self {α : Type} {ms : List (String × α)} (h : SortedNames ms) :
    ms.foldl (fun acc m => insert m.1 m.2 acc) [] = ms := by
  induction ms using List.reverseRecOn with
  | nil => rfl
  | append_singleton ms m ih =>
    rw [SortedNames, List.map_append, List.pairwise_append] at h
    obtain ⟨hms, -, hlast⟩ := h
    rw [List.foldl_append, ih hms]
    refine insert_concat m.2 fun m' hm' => ?_
    exact hlast m'.1 (List.mem_map_of_mem hm') m.1 (List.mem_singleton_self _)

/-! ## What is held and what comes back -/

/-- All numbers of a value are such as can be held. -/
inductive Held : Json → Prop
  | null : Held .null
  | bool (b : Bool) : Held (.bool b)
  | num {n : Number} (h : n.Held) : Held (.num n)
  | str (s : String) : Held (.str s)
  | arr {vs : List Json} (h : ∀ v ∈ vs, Held v) : Held (.arr vs)
  | obj {ms : List (String × Json)} (h : ∀ m ∈ ms, Held m.2) : Held (.obj ms)

@[simp] theorem held_null : Held .null := .null

@[simp] theorem held_str (s : String) : Held (.str s) := .str s

@[simp] theorem held_arr_iff {vs : List Json} : Held (.arr vs) ↔ ∀ v ∈ vs, Held v :=
  ⟨fun | .arr h => h, .arr⟩

@[simp] theorem held_obj_iff {ms : List (String × Json)} : Held (.obj ms) ↔ ∀ m ∈ ms, Held m.2 :=
  ⟨fun | .obj h => h, .obj⟩

mutual

/-- The value as which a value is read after it has been written. -/
def reread : Json → Json
  | .num n => .num n.reread
  | .arr items => .arr (rereadItems items)
  | .obj members => .obj (rereadMembers [] members)
  | v => v

def rereadItems : List Json → List Json
  | [] => []
  | v :: rest => reread v :: rereadItems rest

def rereadMembers (acc : List (String × Json)) : List (String × Json) → List (String × Json)
  | [] => acc
  | (n, v) :: rest => rereadMembers (insert n (reread v) acc) rest

end

theorem rereadItems_eq_map (vs : List Json) : rereadItems vs = vs.map reread := by
  induction vs with
  | nil => rfl
  | cons v vs ih => rw [rereadItems, ih, List.map_cons]

theorem rereadMembers_eq_foldl (acc ms : List (String × Json)) :
    rereadMembers acc ms = ms.foldl (fun acc m => insert m.1 m.2.reread acc) acc := by
  induction ms generalizing acc with
  | nil => rfl
  | cons m ms ih => rw [rereadMembers, ih, List.foldl_cons]

/-- A member with the value as which its value is read again. -/
def rereadMember (m : String × Json) : String × Json := (m.1, m.2.reread)

/-- Members in order stay in order. -/
theorem rereadMembers_of_sorted {ms : List (String × Json)} (h : SortedNames ms) :
    rereadMembers [] ms = ms.map rereadMember := by
  have hsorted : SortedNames (ms.map rereadMember) := by
    rw [SortedNames, List.map_map]
    exact h
  rw [rereadMembers_eq_foldl, ← foldl_insert_eq_self hsorted, List.foldl_map]
  rfl

/-! ## Values that come back as they are -/

/-- The members of every object are sorted by name, as they are in all values that are read. -/
inductive Ordered : Json → Prop
  | null : Ordered .null
  | bool (b : Bool) : Ordered (.bool b)
  | num (n : Number) : Ordered (.num n)
  | str (s : String) : Ordered (.str s)
  | arr {vs : List Json} (h : ∀ v ∈ vs, Ordered v) : Ordered (.arr vs)
  | obj {ms : List (String × Json)} (hnames : SortedNames ms) (h : ∀ m ∈ ms, Ordered m.2) :
      Ordered (.obj ms)

/-- All numbers are integers that can be held. -/
inductive Integral : Json → Prop
  | null : Integral .null
  | bool (b : Bool) : Integral (.bool b)
  | int {n : Int} (h : Number.Whole n) : Integral (.num (.int n))
  | str (s : String) : Integral (.str s)
  | arr {vs : List Json} (h : ∀ v ∈ vs, Integral v) : Integral (.arr vs)
  | obj {ms : List (String × Json)} (h : ∀ m ∈ ms, Integral m.2) : Integral (.obj ms)

theorem Integral.held {v : Json} (h : Integral v) : Held v := by
  induction h with
  | null => exact .null
  | bool b => exact .bool b
  | int hn => exact .num hn
  | str s => exact .str s
  | arr _ ih => exact .arr ih
  | obj _ ih => exact .obj ih

/-- Without floats, and with the members in order, nothing changes. -/
theorem reread_eq_self {v : Json} (ho : Ordered v) (hi : Integral v) : v.reread = v := by
  induction v using Json.inductionOn with
  | null => rfl
  | bool b => rfl
  | num n =>
    cases hi
    rfl
  | str s => rfl
  | arr vs ih =>
    cases ho with
    | arr ho =>
    cases hi with
    | arr hi =>
    have hsame : ∀ v ∈ vs, v.reread = id v := fun v hv => ih v hv (ho v hv) (hi v hv)
    rw [reread, rereadItems_eq_map, List.map_congr_left hsame, List.map_id]
  | obj ms ih =>
    cases ho with
    | obj hnames ho =>
    cases hi with
    | obj hi =>
    have hsame : ∀ m ∈ ms, rereadMember m = id m := fun m hm => by
      rw [rereadMember, ih m hm (ho m hm) (hi m hm), id]
    rw [reread, rereadMembers_of_sorted hnames, List.map_congr_left hsame, List.map_id]

/-! ## Depths -/

theorem depthItems_le_iff {vs : List Json} {n : Nat} :
    depthItems vs ≤ n ↔ ∀ v ∈ vs, v.depth ≤ n := by
  induction vs with
  | nil => simp [depthItems]
  | cons v vs ih => rw [depthItems, max_le_iff, ih, List.forall_mem_cons]

theorem depthMembers_le_iff {ms : List (String × Json)} {n : Nat} :
    depthMembers ms ≤ n ↔ ∀ m ∈ ms, m.2.depth ≤ n := by
  induction ms with
  | nil => simp [depthMembers]
  | cons m ms ih => rw [depthMembers, max_le_iff, ih, List.forall_mem_cons]

theorem depth_arr_le_succ_iff {vs : List Json} {n : Nat} :
    (∀ v ∈ vs, v.depth ≤ n) ↔ (arr vs).depth ≤ n + 1 := by
  rw [depth, ← depthItems_le_iff]
  omega

theorem depth_obj_le_succ_iff {ms : List (String × Json)} {n : Nat} :
    (∀ m ∈ ms, m.2.depth ≤ n) ↔ (obj ms).depth ≤ n + 1 := by
  rw [depth, ← depthMembers_le_iff]
  omega

end Workbench.Json
