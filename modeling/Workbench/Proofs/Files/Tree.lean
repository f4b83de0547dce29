import Workbench.Files.Tree
import Workbench.Proofs.Common

/-!
# What changes in a tree of files

An entry is put under its names and nowhere else. Making directories keeps every entry and adds
nothing but directories. Writing a file under a plain name changes one entry: the one of this name
in the directory to which the rest of the path leads.

* `entry?_put_self`, `entry?_put_of_ne`: what is found after an entry has been put;
* `makeDirectories_grows`: the tree after directories have been made;
* `exists_writes`: what it takes to write a file, and the tree after it.
-/
namespace Workbench.Files.Tree

variable {t t' t'' : Tree} {names other : List String} {e : Entry} {p : Path}

/-! ## One entry -/

/-- The entries of a tree in which something stands under `names` already. -/
def replaced (names : List String) (e : Entry) (entries : List (List String × Entry)) :
    List (List String × Entry) :=
  entries.map fun (n, old) => if n = names then (n, e) else (n, old)

theorem lookup_replaced_self {entries : List (List String × Entry)}
    (h : entries.any (·.1 == names) = true) : (replaced names e entries).lookup names = some e := by
  induction entries with
  | nil => cases h
  | cons m entries ih =>
    rw [replaced, List.map_cons, lookup_cons_ite]
    by_cases hm : m.1 = names
    · simp [hm]
    · have hrest : entries.any (·.1 == names) = true := by simpa [hm] using h
      simp only [hm, if_false, Ne.symm hm]
      exact ih hrest

theorem lookup_replaced_of_ne (h : other ≠ names) (entries : List (List String × Entry)) :
    (replaced names e entries).lookup other = entries.lookup other := by
  induction entries with
  | nil => rfl
  | cons m entries ih =>
    rw [replaced, List.map_cons, lookup_cons_ite, lookup_cons_ite m]
    by_cases hm : m.1 = names
    · have hother : other ≠ m.1 := hm ▸ h
      simp only [hm, if_true, h, if_false]
      exact ih
    · simp only [hm, if_false]
      rw [← replaced, ih]

theorem entries_put (t : Tree) (names : List String) (e : Entry) : (t.put names e).entries =
    if t.entries.any (·.1 == names) then replaced names e t.entries
    else t.entries ++ [(names, e)] := rfl

theorem entry?_put_self (t : Tree) (hne : names ≠ []) (e : Entry) :
    Tree.entry? (t.put names e) names = some e := by
  unfold entry?
  rw [if_neg hne, entries_put]
  split
  · rename_i hany
    exact lookup_replaced_self hany
  · rename_i hany
    have hnone : t.entries.lookup names = none := lookup_eq_none_of_not_mem fun hmem => by
      obtain ⟨m, hm, heq⟩ := List.mem_map.1 hmem
      exact hany (List.any_eq_true.2 ⟨m, hm, beq_iff_eq.2 heq⟩)
    rw [List.lookup_append, hnone, lookup_cons_ite, if_pos rfl, Option.none_or]

theorem entry?_put_of_ne (t : Tree) (h : other ≠ names) (e : Entry) :
    Tree.entry? (t.put names e) other = t.entry? other := by
  unfold entry?
  rw [entries_put]
  split
  · rfl
  · split
    · exact lookup_replaced_of_ne h t.entries
    · simp [List.lookup_append, lookup_cons_ite, h]

/-! ## Where an entry goes -/

/-- There is a directory at `dir`, and `name` is not too long for an entry in it. -/
structure Admits (t : Tree) (dir : List String) (name : String) : Prop where
  directory : t.isDirectoryAt (.inside dir) = true
  short : name.utf8ByteSize ≤ maxNameLength

theorem of_step_notFound {dir : List String} {name : String}
    (h : t.step (.inside dir) name = .error .notFound) :
    t.entry? (dir ++ [name]) = none ∧ t.Admits dir name := by
  unfold step at h
  refine ⟨?_, ?_, ?_⟩ <;> grind

/-- A name that stands for nothing but itself leads to the entry of this name. -/
theorem step_inside_eq_ok_iff {dir : List String} {name : String} {s : Spot} (hdot : name ≠ ".")
    (hdots : name ≠ "..") : t.step (.inside dir) name = .ok s ↔
      s = .inside (dir ++ [name]) ∧ t.Admits dir name ∧ (t.entry? (dir ++ [name])).isSome := by
  unfold step
  constructor
  · intro h
    refine ⟨?_, ⟨?_, ?_⟩, ?_⟩ <;> grind
  · rintro ⟨rfl, hadmits, hsome⟩
    have := hadmits.directory
    have := hadmits.short
    grind

/-- Outside, a name leads nowhere but further up. -/
theorem step_outside_ne_ok {name : String} {s : Spot} (hdot : name ≠ ".") (hdots : name ≠ "..") :
    t.step .outside name ≠ .ok s := by
  unfold step
  grind

/-- The names of a place: those of a directory of the tree and one more. -/
theorem of_placeFor_free (h : t.placeFor p = .ok (.free names)) :
    t.entry? names = none ∧ ∃ dir name, names = dir ++ [name] ∧ t.Admits dir name ∧
      p.names.getLast? = some name ∧ t.walk p.absolute p.names.dropLast = .ok (.inside dir) := by
  unfold placeFor at h
  split at h
  · cases h
  · rename_i name hname
    obtain ⟨s, hwalk, h⟩ := bind_eq_ok_iff.1 h
    split at h
    · cases h
    · rename_i hstep
      cases s with
      | outside => cases h
      | inside dir =>
        cases h
        obtain ⟨hnone, hadmits⟩ := of_step_notFound hstep
        exact ⟨hnone, dir, name, rfl, hadmits, hname, hwalk⟩
    · cases h

/-- What is there already under a name that stands for nothing but itself. -/
theorem of_placeFor_taken {name : String} {s : Spot} (hname : p.names.getLast? = some name)
    (hdot : name ≠ ".") (hdots : name ≠ "..") (h : t.placeFor p = .ok (.taken s)) :
    ∃ dir, s = .inside (dir ++ [name]) ∧ t.Admits dir name ∧
      t.walk p.absolute p.names.dropLast = .ok (.inside dir) := by
  unfold placeFor at h
  rw [hname] at h
  obtain ⟨s', hwalk, h⟩ := bind_eq_ok_iff.1 h
  split at h
  · rename_i hstep
    cases h
    cases s' with
    | outside => exact absurd hstep (step_outside_ne_ok hdot hdots)
    | inside dir =>
      obtain ⟨rfl, hadmits, -⟩ := (step_inside_eq_ok_iff hdot hdots).1 hstep
      exact ⟨dir, rfl, hadmits, hwalk⟩
  · split at h <;> cases h
  · cases h

/-! ## Making directories -/

/-- `t'` has what `t` has, and perhaps more directories. -/
def Grows (t t' : Tree) : Prop :=
  ∀ names, t'.entry? names = t.entry? names ∨
    t.entry? names = none ∧ t'.entry? names = some .directory

theorem Grows.refl (t : Tree) : t.Grows t := fun _ => .inl rfl

theorem Grows.trans (h : t.Grows t') (h' : t'.Grows t'') : t.Grows t'' := by
  intro names
  rcases h names with heq | ⟨hnone, hdir⟩ <;> rcases h' names with heq' | ⟨hnone', hdir'⟩
  · exact .inl (heq'.trans heq)
  · exact .inr ⟨heq ▸ hnone', hdir'⟩
  · exact .inr ⟨hnone, heq'.trans hdir⟩
  · exact .inr ⟨hnone, hdir'⟩

theorem makeDirectory_grows (h : t.makeDirectory p = .ok t') : t.Grows t' := by
  obtain ⟨place, hplace, h⟩ := bind_eq_ok_iff.1 h
  cases place with
  | taken s => cases h
  | free names =>
    cases h
    obtain ⟨hnone, dir, name, rfl, -⟩ := of_placeFor_free hplace
    intro other
    by_cases hother : other = dir ++ [name]
    · subst hother
      exact .inr ⟨hnone, entry?_put_self t (by simp) _⟩
    · exact .inl (entry?_put_of_ne t hother _)

theorem ensureDirectory_grows (t : Tree) (p : Path) : t.Grows (t.ensureDirectory p).1 := by
  unfold ensureDirectory
  split
  · rename_i t' hmake
    exact makeDirectory_grows hmake
  · split <;> exact .refl t

theorem ensurePath_grows (t : Tree) (p : Path) : t.Grows (t.ensurePath p).1 := by
  fun_induction ensurePath t p with
  | case1 => exact .refl _
  | case2 => exact .refl _
  | case3 p hne hmake q hq t' hok ih => exact (hok ▸ ih).trans (ensureDirectory_grows _ _)
  | case4 => assumption
  | case5 => exact ensureDirectory_grows _ _

theorem makeDirectories_grows (t : Tree) (path : String) : t.Grows (t.makeDirectories path).1 := by
  unfold makeDirectories
  split
  · exact .refl t
  · split
    · exact .refl t
    · exact ensurePath_grows t _

/-! ## Writing files -/

theorem eq_parse_of_pathOf {path : String} (h : pathOf path = .ok p) : p = Path.parse path := by
  unfold pathOf at h
  grind

/-- What it takes to write a file under a name in the directory `dir`, and what comes of it. -/
structure Writes (t : Tree) (path : String) (dir : List String) (name : String)
    (contents : List UInt8) (t' : Tree) : Prop where
  pathOf_eq : pathOf path = .ok (Path.parse path)
  trailing : (Path.parse path).trailing = false
  walk_eq : t.walk (Path.parse path).absolute (Path.parse path).names.dropLast = .ok (.inside dir)
  admits : t.Admits dir name
  /-- No directory makes room for a file. -/
  noDirectory : t.isDirectoryAt (.inside (dir ++ [name])) = false
  eq_put : t' = t.put (dir ++ [name]) (.file contents)

/-- A file goes under its name in the directory to which the names before it lead. -/
theorem exists_writes {path name : String} {contents : List UInt8}
    (hname : (Path.parse path).names.getLast? = some name) (hdot : name ≠ ".") (hdots : name ≠ "..")
    (h : t.write path contents = .ok t') : ∃ dir, Writes t path dir name contents t' := by
  obtain ⟨p, hp, h⟩ := bind_eq_ok_iff.1 h
  obtain rfl := eq_parse_of_pathOf hp
  split at h
  · obtain ⟨dir, -, h⟩ := bind_eq_ok_iff.1 h
    cases h
  · rename_i htrailing
    rw [Bool.not_eq_true] at htrailing
    obtain ⟨place, hplace, h⟩ := bind_eq_ok_iff.1 h
    cases place with
    | free names =>
      cases h
      obtain ⟨hnone, dir, name', rfl, hadmits, hname', hwalk⟩ := of_placeFor_free hplace
      obtain rfl := Option.some.inj (hname.symm.trans hname')
      have hfree : t.isDirectoryAt (.inside (dir ++ [name])) = false := by
        rw [isDirectoryAt, hnone]
        rfl
      exact ⟨dir, hp, htrailing, hwalk, hadmits, hfree, rfl⟩
    | taken s =>
      obtain ⟨dir, rfl, hadmits, hwalk⟩ := of_placeFor_taken hname hdot hdots hplace
      dsimp only at h
      split at h
      · cases h
      · rename_i hfile
        cases h
        exact ⟨dir, hp, htrailing, hwalk, hadmits, Bool.not_eq_true _ ▸ hfile, rfl⟩

end Workbench.Files.Tree
