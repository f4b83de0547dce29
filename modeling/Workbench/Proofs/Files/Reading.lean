import Workbench.Proofs.Files.Download

/-!
# Reading what was saved

A file that has been saved can be read at the path that saving answered. It can be read there for
good as long as nothing is saved under the same name, in whatever directory: neither making
directories nor writing a file closes the way to another file (`Keeps`).

* `Keeps.walk_eq_ok`: a way that led somewhere still leads there;
* `read_eq_ok_iff`: what it takes to read a file;
* `read_of_save`: a file that was saved can be read;
* `read_save_of_ne`: so can, unchanged, every file with another name that could be read before.
-/
namespace Workbench.Files

namespace Tree

variable {t t' t'' : Tree} {names : List String} {contents : List UInt8} {path : String}

/-- All that `t` has is in `t'` as well, and its directories are directories there. -/
structure Keeps (t t' : Tree) : Prop where
  isDirectoryAt {names : List String} :
    t.isDirectoryAt (.inside names) = true → t'.isDirectoryAt (.inside names) = true
  isSome {names : List String} : (t.entry? names).isSome = true → (t'.entry? names).isSome = true

theorem isDirectoryAt_inside_iff :
    t.isDirectoryAt (.inside names) = true ↔ t.entry? names = some .directory := by
  rw [isDirectoryAt, beq_iff_eq]

theorem Keeps.trans (h : t.Keeps t') (h' : t'.Keeps t'') : t.Keeps t'' :=
  ⟨h'.isDirectoryAt ∘ h.isDirectoryAt, h'.isSome ∘ h.isSome⟩

theorem Grows.keeps (h : t.Grows t') : t.Keeps t' := by
  refine ⟨fun {names} hdir => ?_, fun {names} hsome => ?_⟩
  · rw [isDirectoryAt_inside_iff] at hdir ⊢
    rcases h names with heq | ⟨-, hnew⟩
    · exact heq.trans hdir
    · exact hnew
  · rcases h names with heq | ⟨-, hnew⟩
    · rwa [heq]
    · rw [hnew]
      rfl

/-- Writing takes the place of a file at most. -/
theorem Writes.keeps {dir : List String} {name : String}
    (h : t.Writes path dir name contents t') : t.Keeps t' := by
  obtain rfl := h.eq_put
  refine ⟨fun {names} hdir => ?_, fun {names} hsome => ?_⟩
  · have hne : names ≠ dir ++ [name] := by
      rintro rfl
      rw [h.noDirectory] at hdir
      cases hdir
    rw [isDirectoryAt_inside_iff] at hdir ⊢
    rwa [entry?_put_of_ne t hne]
  · by_cases heq : names = dir ++ [name]
    · rw [heq, entry?_put_self t (by simp)]
      rfl
    · rwa [entry?_put_of_ne t heq]

/-! ## Ways -/

theorem Keeps.step_eq_ok (h : t.Keeps t') {s s' : Spot} {name : String}
    (hstep : t.step s name = .ok s') : t'.step s name = .ok s' := by
  cases s with
  | outside => exact hstep
  | inside names =>
    have hdir : t.isDirectoryAt (.inside names) = true →
        t'.isDirectoryAt (.inside names) = true := h.isDirectoryAt
    have hsome : (t.entry? (names ++ [name])).isSome = true →
        (t'.entry? (names ++ [name])).isSome = true := h.isSome
    unfold step at hstep ⊢
    grind

theorem Keeps.walk_eq_ok (h : t.Keeps t') {absolute : Bool} {s : Spot}
    (hwalk : t.walk absolute names = .ok s) : t'.walk absolute names = .ok s := by
  unfold walk at hwalk ⊢
  generalize (if absolute then Spot.outside else Spot.inside []) = start at hwalk ⊢
  induction names generalizing start with
  | nil => exact hwalk
  | cons name names ih =>
    rw [List.foldlM_cons] at hwalk ⊢
    obtain ⟨next, hstep, hrest⟩ := bind_eq_ok_iff.1 hwalk
    exact bind_eq_ok_iff.2 ⟨next, h.step_eq_ok hstep, ih next hrest⟩

theorem walk_concat_eq_ok_iff {absolute : Bool} {name : String} {s : Spot} :
    t.walk absolute (names ++ [name]) = .ok s ↔
      ∃ dir, t.walk absolute names = .ok dir ∧ t.step dir name = .ok s := by
  rw [walk, List.foldlM_append, bind_eq_ok_iff]
  simp only [List.foldlM_cons, List.foldlM_nil, bind_pure]
  rfl

/-! ## Reading -/

theorem locate_eq_ok_iff {p : Path} {s : Spot} : t.locate p = .ok s ↔
    t.walk p.absolute p.names = .ok s ∧ (p.trailing = true → t.isDirectoryAt s = true) := by
  unfold locate
  rw [bind_eq_ok_iff]
  constructor
  · rintro ⟨s', hwalk, h⟩
    split at h
    · cases h
    · rename_i hrest
      cases h
      exact ⟨hwalk, fun htrailing => Decidable.not_not.1 fun hdir => hrest ⟨htrailing, hdir⟩⟩
  · rintro ⟨hwalk, hdir⟩
    refine ⟨s, hwalk, ?_⟩
    rw [if_neg fun hrest => hrest.2 (hdir hrest.1)]
    rfl

/-- A path without a slash at its end that leads to a file, and to no directory. -/
theorem read_eq_ok_iff : t.read path = .ok contents ↔
    pathOf path = .ok (Path.parse path) ∧ (Path.parse path).trailing = false ∧
      ∃ names, t.walk (Path.parse path).absolute (Path.parse path).names = .ok (.inside names) ∧
        t.entry? names = some (.file contents) := by
  unfold read
  constructor
  · intro h
    obtain ⟨p, hp, h⟩ := bind_eq_ok_iff.1 h
    obtain rfl := eq_parse_of_pathOf hp
    obtain ⟨s, hs, h⟩ := bind_eq_ok_iff.1 h
    obtain ⟨hwalk, hdir⟩ := locate_eq_ok_iff.1 hs
    split at h
    · cases h
    · rename_i names
      split at h
      · rename_i hfile
        cases h
        refine ⟨hp, ?_, names, hwalk, hfile⟩
        rw [isDirectoryAt_inside_iff, hfile] at hdir
        exact Bool.eq_false_iff.2 fun htrailing => by cases hdir htrailing
      · cases h
  · rintro ⟨hpath, htrailing, names, hwalk, hfile⟩
    have hlocate : t.locate (Path.parse path) = .ok (.inside names) :=
      locate_eq_ok_iff.2 ⟨hwalk, fun h => by rw [htrailing] at h; cases h⟩
    refine bind_eq_ok_iff.2 ⟨_, hpath, bind_eq_ok_iff.2 ⟨_, hlocate, ?_⟩⟩
    dsimp only
    rw [hfile]
    rfl

/-- A file can be read again as long as it is there, in a tree that keeps the way to it. -/
theorem Keeps.read_eq_ok (h : t.Keeps t') (hread : t.read path = .ok contents)
    (hfile : ∀ names,
      t.walk (Path.parse path).absolute (Path.parse path).names = .ok (.inside names) →
        t.entry? names = some (.file contents) → t'.entry? names = some (.file contents)) :
    t'.read path = .ok contents := by
  obtain ⟨hpath, htrailing, names, hwalk, hentry⟩ := read_eq_ok_iff.1 hread
  exact read_eq_ok_iff.2
    ⟨hpath, htrailing, names, h.walk_eq_ok hwalk, hfile names hwalk hentry⟩

theorem Grows.read_eq_ok (h : t.Grows t') (hread : t.read path = .ok contents) :
    t'.read path = .ok contents := by
  refine h.keeps.read_eq_ok hread fun names _ hentry => ?_
  rcases h names with heq | ⟨hnone, -⟩
  · exact heq.trans hentry
  · rw [hnone] at hentry
    cases hentry

/-- What has been written can be read. -/
theorem Writes.read_eq_ok {dir : List String} {name : String}
    (h : t.Writes path dir name contents t') (hname : (Path.parse path).names.getLast? = some name)
    (hdot : name ≠ ".") (hdots : name ≠ "..") : t'.read path = .ok contents := by
  have hentry : t'.entry? (dir ++ [name]) = some (.file contents) := by
    rw [h.eq_put]
    exact entry?_put_self t (by simp) _
  have hstep : t'.step (.inside dir) name = .ok (.inside (dir ++ [name])) :=
    (step_inside_eq_ok_iff hdot hdots).2
      ⟨rfl, ⟨h.keeps.isDirectoryAt h.admits.directory, h.admits.short⟩, by rw [hentry]; rfl⟩
  refine read_eq_ok_iff.2 ⟨h.pathOf_eq, h.trailing, dir ++ [name], ?_, hentry⟩
  obtain ⟨front, hfront⟩ := List.getLast?_eq_some_iff.1 hname
  have hwalk := h.keeps.walk_eq_ok h.walk_eq
  rw [hfront, List.dropLast_concat] at hwalk
  rw [hfront]
  exact walk_concat_eq_ok_iff.2 ⟨_, hwalk, hstep⟩

end Tree

/-! ## Saving -/

variable {dir dir' file file' : String} {contents contents' : List UInt8} {t : Tree}

theorem getLast?_joinPath (h : IsName file) (dir : String) :
    (Path.parse (joinPath dir file)).names.getLast? = some file := by
  rw [(parse_joinPath h dir).1, List.getLast?_concat]

/-- A file that was saved can be read at the path that was answered. -/
theorem read_of_save {path : String} (h : IsName file)
    (hok : ((save dir file contents).transcript Tree.peer t).1 = .ok path) :
    path = joinPath dir file ∧
      ((save dir file contents).transcript Tree.peer t).2.2.read path = .ok contents := by
  rcases save_cases h dir contents t with ⟨e, he, -⟩ | ⟨hpath, made, names, -, -, hwrites⟩
  · rw [he] at hok
    cases hok
  · obtain rfl := Except.ok.inj (hpath.symm.trans hok)
    exact ⟨rfl, hwrites.read_eq_ok (getLast?_joinPath h dir) h.ne_dot h.ne_dots⟩

/-- Where a path with a plain name at its end leads inside the tree, the name is that of the
entry. -/
theorem eq_concat_of_walk_joinPath (h : IsName file) {names : List String}
    (hwalk : t.walk (Path.parse (joinPath dir file)).absolute
      (Path.parse (joinPath dir file)).names = .ok (.inside names)) :
    ∃ front, names = front ++ [file] := by
  rw [(parse_joinPath h dir).1, Tree.walk_concat_eq_ok_iff] at hwalk
  obtain ⟨s, -, hstep⟩ := hwalk
  cases s with
  | outside => exact absurd hstep (Tree.step_outside_ne_ok h.ne_dot h.ne_dots)
  | inside front =>
    exact ⟨front, Spot.inside.inj ((Tree.step_inside_eq_ok_iff h.ne_dot h.ne_dots).1 hstep).1⟩

/-- Saving a file leaves every file with another name as it is, in this directory and in others. -/
theorem read_save_of_ne (h : IsName file) (h' : IsName file') (hne : file ≠ file')
    (hread : t.read (joinPath dir file) = .ok contents) :
    ((save dir' file' contents').transcript Tree.peer t).2.2.read (joinPath dir file) =
      .ok contents := by
  rcases save_cases h' dir' contents' t with ⟨e, -, hgrows⟩ |
    ⟨-, made, names', hgrows, -, hwrites⟩
  · exact hgrows.read_eq_ok hread
  · refine hwrites.keeps.read_eq_ok (hgrows.read_eq_ok hread) fun names hwalk hentry => ?_
    obtain ⟨front, rfl⟩ := eq_concat_of_walk_joinPath h hwalk
    have hother : front ++ [file] ≠ names' ++ [file'] := fun heq =>
      hne (List.append_singleton_inj.1 heq).2
    rw [hwrites.eq_put, Tree.entry?_put_of_ne made hother, hentry]

end Workbench.Files
