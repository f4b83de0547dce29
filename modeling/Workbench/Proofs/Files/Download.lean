import Workbench.Proofs.Dialogue
import Workbench.Proofs.Files.Tree
import Workbench.Proofs.Text.Split
import Workbench.Workflow

/-!
# Where a download lands

The file of an exported workflow is named after the workflow and its id. The name is reduced to
letters, digits, dashes and underscores. The id is not: it stands in the file name as the backend has
sent it, slashes included.

* `safeName_plain`: whatever a workflow is called, its name does not lead anywhere;
* `parse_joinPath`: a name without slashes is one more name behind those of its directory;
* `save_savedIn`: a file with such a name is saved directly in its directory, or not at all;
* `fileName_confined`: the file of a workflow stays where it belongs exactly if its id has no
  slashes;
* `fileName_escapes`: an id that leads out of the directory.
-/
namespace Workbench

/-! ## Names in a directory -/

namespace Files

/-- A path that is a single name, and the name is that of an entry. -/
structure IsName (file : String) : Prop where
  parse_eq : Path.parse file = ⟨false, [file], false⟩
  ne_dot : file ≠ "."
  ne_dots : file ≠ ".."

variable {dir file : String}

theorem startsWith_slash_iff {s : String} :
    s.startsWith "/" = true ↔ s.toList.head? = some '/' := by
  rw [String.startsWith_string_iff]
  exact List.singleton_prefix_iff_head?_eq_some

theorem endsWith_slash_iff {s : String} :
    s.endsWith "/" = true ↔ s.toList.getLast? = some '/' := by
  rw [String.endsWith_eq_endsWith_toSlice, String.Slice.endsWith_string_iff, String.copy_toSlice]
  exact List.singleton_suffix_iff_getLast?_eq_some

/-- The names that a path has as a list of characters. -/
def namesIn (cs : List Char) : List String :=
  ((Text.splitOn '/' cs).filter (· ≠ [])).map String.ofList

theorem names_parse (s : String) : (Path.parse s).names = namesIn s.toList := rfl

theorem namesIn_nil : namesIn [] = [] := rfl

theorem namesIn_append (cs ds : List Char) :
    namesIn (cs ++ '/' :: ds) = namesIn cs ++ namesIn ds := by
  rw [namesIn, Text.splitOn_append, List.filter_append, List.map_append]
  rfl

theorem namesIn_of_not_mem {cs : List Char} (hslash : '/' ∉ cs) (hne : cs ≠ []) :
    namesIn cs = [String.ofList cs] := by
  simp [namesIn, Text.splitOn_of_not_mem hslash, hne]

theorem toList_ne_nil {s : String} (h : s ≠ "") : s.toList ≠ [] :=
  fun hnil => h (String.toList_inj.1 hnil)

theorem isName_iff (hne : file ≠ "") (hdot : file ≠ ".") (hdots : file ≠ "..") :
    IsName file ↔ '/' ∉ file.toList := by
  constructor
  · intro h hslash
    have hnames : namesIn file.toList = [file] := congrArg Path.names h.parse_eq
    obtain ⟨part, hpart, hfile⟩ : ∃ part ∈ Text.splitOn '/' file.toList,
        String.ofList part = file := by
      have hmem : file ∈ namesIn file.toList := hnames ▸ List.mem_singleton_self file
      obtain ⟨part, hpart, hfile⟩ := List.mem_map.1 hmem
      exact ⟨part, (List.mem_filter.1 hpart).1, hfile⟩
    rw [← hfile, String.toList_ofList] at hslash hpart
    exact Text.not_mem_of_mem_splitOn hpart hslash
  · intro hslash
    refine ⟨?_, hdot, hdots⟩
    have hstart : file.startsWith "/" = false := by
      rw [← Bool.not_eq_true, startsWith_slash_iff]
      exact fun h => hslash (List.mem_of_head? h)
    have hend : file.endsWith "/" = false := by
      rw [← Bool.not_eq_true, endsWith_slash_iff]
      exact fun h => hslash (List.mem_of_getLast? h)
    have hnames := namesIn_of_not_mem hslash (toList_ne_nil hne)
    rw [String.ofList_toList] at hnames
    rw [Path.parse, hstart, hend]
    exact congrArg (Path.mk false · false) hnames

theorem startsWith_slash_append (hne : dir ≠ "") (rest : String) :
    (dir ++ rest).startsWith "/" = dir.startsWith "/" := by
  obtain ⟨c, cs, hcs⟩ := List.exists_cons_of_ne_nil (toList_ne_nil hne)
  rw [Bool.eq_iff_iff, startsWith_slash_iff, startsWith_slash_iff, String.toList_append, hcs]
  rfl

/-- A name is joined to a path as one more name. -/
theorem parse_joinPath (h : IsName file) (dir : String) :
    (Path.parse (joinPath dir file)).names = (Path.parse dir).names ++ [file] ∧
      (Path.parse (joinPath dir file)).absolute = (Path.parse dir).absolute := by
  have hnames : namesIn file.toList = [file] := congrArg Path.names h.parse_eq
  have hstart : file.startsWith "/" = false := congrArg Path.absolute h.parse_eq
  unfold joinPath
  split
  · rename_i hself
    obtain rfl : dir = "" := hself.resolve_left (by rw [hstart]; exact Bool.false_ne_true)
    have hempty : Path.parse "" = ⟨false, [], false⟩ := by decide +kernel
    rw [h.parse_eq, hempty]
    exact ⟨rfl, rfl⟩
  · rename_i hself
    have hne : dir ≠ "" := (not_or.1 hself).2
    rw [names_parse dir]
    split
    · rename_i hend
      obtain ⟨cs, hcs⟩ := List.getLast?_eq_some_iff.1 (endsWith_slash_iff.1 hend)
      refine ⟨?_, startsWith_slash_append hne file⟩
      rw [names_parse, String.toList_append, hcs, List.append_assoc, List.singleton_append,
        namesIn_append, namesIn_append, hnames, namesIn_nil, List.append_nil]
    · refine ⟨?_, ?_⟩
      · rw [names_parse, String.append_assoc, String.toList_append, String.toList_append]
        show namesIn (dir.toList ++ '/' :: file.toList) = _
        rw [namesIn_append, hnames]
      · rw [String.append_assoc]
        exact startsWith_slash_append hne _

/-! ## Saving -/

/-- What saving `contents` as `file` in `dir` comes to: the file stands directly in the directory to
which `dir` leads, and nothing else has changed but that directories were made; or no file has
changed at all. -/
inductive SavedIn (t : Tree) (dir file : String) (contents : List UInt8) :
    Except FileError String → Tree → Prop
  | refused {e : FileError} {t' : Tree} (hgrows : t.Grows t') : SavedIn t dir file contents (.error e) t'
  | saved {made t' : Tree} {names : List String} (hgrows : t.Grows made)
      (hdir : made.walk (Path.parse dir).absolute (Path.parse dir).names = .ok (.inside names))
      (hfile : t'.entry? (names ++ [file]) = some (.file contents))
      (hrest : ∀ other, other ≠ names ++ [file] → t'.entry? other = made.entry? other) :
      SavedIn t dir file contents (.ok (joinPath dir file)) t'

theorem exists_writes_joinPath {t t' : Tree} {contents : List UInt8} (h : IsName file)
    (hwrite : t.write (joinPath dir file) contents = .ok t') : ∃ names,
      t.walk (Path.parse dir).absolute (Path.parse dir).names = .ok (.inside names) ∧
        t.Writes (joinPath dir file) names file contents t' := by
  obtain ⟨hnames, habsolute⟩ := parse_joinPath h dir
  obtain ⟨names, hwrites⟩ :=
    Tree.exists_writes (by rw [hnames, List.getLast?_concat]) h.ne_dot h.ne_dots hwrite
  have hwalk := hwrites.walk_eq
  rw [hnames, habsolute, List.dropLast_concat] at hwalk
  exact ⟨names, hwalk, hwrites⟩

/-- Saving against a tree: first the directories are made, then the file is written. -/
theorem transcript_save (dir file : String) (contents : List UInt8) (t : Tree) :
    (save dir file contents).transcript Tree.peer t =
      match t.makeDirectories dir with
      | (made, .error e) => (.error e, [.makeDirectories dir], made)
      | (made, .ok ()) =>
        let calls := [.makeDirectories dir, .write (joinPath dir file) contents]
        match made.write (joinPath dir file) contents with
        | .error e => (.error e, calls, made)
        | .ok t' => (.ok (joinPath dir file), calls, t') := by
  cases hmade : t.makeDirectories dir with
  | mk made result =>
    cases result with
    | error e =>
      simp [save, makeDirectories, call, Dialogue.call, bind, Dialogue.bind, pure,
        Dialogue.transcript, Tree.peer, hmade]
    | ok u =>
      cases hwrite : made.write (joinPath dir file) contents <;>
        simp [save, makeDirectories, write, call, Dialogue.call, bind, Dialogue.bind, pure,
          Dialogue.transcript, Tree.peer, hmade, hwrite]

/-- Saving is refused, or it writes the file into the directory. In any case the directories that it
makes come first. -/
theorem save_cases (h : IsName file) (dir : String) (contents : List UInt8) (t : Tree) :
    (∃ e, ((save dir file contents).transcript Tree.peer t).1 = .error e ∧
        t.Grows ((save dir file contents).transcript Tree.peer t).2.2) ∨
      ((save dir file contents).transcript Tree.peer t).1 = .ok (joinPath dir file) ∧
        ∃ made names, t.Grows made ∧
          made.walk (Path.parse dir).absolute (Path.parse dir).names = .ok (.inside names) ∧
          made.Writes (joinPath dir file) names file contents
            ((save dir file contents).transcript Tree.peer t).2.2 := by
  have hgrows := t.makeDirectories_grows dir
  rw [transcript_save]
  cases hmade : t.makeDirectories dir with
  | mk made result =>
    rw [hmade] at hgrows
    cases result with
    | error e => exact .inl ⟨e, rfl, hgrows⟩
    | ok u =>
      dsimp only
      cases hwrite : made.write (joinPath dir file) contents with
      | error e => exact .inl ⟨e, rfl, hgrows⟩
      | ok t' =>
        obtain ⟨names, hdir, hwrites⟩ := exists_writes_joinPath h hwrite
        exact .inr ⟨rfl, made, names, hgrows, hdir, hwrites⟩

/-- A file whose name is one name is saved directly in its directory, or not at all. -/
theorem save_savedIn (h : IsName file) (dir : String) (contents : List UInt8) (t : Tree) :
    SavedIn t dir file contents ((save dir file contents).transcript Tree.peer t).1
      ((save dir file contents).transcript Tree.peer t).2.2 := by
  rcases save_cases h dir contents t with ⟨e, he, hgrows⟩ | ⟨hok, made, names, hgrows, hdir, hwrites⟩
  · rw [he]
    exact .refused hgrows
  · rw [hok, hwrites.eq_put]
    exact .saved hgrows hdir (Tree.entry?_put_self made (by simp) _)
      fun other hother => Tree.entry?_put_of_ne made hother _

end Files

/-! ## Names of documents -/

namespace Workflow.Document

open Files (IsName SavedIn Tree)

/-- A name of plain characters with the ending of a JSON file. -/
def IsPlainFile (file : String) : Prop :=
  ∃ stem, stem ≠ [] ∧ (∀ c ∈ stem, isPlain c = true) ∧ file.toList = stem ++ ".json".toList

/-- Whatever a workflow is called, its name does not lead anywhere. -/
theorem safeName_plain (name : String) : ∀ c ∈ (safeName name).toList, isPlain c = true := by
  unfold safeName
  dsimp only
  split
  · exact List.all_eq_true.mp (by decide)
  · rw [String.toList_ofList]
    intro c hc
    obtain ⟨d, -, rfl⟩ := List.mem_map.1 hc
    split
    · assumption
    · rfl

theorem toList_fileName (name id : String) :
    (fileName name id).toList = ((safeName name).toList ++ '_' :: id.toList) ++ ".json".toList := by
  simp [fileName]

theorem isPlainFile_fileName_iff (name id : String) :
    IsPlainFile (fileName name id) ↔ ∀ c ∈ id.toList, isPlain c = true := by
  constructor
  · rintro ⟨stem, -, hstem, hfile⟩ c hc
    rw [toList_fileName] at hfile
    obtain rfl := List.append_cancel_right hfile
    exact hstem c (List.mem_append_right _ (List.mem_cons_of_mem _ hc))
  · intro hid
    refine ⟨_, by simp, fun c hc => ?_, toList_fileName name id⟩
    rcases List.mem_append.1 hc with hname | hrest
    · exact safeName_plain name c hname
    · rcases List.mem_cons.1 hrest with rfl | hmem
      · rfl
      · exact hid c hmem

theorem fileName_ne_of_length_le {file : String} (h : file.toList.length ≤ 5) (name id : String) :
    fileName name id ≠ file := by
  rintro rfl
  rw [toList_fileName] at h
  simp at h
  omega

theorem slash_not_mem_safeName (name : String) : '/' ∉ (safeName name).toList := by
  intro h
  have hplain := safeName_plain name _ h
  revert hplain
  decide

theorem isName_fileName_iff (name id : String) :
    IsName (fileName name id) ↔ '/' ∉ id.toList := by
  rw [Files.isName_iff (fileName_ne_of_length_le (by decide) name id)
    (fileName_ne_of_length_le (by decide) name id) (fileName_ne_of_length_le (by decide) name id),
    toList_fileName]
  simp [slash_not_mem_safeName name]

/-- **A document stays in its directory as far as the id lets it.** Its file has a name of plain
characters exactly if its id has only such characters. It is one name exactly if the id has no
slash, and then it is saved directly in the directory or not at all. -/
theorem fileName_confined (name id : String) :
    (IsPlainFile (fileName name id) ↔ ∀ c ∈ id.toList, isPlain c = true) ∧
      (IsName (fileName name id) ↔ '/' ∉ id.toList) ∧
      ('/' ∉ id.toList → ∀ (dir : String) (contents : List UInt8) (t : Tree),
        SavedIn t dir (fileName name id) contents
          ((Files.save dir (fileName name id) contents).transcript Tree.peer t).1
          ((Files.save dir (fileName name id) contents).transcript Tree.peer t).2.2) :=
  ⟨isPlainFile_fileName_iff name id, isName_fileName_iff name id, fun hslash dir contents t =>
    Files.save_savedIn ((isName_fileName_iff name id).2 hslash) dir contents t⟩

/-! ## An id that leads out of the directory -/

/-- A directory for downloads with a directory in it. -/
def nestedTree : Tree := ⟨[(["downloads"], .directory), (["downloads", "flow_a"], .directory)]⟩

/-- What becomes of the tree when a document is saved under this id. -/
def escaped : Except FileError String × List Files.Call × Tree :=
  (Files.save "downloads" (fileName "flow" "a/../../evil") []).transcript Tree.peer nestedTree

/-- The name of the file is not one of plain characters, and not one name. The file is not saved in
the directory for downloads but beside it. -/
theorem fileName_escapes :
    fileName "flow" "a/../../evil" = "flow_a/../../evil.json" ∧
      ¬ IsPlainFile (fileName "flow" "a/../../evil") ∧ ¬ IsName (fileName "flow" "a/../../evil") ∧
      escaped.1.toOption = some "downloads/flow_a/../../evil.json" ∧
      escaped.2.2.entries = nestedTree.entries ++ [(["evil.json"], .file [])] := by
  refine ⟨by decide +kernel, ?_, ?_, by decide +kernel, by decide +kernel⟩
  · rw [isPlainFile_fileName_iff, ← List.all_eq_true]
    decide
  · rw [isName_fileName_iff]
    decide

end Workflow.Document

end Workbench
