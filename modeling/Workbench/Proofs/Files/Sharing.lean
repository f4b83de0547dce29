import Workbench.Proofs.Files.Reading
import Workbench.Proofs.Text.Blank

/-!
# Documents that share a file

The name of a file is made of the name of a workflow, an underscore and its id. Names and ids may
have underscores of their own, so that one file name can be taken apart in several ways: `flow_a_1`
is `1` of `flow_a` as well as `a_1` of `flow`.

* `fileName_eq_iff`: documents of different ids share a file exactly if some characters stand at the
  end of the one name and at the beginning of the other id (`Straddles`);
* `forall_fileName_ne_iff`: two ids are kept apart under all names exactly if neither is the other
  one with plain characters and an underscore in front (`Extends`);
* `read_exports`: a document that has been saved stays as it is while documents of other files are
  saved;
* `exports_apart`: hence no export of another id overwrites it unless the two straddle;
* `fileName_shared`: two documents that share a file.
-/
namespace Workbench.Workflow.Document

open Files (Tree IsName)

/-- What stands between the first name and the second id belongs to the first id, and to the second
name. -/
def Straddles (name id name' id' : String) : Prop :=
  ∃ t, id = t ++ "_" ++ id' ∧ safeName name' = safeName name ++ "_" ++ t

/-- `id` is `id'` with plain characters and an underscore in front. -/
def Extends (id id' : String) : Prop :=
  ∃ t, (∀ c ∈ t.toList, isPlain c = true) ∧ id = t ++ "_" ++ id'

variable {name name' id id' : String}

/-! ## Names of files -/

theorem Straddles.fileName_eq (h : Straddles name id name' id') :
    fileName name id = fileName name' id' := by
  obtain ⟨t, rfl, hname⟩ := h
  rw [fileName, fileName, hname]
  simp only [String.append_assoc]

theorem Straddles.toExtends (h : Straddles name id name' id') : Extends id id' := by
  obtain ⟨t, hid, hname⟩ := h
  refine ⟨t, fun c hc => safeName_plain name' c ?_, hid⟩
  rw [hname, String.toList_append]
  exact List.mem_append_right _ hc

/-- No id without an underscore extends another one, and no id one of its own length. -/
theorem Extends.mem_and_length_lt (h : Extends id id') :
    '_' ∈ id.toList ∧ id'.toList.length < id.toList.length := by
  obtain ⟨t, -, rfl⟩ := h
  constructor
  · simp
  · simp
    omega

/-- A longer name has the beginning of the other id for its end. -/
theorem straddles_of_append {cs : List Char} (hne : id ≠ id')
    (hname : (safeName name').toList = (safeName name).toList ++ cs)
    (hid : '_' :: id.toList = cs ++ '_' :: id'.toList) : Straddles name id name' id' := by
  cases cs with
  | nil => exact absurd (String.toList_inj.1 (List.cons.inj hid).2) hne
  | cons c t =>
    obtain ⟨rfl, hid⟩ := List.cons.inj hid
    refine ⟨String.ofList t, ?_, ?_⟩ <;> rw [← String.toList_inj]
    · simpa using hid
    · simpa using hname

/-- The file names of different ids are the same only if one name takes in what the other id begins
with. -/
theorem fileName_eq_iff (hne : id ≠ id') : fileName name id = fileName name' id' ↔
    Straddles name id name' id' ∨ Straddles name' id' name id := by
  constructor
  · intro h
    rw [← String.toList_inj, toList_fileName, toList_fileName] at h
    rcases List.append_eq_append_iff.1 (List.append_cancel_right h) with
      ⟨cs, hname, hid⟩ | ⟨cs, hname, hid⟩
    · exact .inl (straddles_of_append hne hname hid)
    · exact .inr (straddles_of_append hne.symm hname hid)
  · rintro (h | h)
    · exact h.fileName_eq
    · exact h.fileName_eq.symm

theorem not_blank_of_isPlain {c : Char} (h : isPlain c = true) : Text.isBlank c = false := by
  simp only [isPlain, Bool.or_eq_true, beq_iff_eq] at h
  rcases h with (halphanum | rfl) | rfl
  · exact Text.not_blank_of_isAlphanum halphanum
  · decide
  · decide

/-- A name of plain characters, not all of them underscores, is shown as it is. -/
theorem safeName_eq_self {c : Char} (hplain : ∀ c ∈ name.toList, isPlain c = true)
    (hmem : c ∈ name.toList) (hc : c ≠ '_') : safeName name = name := by
  have htrim : Text.trim name = name := Text.trim_eq_self
    (Text.trimmed_of_forall fun c hc => not_blank_of_isPlain (hplain c hc))
  have hmap : name.toList.map (fun c => if isPlain c then c else '_') = name.toList :=
    (List.map_congr_left fun c hc => if_pos (hplain c hc)).trans (List.map_id' _)
  have hall : name.toList.all (· == '_') = false :=
    List.all_eq_false.2 ⟨c, hmem, by simpa using hc⟩
  unfold safeName
  dsimp only
  rw [htrim, hmap, hall, String.ofList_toList]
  rfl

/-- Where one id extends the other, two names are not kept apart. -/
theorem Extends.exists_fileName_eq (h : Extends id id') :
    ∃ name name', fileName name id = fileName name' id' := by
  obtain ⟨t, hplain, hid⟩ := h
  have hshort : safeName "a" = "a" := by decide +kernel
  have hlong : safeName ("a_" ++ t) = "a_" ++ t := by
    have hbegins : ("a_" ++ t).toList = 'a' :: '_' :: t.toList := String.toList_append
    refine safeName_eq_self (c := 'a') (fun c hc => ?_) ?_ (by decide)
    · rw [hbegins] at hc
      rcases List.mem_cons.1 hc with rfl | hc
      · rfl
      · rcases List.mem_cons.1 hc with rfl | hc
        · rfl
        · exact hplain c hc
    · rw [hbegins]
      exact List.mem_cons_self
  refine ⟨"a", "a_" ++ t, Straddles.fileName_eq ⟨t, hid, ?_⟩⟩
  rw [hshort, hlong]
  rfl

/-- Two ids are kept apart, whatever the names, exactly if neither extends the other. -/
theorem forall_fileName_ne_iff (hne : id ≠ id') :
    (∀ name name', fileName name id ≠ fileName name' id') ↔ ¬Extends id id' ∧ ¬Extends id' id := by
  constructor
  · intro h
    refine ⟨fun hext => ?_, fun hext => ?_⟩
    · obtain ⟨name, name', heq⟩ := hext.exists_fileName_eq
      exact h name name' heq
    · obtain ⟨name', name, heq⟩ := hext.exists_fileName_eq
      exact h name name' heq.symm
  · rintro ⟨hleft, hright⟩ name name' heq
    rcases (fileName_eq_iff hne).1 heq with h | h
    · exact hleft h.toExtends
    · exact hright h.toExtends

/-! ## Saving several documents -/

/-- A document that is to be saved, and where. -/
structure Export where
  dir : String
  name : String
  id : String
  contents : List UInt8

namespace Export

def file (e : Export) : String := fileName e.name e.id

def path (e : Export) : String := Files.joinPath e.dir e.file

def save (e : Export) : Files.Session (Except FileError String) :=
  Files.save e.dir e.file e.contents

/-- What becomes of a tree when the document is saved there. -/
def into (t : Tree) (e : Export) : Tree := (e.save.transcript Tree.peer t).2.2

variable {e : Export} {t : Tree}

theorem isName_file (hslash : '/' ∉ e.id.toList) : IsName e.file :=
  (isName_fileName_iff e.name e.id).2 hslash

theorem read_of_save {path : String} (hslash : '/' ∉ e.id.toList)
    (hok : (e.save.transcript Tree.peer t).1 = .ok path) :
    path = e.path ∧ (e.into t).read path = .ok e.contents :=
  Files.read_of_save (isName_file hslash) hok

end Export

/-- Documents of other files may be saved in any number. -/
theorem read_exports {e : Export} (hslash : '/' ∉ e.id.toList) {later : List Export}
    (hlater : ∀ e' ∈ later, '/' ∉ e'.id.toList ∧ e.file ≠ e'.file) {t : Tree}
    (hread : t.read e.path = .ok e.contents) :
    (later.foldl Export.into t).read e.path = .ok e.contents := by
  induction later generalizing t with
  | nil => exact hread
  | cons e' later ih =>
    obtain ⟨⟨hslash', hfile⟩, hrest⟩ := List.forall_mem_cons.1 hlater
    exact ih hrest (Files.read_save_of_ne (Export.isName_file hslash) (Export.isName_file hslash')
      hfile hread)

/-- **Exports are kept apart as far as names and ids do not straddle.** Documents of different ids
share a file exactly if they straddle. Two ids are kept apart under all names exactly if neither
extends the other, which takes an underscore and a longer id. What has been saved under an id
without slashes can be read where it was saved, unchanged, however many documents of other ids are
saved after it, as long as they do not straddle with it. -/
theorem exports_apart :
    (∀ name id name' id' : String, id ≠ id' → (fileName name id = fileName name' id' ↔
        Straddles name id name' id' ∨ Straddles name' id' name id)) ∧
      (∀ id id' : String, id ≠ id' → ((∀ name name', fileName name id ≠ fileName name' id') ↔
        ¬Extends id id' ∧ ¬Extends id' id)) ∧
      (∀ id id' : String, Extends id id' →
        '_' ∈ id.toList ∧ id'.toList.length < id.toList.length) ∧
      ∀ (e : Export) (later : List Export) (t : Tree) (path : String), '/' ∉ e.id.toList →
        (∀ e' ∈ later, '/' ∉ e'.id.toList ∧ e.id ≠ e'.id ∧
          ¬Straddles e.name e.id e'.name e'.id ∧ ¬Straddles e'.name e'.id e.name e.id) →
        (e.save.transcript Tree.peer t).1 = .ok path →
          (later.foldl Export.into (e.into t)).read path = .ok e.contents := by
  refine ⟨fun name id name' id' hne => fileName_eq_iff hne,
    fun id id' hne => forall_fileName_ne_iff hne, fun id id' h => h.mem_and_length_lt,
    fun e later t path hslash hlater hok => ?_⟩
  obtain ⟨hpath, hread⟩ := Export.read_of_save hslash hok
  rw [hpath] at hread ⊢
  refine read_exports hslash (fun e' he' => ?_) hread
  obtain ⟨hslash', hne, hleft, hright⟩ := hlater e' he'
  exact ⟨hslash', fun hfile => ((fileName_eq_iff hne).1 hfile).elim hleft hright⟩

/-! ## Two documents and one file -/

def ofLongId : Export := ⟨"downloads", "a", "b_1", [1]⟩

def ofShortId : Export := ⟨"downloads", "a", "1", [2]⟩

def ofSlashedName : Export := ⟨"downloads", "a/b", "1", [3]⟩

/-- One id extends the other, but under these names they do not straddle. -/
theorem exports_apart_kept : Extends "b_1" "1" ∧
    fileName "a" "b_1" ≠ fileName "a" "1" ∧
      (ofShortId.into (ofLongId.into ⟨[]⟩)).read "downloads/a_b_1.json" = .ok [1] := by
  have hne : fileName "a" "b_1" ≠ fileName "a" "1" := by decide +kernel
  have hstraddles := (not_congr (exports_apart.1 "a" "b_1" "a" "1" (by decide))).1 hne
  have hapart := not_or.1 hstraddles
  have hsaved : (ofLongId.save.transcript Tree.peer ⟨[]⟩).1 = .ok "downloads/a_b_1.json" :=
    toOption_eq_some_iff.1 (by decide +kernel)
  exact ⟨⟨"b", by simp [isPlain], by decide⟩, hne,
    exports_apart.2.2.2 ofLongId [ofShortId] ⟨[]⟩ _ (by decide)
      (List.forall_mem_singleton.2 ⟨by decide, by decide, hapart⟩) hsaved⟩

/-- Under another name the file is the same, and what the first document held is gone. -/
theorem fileName_shared : "b_1" ≠ "1" ∧ fileName "a" "b_1" = fileName "a/b" "1" ∧
    (ofSlashedName.into (ofLongId.into ⟨[]⟩)).read "downloads/a_b_1.json" = .ok [3] :=
  ⟨by decide, by decide +kernel, toOption_eq_some_iff.1 (by decide +kernel)⟩

end Workbench.Workflow.Document
