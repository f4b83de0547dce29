import Mathlib.Data.List.Induction
import Workbench.Apps.Listing
import Workbench.Proofs.Models
import Workbench.Proofs.Text.Blank

/-!
# Lists of apps are read back

The readers of lists take entries as loosely as possible and put them in order: they come to lists
in which every app has an id of its own and a name. Such a list is what it is read as again, from
the entries with all that they can say that the writer makes of it.

* `AppList.normal_of_parse`: the readers come to nothing but `Normal` lists;
* `AppEntry.collect_ofApp`: and a normal list is what its own entries are collected into;
* `AppList.parse_written`: a list that was read comes back from its files and texts.
-/
namespace Workbench

open Json (Held Codec Field Fields)
open Text (bytes)

/-! ## Normal lists -/

/-- Every app has an id of its own and a name. -/
structure AppList.Normal (apps : List App) : Prop where
  ids_nodup : (apps.map (·.id)).Nodup
  id_not_blank : ∀ app ∈ apps, Text.isBlankText app.id = false
  name_not_blank : ∀ app ∈ apps, Text.isBlankText app.name = false

namespace AppEntry

open AppList (Normal)

variable {apps : List App} {app : App} {e : AppEntry}

theorem normal_concat_iff : Normal (apps ++ [app]) ↔
    Normal apps ∧ Text.isBlankText app.id = false ∧ Text.isBlankText app.name = false ∧
      ∀ other ∈ apps, other.id ≠ app.id := by
  constructor
  · rintro ⟨hnd, hids, hnames⟩
    rw [List.forall_mem_append, List.forall_mem_singleton] at hids hnames
    rw [List.map_append, List.nodup_append] at hnd
    obtain ⟨happs, -, hfresh⟩ := hnd
    exact ⟨⟨happs, hids.1, hnames.1⟩, hids.2, hnames.2, fun other hother =>
      hfresh _ (List.mem_map_of_mem hother) _ (List.mem_singleton_self _)⟩
  · rintro ⟨⟨hnd, hids, hnames⟩, hid, hname, hfresh⟩
    refine ⟨?_, ?_, ?_⟩
    · rw [List.map_append, List.nodup_append]
      refine ⟨hnd, List.nodup_singleton _, ?_⟩
      simpa using hfresh
    · rw [List.forall_mem_append, List.forall_mem_singleton]
      exact ⟨hids, hid⟩
    · rw [List.forall_mem_append, List.forall_mem_singleton]
      exact ⟨hnames, hname⟩

/-! ## Collecting entries -/

theorem collect_concat (entries : List AppEntry) (e : AppEntry) : collect (entries ++ [e]) =
    if Text.isBlankText e.id ∨ (collect entries).any (·.id == e.id) then collect entries
    else collect entries ++ [e.toApp] := by
  rw [collect, List.foldl_append]
  rfl

@[simp] theorem toApp_id : e.toApp.id = e.id := rfl

/-- The id stands in for a name that is missing or blank. -/
theorem toApp_name_not_blank (h : Text.isBlankText e.id = false) :
    Text.isBlankText e.toApp.name = false := by
  rw [toApp]
  cases hname : e.name.filter (! Text.isBlankText ·) with
  | none => exact h
  | some name =>
    obtain ⟨-, hshown⟩ := Option.filter_eq_some_iff.mp hname
    exact Bool.not_eq_true' _ ▸ hshown

theorem normal_collect (entries : List AppEntry) : Normal (collect entries) := by
  induction entries using List.reverseRecOn with
  | nil => exact ⟨List.nodup_nil, by simp [collect], by simp [collect]⟩
  | append_singleton entries e ih =>
    rw [collect_concat]
    split
    · exact ih
    · rename_i hkept
      rw [not_or, Bool.not_eq_true, Bool.not_eq_true, List.any_eq_false] at hkept
      obtain ⟨hid, hfresh⟩ := hkept
      exact normal_concat_iff.mpr ⟨ih, hid, toApp_name_not_blank hid, by simpa using hfresh⟩

/-- The entry with all that an app says. -/
def ofApp (app : App) : AppEntry where
  id := app.id
  name := some app.name
  description := some app.description
  kind := some app.kind
  endpoint := app.endpoint

theorem toApp_ofApp (h : Text.isBlankText app.name = false) : (ofApp app).toApp = app := by
  have hname : (some app.name).filter (! Text.isBlankText ·) = some app.name :=
    Option.filter_some_pos (by rw [h]; rfl)
  rw [toApp, ofApp]
  simp only [hname, Option.getD_some]

/-- A normal list is collected from its own entries. -/
theorem collect_ofApp (h : Normal apps) : collect (apps.map ofApp) = apps := by
  induction apps using List.reverseRecOn with
  | nil => rfl
  | append_singleton apps app ih =>
    obtain ⟨happs, hid, hname, hfresh⟩ := normal_concat_iff.mp h
    have hkept : ¬ (Text.isBlankText app.id = true ∨ apps.any (·.id == app.id) = true) := by
      simpa [hid] using hfresh
    rw [List.map_append, List.map_singleton, collect_concat, ih happs, toApp_ofApp hname]
    exact if_neg hkept

/-! ## Written entries -/

/-- A reader of entries takes a written app for the entry with all that the app says. -/
theorem decode_app (app : App) : codec.decode (App.codec.encode app).reread = .ok (ofApp app) := by
  obtain ⟨id, name, description, kind, endpoint⟩ := app
  cases endpoint <;> cases kind <;> rfl

theorem decode_apps (apps : List App) :
    codec.list.decode (App.codec.list.encode apps).reread = .ok (apps.map ofApp) :=
  Json.decode_list fun app _ => decode_app app

end AppEntry

namespace AppList

variable {apps : List App}

/-! ## What the readers come to -/

theorem normal_of_entries {v : Json} (h : ofEntries v = .ok apps) : Normal apps := by
  rw [ofEntries] at h
  split at h
  · cases h
    exact AppEntry.normal_collect _
  · cases h

theorem normal_of_marked {v : Json} (h : ofMarked v = .ok apps) : Normal apps := by
  rw [ofMarked] at h
  split at h
  · exact normal_of_entries h
  · cases h

theorem normal_of_file {v : Json} (h : ofFile v = .ok apps) : Normal apps := by
  unfold ofFile at h
  split at h
  · split at h
    · cases h
    · split at h
      · exact normal_of_marked h
      · cases h
  · cases h

theorem normal_of_pasted {v : Json} (h : ofPasted v = .ok apps) : Normal apps := by
  unfold ofPasted at h
  split at h
  · exact normal_of_entries h
  · split at h
    · exact normal_of_marked h
    · split at h
      · exact normal_of_marked h
      · cases h
  · cases h

theorem normal_of_parseFile {contents : List UInt8} (h : parseFile contents = .ok apps) :
    Normal apps := by
  rw [parseFile] at h
  split at h
  · exact normal_of_file h
  · cases h

theorem normal_of_parseText {text : String} (h : parseText text = .ok apps) : Normal apps := by
  rw [parseText] at h
  split at h
  · exact normal_of_pasted h
  · cases h

/-! ## Written lists -/

theorem ofEntries_written (h : Normal apps) :
    ofEntries (App.codec.list.encode apps).reread = .ok apps := by
  rw [ofEntries, AppEntry.decode_apps]
  exact congrArg Except.ok (AppEntry.collect_ofApp h)

theorem reread_document (apps : List App) : (codec.encode (ofApps apps)).reread =
    .obj [("apps", (App.codec.list.encode apps).reread), ("type", .str formatMark),
      ("version", .str currentVersion)] := rfl

theorem ofFile_written (h : Normal apps) :
    ofFile (codec.encode (ofApps apps)).reread = .ok apps := by
  rw [reread_document]
  exact ofEntries_written h

theorem ofPasted_written (h : Normal apps) :
    ofPasted (codec.encode (ofApps apps)).reread = .ok apps := by
  rw [reread_document]
  exact ofEntries_written h

theorem depth_app (app : App) : (App.codec.encode app).depth ≤ 1 :=
  Json.depth_obj_le_succ_iff.mp (Fields.forall_mem_encode (P := (Json.depth · ≤ 0))
    ⟨le_rfl, le_rfl, le_rfl, le_rfl, Json.depth_optionString _ _, trivial⟩)

theorem held_apps (apps : List App) : Held (App.codec.list.encode apps) :=
  (Json.list_lawful fun app _ => app.lawful 0).held

theorem depth_apps (apps : List App) : (App.codec.list.encode apps).depth ≤ 2 :=
  Json.depth_arr_le_succ_iff.mp (List.forall_mem_map.mpr fun app _ => depth_app app)

theorem held_document (apps : List App) : Held (codec.encode (ofApps apps)) :=
  ((ofApps apps).lawful 0).held

theorem depth_document (apps : List App) : (codec.encode (ofApps apps)).depth ≤ 3 :=
  Json.depth_obj_le_succ_iff.mp (Fields.forall_mem_encode (P := (Json.depth · ≤ 2))
    ⟨Nat.zero_le _, Json.depth_optionString _ _, depth_apps apps, trivial⟩)

/-! ## Texts of lists -/

/-- The text of an array has no blanks around it. -/
theorem trimmed_write_arr (l : Json.Layout) (level : Nat) (vs : List Json) :
    Text.Trimmed (Json.write l level (.arr vs)).toList := by
  cases vs with
  | nil => exact Text.trimmed_between '[' ']' (by decide) (by decide) "" ""
  | cons v vs =>
    rw [Json.write]
    exact Text.trimmed_between '[' ']' (by decide) (by decide) _ _

theorem trimmed_write_obj (l : Json.Layout) (level : Nat) (ms : List (String × Json)) :
    Text.Trimmed (Json.write l level (.obj ms)).toList := by
  cases ms with
  | nil => exact Text.trimmed_between '\x7b' '\x7d' (by decide) (by decide) "" ""
  | cons m ms =>
    rw [Json.write]
    exact Text.trimmed_between '\x7b' '\x7d' (by decide) (by decide) _ _

section Layouts

variable {l : Json.Layout} {v : Json}

theorem parseFile_write (hl : l.Blank) (hheld : Held v) (hdepth : v.depth ≤ Json.maxNesting) :
    parseFile (bytes (Json.write l 0 v)) = ofFile v.reread := by
  have hread := Json.read_write hl hheld 0 hdepth
  simp only [parseFile, hread]

theorem parseText_write (hl : l.Blank) (hheld : Held v) (hdepth : v.depth ≤ Json.maxNesting)
    (htrimmed : Text.Trimmed (Json.write l 0 v).toList) :
    parseText (Json.write l 0 v) = ofPasted v.reread := by
  have hread := Json.read_write hl hheld 0 hdepth
  simp only [parseText, Text.trim_eq_self htrimmed, hread]

variable (hl : l.Blank) (h : Normal apps)

include hl h

theorem parseFile_document :
    parseFile (bytes (Json.write l 0 (codec.encode (ofApps apps)))) = .ok apps := by
  have hdepth := (depth_document apps).trans (by decide : 3 ≤ Json.maxNesting)
  rw [parseFile_write hl (held_document apps) hdepth]
  exact ofFile_written h

theorem parseText_document :
    parseText (Json.write l 0 (codec.encode (ofApps apps))) = .ok apps := by
  have hdepth := (depth_document apps).trans (by decide : 3 ≤ Json.maxNesting)
  rw [parseText_write hl (held_document apps) hdepth (trimmed_write_obj l 0 _)]
  exact ofPasted_written h

theorem parseText_bare :
    parseText (Json.write l 0 (App.codec.list.encode apps)) = .ok apps := by
  have hdepth := (depth_apps apps).trans (by decide : 2 ≤ Json.maxNesting)
  rw [parseText_write hl (held_apps apps) hdepth (trimmed_write_arr l 0 _)]
  exact ofEntries_written h

end Layouts

/-- The files with a list of apps. -/
def files (apps : List App) : List String :=
  [codec.text (ofApps apps), codec.prettyText (ofApps apps)]

/-- The lists without the mark of a file. -/
def bareTexts (apps : List App) : List String :=
  [App.codec.list.text apps, App.codec.list.prettyText apps]

/-- **A list that was read comes back**, from its files as from its texts. -/
theorem parse_written
    (h : (∃ contents, parseFile contents = .ok apps) ∨ ∃ text, parseText text = .ok apps) :
    (∀ file ∈ files apps, parseFile (bytes file) = .ok apps ∧ parseText file = .ok apps) ∧
      ∀ text ∈ bareTexts apps, parseText text = .ok apps := by
  have hnormal : Normal apps := by
    rcases h with ⟨contents, hread⟩ | ⟨text, hread⟩
    · exact normal_of_parseFile hread
    · exact normal_of_parseText hread
  have hfile {l : Json.Layout} (hl : l.Blank) :=
    And.intro (parseFile_document hl hnormal) (parseText_document hl hnormal)
  constructor
  · intro file hmem
    rcases List.mem_pair.mp hmem with rfl | rfl
    · exact hfile Json.blank_compact
    · exact hfile Json.blank_pretty
  · intro text hmem
    rcases List.mem_pair.mp hmem with rfl | rfl
    · exact parseText_bare Json.blank_compact hnormal
    · exact parseText_bare Json.blank_pretty hnormal

/-- Entries that leave the name and the kind to the id, do not have one, or repeat one. -/
def looseEntries : Json :=
  .arr [.obj [("id", .str "workflow-7"), ("name", .str " ")], .obj [("name", .str "Nobody")],
    .obj [("endpoint", .null), ("id", .str "app-1"), ("name", .str "Helper")],
    .obj [("id", .str "workflow-7"), ("type", .str "chat")]]

def looseApps : List App :=
  [⟨"workflow-7", "workflow-7", "", .workflow, none⟩, ⟨"app-1", "Helper", "", .chat, none⟩]

theorem parseText_loose : parseText (Json.compact looseEntries) = .ok looseApps := by
  have hheld : Held looseEntries := by
    simp [looseEntries]
  exact parseText_write Json.blank_compact hheld (by decide) (trimmed_write_arr _ 0 _)

theorem parse_written_loose : parseText (Json.compact looseEntries) = .ok looseApps ∧
    (∀ file ∈ files looseApps,
      parseFile (bytes file) = .ok looseApps ∧ parseText file = .ok looseApps) ∧
      ∀ text ∈ bareTexts looseApps, parseText text = .ok looseApps :=
  ⟨parseText_loose, parse_written (.inr ⟨_, parseText_loose⟩)⟩

end AppList

end Workbench
