import Workbench.Proofs.Json.Shape
import Workbench.Proofs.Listing

/-!
# What a list of apps is made of

The entries of a list are read one by one, and one that is not in shape refuses all of them. Of the
entries with one id the first makes the app, and its place in the list is that of this entry among
the first ones; entries with a blank id make none.

* `AppEntry.takes_eq`, `AppEntry.decode_iff`: the values that are entries, and what they say;
* `AppEntry.collected_collect`: what entries are collected into, by induction along the list;
* `AppList.listed_ofEntries`: what becomes of an array of values;
* `AppList.listed_of_channels`: the same for the files and the texts with such an array.
-/
namespace Workbench

open Json (Codec Field Ordered Part isText isName orNull)

variable {v : Json} {vs : List Json} {e : AppEntry} {entries : List AppEntry}

/-! ## Entries -/

def AppKind.ofJson? (v : Json) : Option AppKind :=
  v.variantName?.bind fun s => AppKind.all.find? (·.name == s)

namespace AppEntry

/-- The parts of an entry. -/
def parts : List Part :=
  [⟨"id", false, isText⟩, ⟨"name", false, orNull isText⟩, ⟨"description", false, orNull isText⟩,
   ⟨"type", false, orNull (isName ["chat", "completion", "workflow"])⟩,
   ⟨"endpoint", false, orNull isText⟩]

/-- What an entry says. -/
def ofJson (v : Json) : AppEntry where
  id := ((v.part? 0 "id").bind Json.str?).getD ""
  name := (v.part? 1 "name").bind Json.str?
  description := (v.part? 2 "description").bind Json.str?
  kind := (v.part? 3 "type").bind AppKind.ofJson?
  endpoint := (v.part? 4 "endpoint").bind Json.str?

theorem takes_eq (hv : Ordered v) : codec.takes v = v.fits parts := by
  have htext := Part.alike_of_takes Json.string_takes
  have htexts := Part.alike_of_takes Json.optionString_takes
  have hkinds := Part.alike_of_takes ((Json.option_takes AppKind.codec).trans
    (congrArg orNull (Json.ofNames_takes AppKind.all AppKind.name)))
  refine (Json.record_takes (by decide) (by rfl) hv).trans (Json.fits_congr ?_ hv)
  exact .cons (htext ..) <| .cons (htexts ..) <| .cons (htexts ..) <| .cons (hkinds ..) <|
    .cons (htexts ..) .nil

theorem eq_ofJson_of_decode (hv : Ordered v) (h : codec.decode v = .ok e) : e = ofJson v := by
  obtain ⟨-, ⟨id, name, description, kind, endpoint, ⟨⟩⟩, hrow, rfl⟩ :=
    (Json.record_decode_iff_parts (by decide) (by rfl) hv).mp h
  obtain ⟨hid, hname, hdescription, hkind, hendpoint, -⟩ := hrow
  have htext {name : String} {o : Option Json} {text : Option String}
      (h : (Field.optional name .string).Decodes o text) : text = o.bind Json.str? :=
    Json.optional_decodes rfl Json.str?_of_decode h
  have hkindOf {w : Json} {k : AppKind} (h : AppKind.codec.decode w = .ok k) :
      AppKind.ofJson? w = some k := (Json.ofNames_decode_iff _ _).mp h
  obtain rfl := Json.default_decodes Json.str?_of_decode hid
  obtain rfl := htext hname
  obtain rfl := htext hdescription
  obtain rfl := Json.optional_decodes rfl hkindOf hkind
  obtain rfl := htext hendpoint
  rfl

theorem decode_iff (hv : Ordered v) :
    codec.decode v = .ok e ↔ v.fits parts = true ∧ e = ofJson v := by
  rw [← takes_eq hv, Codec.takes, Json.isOk_iff]
  constructor
  · exact fun h => ⟨⟨e, h⟩, eq_ofJson_of_decode hv h⟩
  · rintro ⟨⟨e', h⟩, rfl⟩
    rwa [← eq_ofJson_of_decode hv h]

/-- The app says what the entry says, and what the id suggests where the entry says nothing. -/
structure Makes (e : AppEntry) (app : App) : Prop where
  id_eq : app.id = e.id
  kind_eq : app.kind = e.kind.getD (AppKind.ofKey e.id)
  named : ∀ name, e.name = some name → Text.isBlankText name = false → app.name = name
  unnamed : (∀ name, e.name = some name → Text.isBlankText name = true) → app.name = e.id
  description_eq : app.description = e.description.getD ""
  endpoint_eq : app.endpoint = e.endpoint

theorem makes_toApp (e : AppEntry) : e.Makes e.toApp where
  id_eq := rfl
  kind_eq := rfl
  named name hname hshown := by
    rw [toApp, hname, Text.filter_blank_eq_self hshown, Option.getD_some]
  unnamed hblank := by
    rw [toApp, Text.filter_blank_eq_none_iff.mpr hblank, Option.getD_none]
  description_eq := rfl
  endpoint_eq := rfl

/-! ## Collecting -/

/-- Of the entries with an id that is not blank, the first of each id makes an app, in the order of
these first entries. -/
structure Collected (entries : List AppEntry) (apps : List App) : Prop where
  ids_nodup : (apps.map (·.id)).Nodup
  mem_ids_iff : ∀ id, id ∈ apps.map (·.id) ↔
    id ∈ entries.map (·.id) ∧ Text.isBlankText id = false
  in_order : (apps.map fun app => (entries.map (·.id)).idxOf app.id).Pairwise (· < ·)
  made : ∀ app ∈ apps, ∃ e, entries.find? (·.id == app.id) = some e ∧ e.Makes app

namespace Collected

variable {apps : List App}

theorem nil : Collected [] [] := ⟨List.nodup_nil, by simp, .nil, nofun⟩

/-- Another entry changes nothing for the apps that are there. -/
theorem made_concat (h : Collected entries apps) (e : AppEntry) :
    ∀ app ∈ apps, ∃ first, (entries ++ [e]).find? (·.id == app.id) = some first ∧
      first.Makes app := by
  intro app happ
  obtain ⟨first, hfirst, hmakes⟩ := h.made app happ
  exact ⟨first, by rw [List.find?_append, hfirst, Option.some_or], hmakes⟩

theorem places_concat (h : Collected entries apps) (e : AppEntry) :
    (apps.map fun app => ((entries ++ [e]).map (·.id)).idxOf app.id) =
      apps.map fun app => (entries.map (·.id)).idxOf app.id := by
  refine List.map_congr_left fun app happ => ?_
  have hmem := ((h.mem_ids_iff app.id).mp (List.mem_map_of_mem happ)).1
  rw [List.map_append, List.idxOf_append_of_mem hmem]

/-- An entry with a blank id, or with an id that is there, makes no app. -/
theorem skip (h : Collected entries apps)
    (hskip : Text.isBlankText e.id = true ∨ e.id ∈ apps.map (·.id)) :
    Collected (entries ++ [e]) apps where
  ids_nodup := h.ids_nodup
  mem_ids_iff id := by
    rw [h.mem_ids_iff, List.map_append, List.mem_append]
    refine and_congr_left fun hid => ⟨.inl, ?_⟩
    rintro (hmem | hmem)
    · exact hmem
    · obtain rfl : id = e.id := List.mem_singleton.mp hmem
      rcases hskip with hblank | hthere
      · rw [hblank] at hid
        cases hid
      · exact ((h.mem_ids_iff _).mp hthere).1
  in_order := by
    rw [h.places_concat]
    exact h.in_order
  made := h.made_concat e

/-- An entry with an id of its own makes the next app. -/
theorem concat (h : Collected entries apps) (hid : Text.isBlankText e.id = false)
    (hfresh : e.id ∉ apps.map (·.id)) : Collected (entries ++ [e]) (apps ++ [e.toApp]) := by
  have hnew : e.id ∉ entries.map (·.id) := fun hmem => hfresh ((h.mem_ids_iff _).mpr ⟨hmem, hid⟩)
  refine ⟨?nodup, fun id => ?ids, ?order, ?made⟩
  case nodup =>
    rw [List.map_append, List.nodup_append]
    refine ⟨h.ids_nodup, List.nodup_singleton _, fun id hmem other hother heq => ?_⟩
    obtain rfl : id = e.id := heq.trans (List.mem_singleton.mp hother)
    exact hfresh hmem
  case ids =>
    rw [List.map_append, List.map_append, List.mem_append, List.mem_append, h.mem_ids_iff,
      or_and_right]
    refine or_congr_right (iff_self_and.mpr fun hmem => ?_)
    obtain rfl : id = e.id := List.mem_singleton.mp hmem
    exact hid
  case order =>
    rw [List.map_append, h.places_concat, List.pairwise_append]
    refine ⟨h.in_order, List.pairwise_singleton _ _, fun place hplace other hother => ?_⟩
    obtain ⟨app, happ, rfl⟩ := List.mem_map.mp hplace
    obtain rfl := List.mem_singleton.mp hother
    have hmem := ((h.mem_ids_iff app.id).mp (List.mem_map_of_mem happ)).1
    show _ < ((entries ++ [e]).map (·.id)).idxOf e.id
    rw [List.map_append, List.idxOf_append_of_notMem hnew]
    exact Nat.lt_add_right _ (List.idxOf_lt_length_of_mem hmem)
  case made =>
    refine List.forall_mem_append.mpr ⟨h.made_concat e, List.forall_mem_singleton.mpr ?_⟩
    have hnone : entries.find? (·.id == e.id) = none :=
      List.find?_eq_none.mpr fun other hother heq =>
        hnew (List.mem_map.mpr ⟨other, hother, beq_iff_eq.mp heq⟩)
    refine ⟨e, ?_, e.makes_toApp⟩
    rw [toApp_id, List.find?_append, hnone]
    simp

end Collected

/-- **Entries are collected in the order of the first entries of their ids.** -/
theorem collected_collect (entries : List AppEntry) : Collected entries (collect entries) := by
  induction entries using List.reverseRecOn with
  | nil => exact .nil
  | append_singleton entries e ih =>
    rw [collect_concat]
    split
    · rename_i hskip
      exact ih.skip (hskip.imp_right fun hany => by simpa using hany)
    · rename_i hkept
      rw [not_or, Bool.not_eq_true] at hkept
      exact ih.concat hkept.1 (by simpa using hkept.2)

end AppEntry

/-! ## Files and texts -/

namespace AppList

/-- What becomes of these entries, in whatever way they come: a list if all of them are in shape,
and an error for any that is not. -/
structure Listed (vs : List Json) (result : Except ListingError (List App)) : Prop where
  collected : (∀ v ∈ vs, v.fits AppEntry.parts = true) →
    ∃ apps, result = .ok apps ∧ AppEntry.Collected (vs.map AppEntry.ofJson) apps
  refused : ∀ v ∈ vs, v.fits AppEntry.parts = false → ∃ p, result = .error (.json ⟨p, none⟩)

theorem listed_ofEntries (hvs : ∀ v ∈ vs, Ordered v) : Listed vs (ofEntries (.arr vs)) := by
  have hdecode {entries : List AppEntry} :
      AppEntry.codec.list.decode (.arr vs) = .ok entries ↔
        (∀ v ∈ vs, v.fits AppEntry.parts = true) ∧ entries = vs.map AppEntry.ofJson :=
    Json.list_decode_iff fun v hv _ => AppEntry.decode_iff (hvs v hv)
  constructor
  · intro hfits
    refine ⟨_, ?_, AppEntry.collected_collect _⟩
    rw [ofEntries, hdecode.mpr ⟨hfits, rfl⟩]
  · intro v hv hmisfit
    cases hresult : AppEntry.codec.list.decode (.arr vs) with
    | error p => exact ⟨p, by rw [ofEntries, hresult]⟩
    | ok entries =>
      have hfits := (hdecode.mp hresult).1 v hv
      rw [hmisfit] at hfits
      cases hfits

/-- A file with the mark and with these entries. -/
def FileLists (contents : List UInt8) (vs : List Json) : Prop :=
  ∃ ms, Json.read contents = .ok (.obj ms) ∧ ms.lookup "type" = some (.str formatMark) ∧
    ms.lookup "apps" = some (.arr vs)

/-- A text with these entries, which need not have a mark. -/
def TextLists (text : String) (vs : List Json) : Prop :=
  Json.read (Text.bytes (Text.trim text)) = .ok (.arr vs) ∨
  ∃ ms, Json.read (Text.bytes (Text.trim text)) = .ok (.obj ms) ∧
    (∀ mark, ms.lookup "type" = some (.str mark) → mark = formatMark) ∧
    ms.lookup "apps" = some (.arr vs)

variable {contents : List UInt8} {text : String} {ms : List (String × Json)}

theorem ordered_of_apps (hv : Ordered (.obj ms)) (happs : ms.lookup "apps" = some (.arr vs)) :
    ∀ v ∈ vs, Ordered v := by
  cases hv with
  | obj _ hms =>
    cases hms _ (Json.mem_of_lookup happs) with
    | arr hvs => exact hvs

theorem ofMarked_obj (happs : ms.lookup "apps" = some (.arr vs)) :
    ofMarked (.obj ms) = ofEntries (.arr vs) := by
  rw [ofMarked, Json.get?, happs]

theorem mark?_obj_iff {mark : String} :
    mark? (.obj ms) = some mark ↔ ms.lookup "type" = some (.str mark) := by
  simp [mark?, Json.get?, Option.bind_eq_some_iff, Json.str?_eq_some_iff]

theorem parseFile_eq (h : FileLists contents vs) :
    parseFile contents = ofEntries (.arr vs) ∧ ∀ v ∈ vs, Ordered v := by
  obtain ⟨ms, hread, htype, happs⟩ := h
  refine ⟨?_, ordered_of_apps (Json.ordered_of_read hread) happs⟩
  simp only [parseFile, hread, ofFile, mark?_obj_iff.mpr htype, if_true]
  exact ofMarked_obj happs

theorem parseText_eq (h : TextLists text vs) :
    parseText text = ofEntries (.arr vs) ∧ ∀ v ∈ vs, Ordered v := by
  rcases h with hread | ⟨ms, hread, htype, happs⟩
  · refine ⟨by simp only [parseText, hread, ofPasted], ?_⟩
    cases Json.ordered_of_read hread with
    | arr hvs => exact hvs
  · refine ⟨?_, ordered_of_apps (Json.ordered_of_read hread) happs⟩
    simp only [parseText, hread, ofPasted]
    cases hmark : mark? (.obj ms) with
    | none => exact ofMarked_obj happs
    | some mark =>
      simp only [htype mark (mark?_obj_iff.mp hmark), if_true]
      exact ofMarked_obj happs

/-- **A list of apps is made of the first entries of its ids**, whether it comes as a file or as a
text, and one entry out of shape refuses it. -/
theorem listed_of_channels (vs : List Json) :
    (∀ contents, FileLists contents vs → Listed vs (parseFile contents)) ∧
      ∀ text, TextLists text vs → Listed vs (parseText text) := by
  constructor
  · intro contents h
    obtain ⟨hresult, hvs⟩ := parseFile_eq h
    rw [hresult]
    exact listed_ofEntries hvs
  · intro text h
    obtain ⟨hresult, hvs⟩ := parseText_eq h
    rw [hresult]
    exact listed_ofEntries hvs

/-- Two ids, one of them twice with different fields, one with a blank name and one in an array. -/
def repeatingItems : List Json :=
  [.obj [("id", .str "workflow-7"), ("name", .str " \t")], .obj [("name", .str "Nobody")],
   .arr [.str "app-1", .str "Helper", .null, .str "completion"],
   .obj [("endpoint", .str "/v2"), ("id", .str "workflow-7"), ("type", .str "chat")]]

theorem listed_repeating :
    TextLists (Json.compact (.arr repeatingItems)) repeatingItems ∧
      Listed repeatingItems (parseText (Json.compact (.arr repeatingItems))) ∧
      parseText (Json.compact (.arr repeatingItems)) =
        .ok [⟨"workflow-7", "workflow-7", "", .workflow, none⟩,
          ⟨"app-1", "Helper", "", .completion, none⟩] := by
  have hheld : Json.Held (.arr repeatingItems) := by simp [repeatingItems]
  have hread := Json.read_write Json.blank_compact hheld 0 (by decide)
  have htrimmed := trimmed_write_arr .compact 0 repeatingItems
  have htext : TextLists (Json.compact (.arr repeatingItems)) repeatingItems := by
    rw [TextLists, Json.compact, Text.trim_eq_self htrimmed]
    exact .inl hread
  exact ⟨htext, (listed_of_channels repeatingItems).2 _ htext, (parseText_eq htext).1⟩

end AppList

end Workbench
