import Workbench.Proofs.Json.Padding
import Workbench.Proofs.Listing.Collecting

/-!
# The two channels of a list

A file has to be an object with the mark of the format. A pasted text may be such an object too, but
need not bear a mark, and blanks around it are trimmed first.

* `parseText_of_parseFile`: a file can be pasted, with the same list as result;
* `parsed_by_mark`: what the mark of a pasted object decides;
* `number_mark_accepted`: an object whose mark is a number is taken for one without a mark.
-/
namespace Workbench.AppList

open Json (Held)
open Text (bytes)

variable {v : Json} {ms : List (String × Json)} {apps : List App} {contents : List UInt8}
  {text : String}

/-! ## Files that are pasted -/

theorem of_ofFile (h : ofFile v = .ok apps) : ∃ ms, v = .obj ms ∧
    ms.lookup "type" = some (.str formatMark) ∧ ofMarked (.obj ms) = .ok apps := by
  cases v with
  | obj ms =>
    cases hmark : mark? (.obj ms) with
    | none => simp [ofFile, hmark] at h
    | some mark =>
      simp only [ofFile, hmark] at h
      split at h
      · rename_i heq
        subst heq
        exact ⟨ms, rfl, mark?_obj_iff.mp hmark, h⟩
      · cases h
  | _ => cases h

/-- The mark that a file has to bear is one that a pasted object may bear. -/
theorem ofPasted_marked (htype : ms.lookup "type" = some (.str formatMark)) :
    ofPasted (.obj ms) = ofMarked (.obj ms) := by
  rw [ofPasted, mark?_obj_iff.mpr htype]
  exact if_pos rfl

/-- **A file can be pasted.** The text of a file that is a list of apps is the same list. -/
theorem parseText_of_parseFile (htext : Text.ofBytes? contents = some text)
    (h : parseFile contents = .ok apps) : parseText text = .ok apps := by
  obtain rfl := Text.ofBytes?_eq_some_iff.mp htext
  cases hread : Json.read (bytes text) with
  | error e =>
    rw [parseFile, hread] at h
    cases h
  | ok v =>
    simp only [parseFile, hread] at h
    obtain ⟨ms, rfl, htype, happs⟩ := of_ofFile h
    -- outside the braces there are only blanks that a file may have as well
    have htrimmed := Json.read_trim_of_obj hread
    simp only [parseText, htrimmed]
    exact (ofPasted_marked htype).trans happs

/-- A file with blanks around the object, a field that nobody reads, a mark that is given twice, an
entry that is an array, and an id that is repeated. -/
def paddedFile : String :=
  "\n \x7b\"type\": 7, \"apps\": [\x7b\"id\": \"app-1\"\x7d, [\"app-2\", null], " ++
    "\x7b\"id\": \"app-1\"\x7d], \"size\": 1.5, \"type\": \"dify_apps\"\x7d\r\n\t"

def paddedApps : List App :=
  [⟨"app-1", "app-1", "", .chat, none⟩, ⟨"app-2", "app-2", "", .chat, none⟩]

theorem parseText_of_parseFile_padded : Text.ofBytes? (bytes paddedFile) = some paddedFile ∧
    parseFile (bytes paddedFile) = .ok paddedApps ∧ parseText paddedFile = .ok paddedApps := by
  have htext := Text.ofBytes?_bytes paddedFile
  have hfile : parseFile (bytes paddedFile) = .ok paddedApps := by decide +kernel
  exact ⟨htext, hfile, parseText_of_parseFile htext hfile⟩

/-! ## Marks -/

/-- What is found under the name of the mark is that of the format, or no text at all. -/
def MarkFits (ms : List (String × Json)) : Prop :=
  ∀ mark, ms.lookup "type" = some (.str mark) → mark = formatMark

theorem ofMarked_eq_ok_iff : ofMarked (.obj ms) = .ok apps ↔
    ∃ v, ms.lookup "apps" = some v ∧ ofEntries v = .ok apps := by
  rw [ofMarked, Json.get?]
  cases ms.lookup "apps" with
  | none => simp
  | some v => simp

theorem ofPasted_of_fits (h : MarkFits ms) : ofPasted (.obj ms) = ofMarked (.obj ms) := by
  cases hmark : mark? (.obj ms) with
  | none => simp only [ofPasted, hmark]
  | some mark =>
    have htype := mark?_obj_iff.mp hmark
    obtain rfl := h mark htype
    exact ofPasted_marked htype

theorem ofPasted_of_wrong {mark : String} (htype : ms.lookup "type" = some (.str mark))
    (hwrong : mark ≠ formatMark) : ofPasted (.obj ms) = .error (.wrongMark mark) := by
  rw [ofPasted, mark?_obj_iff.mpr htype]
  exact if_neg hwrong

/-- What the mark of an object decides: with one that fits, the object is read for its apps, and any
other mark is named by the error. -/
structure Marked (ms : List (String × Json)) (result : Except ListingError (List App)) : Prop where
  accepted_iff : ∀ apps, result = .ok apps ↔
    MarkFits ms ∧ ∃ v, ms.lookup "apps" = some v ∧ ofEntries v = .ok apps
  refused : ∀ mark, ms.lookup "type" = some (.str mark) → mark ≠ formatMark →
    result = .error (.wrongMark mark)

theorem marked_ofPasted (ms : List (String × Json)) : Marked ms (ofPasted (.obj ms)) where
  accepted_iff apps := by
    by_cases hfits : MarkFits ms
    · rw [ofPasted_of_fits hfits, ofMarked_eq_ok_iff, and_iff_right hfits]
    · refine iff_of_false (fun h => hfits fun mark htype => ?_) fun h => hfits h.1
      by_contra hwrong
      rw [ofPasted_of_wrong htype hwrong] at h
      cases h
  refused _ := ofPasted_of_wrong

/-- **A mark must fit if it is a text.** A pasted object with another text for a mark is refused;
one with anything else is read for its apps. -/
theorem parsed_by_mark (hread : Json.read (bytes (Text.trim text)) = .ok (.obj ms)) :
    Marked ms (parseText text) := by
  have hparse : parseText text = ofPasted (.obj ms) := by simp only [parseText, hread]
  rw [hparse]
  exact marked_ofPasted ms

/-- The text of an object, which has no blanks around it. -/
theorem read_trim_compact {ms : List (String × Json)} (hheld : Held (.obj ms))
    (hdepth : (Json.obj ms).depth ≤ Json.maxNesting) :
    Json.read (bytes (Text.trim (Json.compact (.obj ms)))) = .ok (Json.obj ms).reread := by
  rw [Json.compact, Text.trim_eq_self (trimmed_write_obj .compact 0 ms)]
  exact Json.read_write Json.blank_compact hheld 0 hdepth

/-- An object with a mark that fits and, behind it, one that does not. -/
def twiceMarked : Json := .obj [("type", .str formatMark), ("apps", .arr []), ("type", .str "flow")]

theorem parsed_by_mark_twice :
    Json.read (bytes (Text.trim (Json.compact twiceMarked))) =
        .ok (.obj [("apps", .arr []), ("type", .str "flow")]) ∧
      Marked [("apps", .arr []), ("type", .str "flow")] (parseText (Json.compact twiceMarked)) := by
  have hread : Json.read (bytes (Text.trim (Json.compact twiceMarked))) =
      .ok (.obj [("apps", .arr []), ("type", .str "flow")]) :=
    read_trim_compact (by simp) (by decide)
  exact ⟨hread, parsed_by_mark hread⟩

/-- The members of an object whose mark is a number. -/
def numberMarked : List (String × Json) :=
  [("apps", .arr [.obj [("id", .str "app-1")]]), ("type", Json.ofInt 42)]

/-- A mark that is there and does not match is passed over. -/
theorem number_mark_accepted :
    Json.read (bytes (Text.trim (Json.compact (.obj numberMarked)))) = .ok (.obj numberMarked) ∧
      numberMarked.lookup "type" = some (Json.ofInt 42) ∧ Json.ofInt 42 ≠ .str formatMark ∧
      parseText (Json.compact (.obj numberMarked)) = .ok [⟨"app-1", "app-1", "", .chat, none⟩] := by
  have hmark : Held (Json.ofInt 42) := .num (show Json.Number.Whole 42 by decide)
  have hread : Json.read (bytes (Text.trim (Json.compact (.obj numberMarked)))) =
      .ok (.obj numberMarked) := read_trim_compact (by simp [numberMarked, hmark]) (by decide)
  refine ⟨hread, rfl, nofun, ?_⟩
  simp only [parseText, hread]
  rfl

end Workbench.AppList
