import Workbench.Proofs.Text.Blank
import Workbench.Proofs.Transfer.Run

/-!
# What an export asks for, saves and shows

An export needs both ids of the row. With them the backend is asked once for the workflow, and if it
has one, the document of the workflow is saved once. The user is shown where; whatever goes wrong on
the way leaves nothing to show.

* `Saving.asks`, `Saving.shows_iff`: the two facts about the line of calls behind an export;
* `export_steps`: the calls and the result of an export, for every row and against any peer.
-/
namespace Workbench

open Dialogue (Exchange Peer Yields)
open Workflow (Detail Document)

variable {spaceId workflowId path : String} {exportedBy : Option String} {now : Instant} {log : Log}
  {r : Resource}

/-- What is said after the backend has been asked for a workflow: if there is one, its document is
saved under the name that goes with it. -/
def SavedAfter (spaceId : String) (exportedBy : Option String) (now : Instant) :
    Except ApiError (Option Detail) → Log → Prop
  | .ok (some d), rest => ∃ answer, rest =
      [⟨.download (Document.fileName d.name d.workflowId) (Text.bytes
          (Document.codec.prettyText (.ofDetail d (some spaceId) exportedBy now))), answer⟩]
  | .ok none, rest => rest = []
  | .error _, rest => rest = []

/-- A file was saved, and this is its path. -/
def Log.SavedAs (log : Log) (path : String) : Prop :=
  ∃ name contents, (⟨.download name contents, .ok path⟩ : Exchange Call Call.Reply) ∈ log

namespace Log

theorem savedAs_detail_cons {reply : Except ApiError (Option Detail)} :
    SavedAs (⟨.detail spaceId workflowId, reply⟩ :: log) path ↔ log.SavedAs path := by
  constructor
  · rintro ⟨name, contents, hmem⟩
    rcases List.mem_cons.mp hmem with heq | hmem
    · cases heq
    · exact ⟨name, contents, hmem⟩
  · rintro ⟨name, contents, hmem⟩
    exact ⟨name, contents, List.mem_cons_of_mem _ hmem⟩

theorem savedAs_download {name : String} {contents : List UInt8} {answer : Except String String} :
    SavedAs [⟨.download name contents, answer⟩] path ↔ answer = .ok path := by
  constructor
  · rintro ⟨_, _, hmem⟩
    cases List.mem_singleton.mp hmem
    rfl
  · rintro rfl
    exact ⟨name, contents, List.mem_singleton_self _⟩

theorem not_savedAs_nil : ¬SavedAs [] path := by
  rintro ⟨_, _, hmem⟩
  cases hmem

end Log

namespace Saving

variable {result : Except TransferError (Option String)}

theorem asks (h : Saving spaceId workflowId exportedBy now log result) :
    ∃ reply rest, log = ⟨.detail spaceId workflowId, reply⟩ :: rest ∧
      SavedAfter spaceId exportedBy now reply rest := by
  cases h with
  | failed e => exact ⟨.error e, [], rfl, rfl⟩
  | absent => exact ⟨.ok none, [], rfl, rfl⟩
  | notSaved d message => exact ⟨.ok (some d), _, rfl, .error message, rfl⟩
  | saved d path => exact ⟨.ok (some d), _, rfl, .ok path, rfl⟩

/-- There is a path to show exactly if a file was saved, and it is the path of this file. -/
theorem shows_iff (h : Saving spaceId workflowId exportedBy now log result) :
    savedPath result = some path ↔ log.SavedAs path := by
  cases h with
  | failed e => simp [savedPath, Log.savedAs_detail_cons, Log.not_savedAs_nil]
  | absent => simp [savedPath, Log.savedAs_detail_cons, Log.not_savedAs_nil]
  | notSaved d message => simp [savedPath, Log.savedAs_detail_cons, Log.savedAs_download]
  | saved d path' => simp [savedPath, Log.savedAs_detail_cons, Log.savedAs_download]

end Saving

/-- The calls of an export and its result. -/
structure Exporting (r : Resource) (exportedBy : Option String) (now : Instant) (log : Log)
    (shown : Option String) : Prop where
  unaddressed : r.id = none ∨ r.id = some "" ∨ r.spaceId = none ∨ r.spaceId = some "" →
    log = [] ∧ shown = none
  addressed : ∀ {workflowId spaceId}, r.id = some workflowId → workflowId ≠ "" →
    r.spaceId = some spaceId → spaceId ≠ "" →
    ∃ reply rest, log = ⟨.detail spaceId workflowId, reply⟩ :: rest ∧
      SavedAfter spaceId exportedBy now reply rest
  shows_iff : ∀ path, shown = some path ↔ log.SavedAs path

theorem yields_exportWorkflow_steps {shown : Option String}
    (h : Yields (exportWorkflow r exportedBy now) log shown) :
    Exporting r exportedBy now log shown := by
  rcases yields_exportWorkflow h with
    ⟨hids, rfl, rfl⟩ | ⟨workflowId, spaceId, result, hid, hspace, hsave, rfl⟩
  · rw [Text.nonEmpty_eq_none_iff, Text.nonEmpty_eq_none_iff] at hids
    refine ⟨fun _ => ⟨rfl, rfl⟩, ?_, fun path => ?_⟩
    · intro workflowId spaceId hid hidne hspace hspacene
      simp [hid, hidne, hspace, hspacene] at hids
    · simp [Log.not_savedAs_nil]
  · obtain ⟨hid, hidne⟩ := Text.nonEmpty_eq_some_iff.mp hid
    obtain ⟨hspace, hspacene⟩ := Text.nonEmpty_eq_some_iff.mp hspace
    refine ⟨?_, ?_, fun path => hsave.shows_iff⟩
    · intro hnone
      simp [hid, hidne, hspace, hspacene] at hnone
    · intro workflowId' spaceId' hid' _ hspace' _
      obtain rfl := Option.some.inj (hid.symm.trans hid')
      obtain rfl := Option.some.inj (hspace.symm.trans hspace')
      exact hsave.asks

/-- **An export asks once, saves at most once, and shows what was saved.** The backend and the place
of the downloads may answer as they like, and nothing they answer is raised as an error. -/
theorem export_steps {σ : Type} (r : Resource) (exportedBy : Option String) (now : Instant)
    (peer : Peer Call Call.Reply σ) (s : σ) :
    Exporting r exportedBy now ((exportWorkflow r exportedBy now).exchanges peer s)
      ((exportWorkflow r exportedBy now).transcript peer s).1 :=
  yields_exportWorkflow_steps (Dialogue.yields_transcript peer _ s)

end Workbench
