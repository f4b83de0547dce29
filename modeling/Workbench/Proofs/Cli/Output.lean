import Workbench.Proofs.Cli.Batch
import Workbench.Proofs.Listing

/-!
# Output for machines

With JSON as its format, the command line writes one document or nothing on the standard output:
conversations and files leave no trace there, and each command prints its result last.

* `Job.Answers`: the job either stops before it prints, or prints a document that can be read and
  succeeds; every command does so that registers nothing;
* `Launch.output_is_document`: a launch writes a document or nothing, a document if it succeeds, and
  if it fails at most the report of a batch in which an app was refused.
-/
namespace Workbench

open Json (Codec Fields Readable depth_optionString)
open Text (bytes)

/-! ## What is printed can be read -/

section Readable

variable {n : Nat}

theorem readable_string (s : String) : Readable n (Codec.string.encode s) := ⟨Nat.zero_le n, .str s⟩

theorem readable_bool (b : Bool) : Readable n (Codec.bool.encode b) := ⟨Nat.zero_le n, .bool b⟩

theorem readable_optionString (o : Option String) : Readable n (Codec.string.option.encode o) :=
  ⟨depth_optionString o n, (optionString_lawful o n).held⟩

theorem App.readable (a : App) : Readable (n + 1) (App.codec.encode a) := by
  refine Json.readable_obj (Fields.forall_mem_encode (P := Readable n) ?_)
  exact ⟨readable_string _, readable_string _, readable_string _, readable_string _,
    readable_optionString _, trivial⟩

theorem readable_apps (apps : List App) : Readable (n + 2) (App.codec.list.encode apps) :=
  Json.readable_arr (List.forall_mem_map.2 fun a _ => a.readable)

theorem RegistrationTask.readable (t : RegistrationTask) :
    Readable (n + 2) (RegistrationTask.codec.encode t) := by
  have hstatus : Readable (n + 1) (TaskStatus.codec.encode t.status) := by
    cases t.status with
    | failed reason =>
      exact Json.readable_obj (List.forall_mem_singleton.2 (readable_string reason))
    | _ => exact readable_string _
  refine Json.readable_obj (Fields.forall_mem_encode (P := Readable (n + 1)) ?_)
  exact ⟨t.app.readable, hstatus, trivial⟩

theorem RegistrationReport.readable (r : RegistrationReport) :
    Readable (n + 4) (RegistrationReport.codec.encode r) := by
  refine Json.readable_obj (Fields.forall_mem_encode (P := Readable (n + 3)) ?_)
  exact ⟨Json.readable_arr (List.forall_mem_map.2 fun t _ => t.readable), trivial⟩

theorem Action.readable (a : Action) : Readable (n + 1) (Action.codec.encode a) := by
  cases a with
  | custom id => exact Json.readable_obj (List.forall_mem_singleton.2 (readable_string id))
  | _ => exact readable_string _

theorem Entry.readable (e : Entry) : Readable (n + 2) (Entry.codec.encode e) := by
  refine Json.readable_obj (Fields.forall_mem_encode (P := Readable (n + 1)) ?_)
  exact ⟨e.action.readable, readable_string _, readable_bool _, readable_bool _, trivial⟩

theorem Menu.readable (m : Menu) : Readable (n + 4) (Menu.codec.encode m) := by
  have hcontrol : Readable (n + 3) (Control.codec.encode m.control) := by
    refine Json.readable_obj (Fields.forall_mem_encode (P := Readable (n + 2)) ?_)
    exact ⟨m.control.copy.readable, m.control.delete.readable, trivial⟩
  refine Json.readable_obj (Fields.forall_mem_encode (P := Readable (n + 3)) ?_)
  exact ⟨Json.readable_arr (List.forall_mem_map.2 fun e _ => e.readable), hcontrol, trivial⟩

theorem EditTarget.readable (e : EditTarget) : Readable (n + 1) (EditTarget.codec.encode e) := by
  refine Json.readable_obj (Fields.forall_mem_encode (P := Readable n) ?_)
  exact ⟨readable_string _, readable_string _, readable_string _, readable_string _,
    readable_optionString _, readable_optionString _, readable_string _, trivial⟩

namespace Cli

theorem ActionResult.readable (a : ActionResult) : Readable (n + 2) a.toJson := by
  have hmember : ∀ (name : String) (v : Option Json), (∀ x ∈ v, Readable (n + 1) x) →
      ∀ m ∈ v.toList.map fun v => (name, v), Readable (n + 1) m.2 := by
    intro name v hv m hm
    obtain ⟨x, hx, rfl⟩ := List.mem_map.1 hm
    exact hv x (Option.mem_toList.1 hx)
  have hstring : ∀ (o : Option String), ∀ x ∈ o.map Json.str, Readable (n + 1) x := by
    intro o x hx
    obtain ⟨s, -, rfl⟩ := Option.mem_map.1 hx
    exact readable_string s
  refine Json.readable_obj (List.forall_mem_cons.2 ⟨readable_string _, fun m hm => ?_⟩)
  rcases List.mem_append.1 hm with hm | hm
  · rcases List.mem_append.1 hm with hm | hm
    · refine hmember _ _ (fun x hx => ?_) m hm
      obtain ⟨e, -, rfl⟩ := Option.mem_map.1 hx
      exact e.readable
    · exact hmember _ _ (hstring _) m hm
  · exact hmember _ _ (hstring _) m hm

theorem Settings.readable (s : Settings) : Readable (n + 2) (Settings.codec.encode s) := by
  have hbackend : Readable (n + 1) (BackendSettings.codec.encode s.backend) := by
    refine Json.readable_obj (Fields.forall_mem_encode (P := Readable n) ?_)
    exact ⟨readable_string _, readable_optionString _, readable_optionString _,
      ⟨Nat.zero_le n, (Json.uint64_lawful _ n).held⟩, trivial⟩
  have huser : Readable (n + 1) (UserSettings.codec.encode s.user) := by
    refine Json.readable_obj (Fields.forall_mem_encode (P := Readable n) ?_)
    exact ⟨readable_optionString _, readable_optionString _, trivial⟩
  have hflags : Readable (n + 1) (Flags.codec.encode s.flags) := by
    refine Json.readable_obj (Fields.forall_mem_encode (P := Readable n) ?_)
    exact ⟨readable_bool _, readable_bool _, readable_bool _, readable_bool _, trivial⟩
  have hhost : Readable (n + 1) (HostSettings.codec.encode s.host) := by
    refine Json.readable_obj (Fields.forall_mem_encode (P := Readable n) ?_)
    exact ⟨readable_optionString _, readable_optionString _, readable_string _, trivial⟩
  refine Json.readable_obj (Fields.forall_mem_encode (P := Readable (n + 1)) ?_)
  exact ⟨readable_optionString _, hbackend, huser, hflags, hhost, trivial⟩

end Cli

end Readable

namespace Cli

open Dialogue (Yields)

/-! ## Jobs that print last -/

/-- A job stopped before it has printed anything, or printed a document and succeeded. -/
inductive Answered (t : Trail) : Except Error Unit → Prop
  | stopped (e : Error) (output : t.output = "") : Answered t (.error e)
  | document {v : Json} (hv : Readable Json.maxNesting v)
      (output : t.output = Json.pretty v ++ "\n") : Answered t (.ok ())

/-- The job answers with a document, unless it stops. -/
def Job.Answers (j : Job Unit) : Prop := ∀ {t r}, Yields j.run t r → Answered t r

namespace Job

theorem answers_throw (e : Error) : Answers (throw e) := by
  intro t r h
  obtain ⟨rfl, rfl⟩ := yields_throw.1 h
  exact .stopped e rfl

theorem answers_printJson {v : Json} (hv : Readable Json.maxNesting v) : Answers (printJson v) := by
  intro t r h
  obtain ⟨hout, -, rfl⟩ := output_print h
  exact .document hv hout

/-- What comes before the answer is silent. -/
theorem answers_bind {α : Type} {stage : Job α} {rest : α → Job Unit}
    (hsilent : stage.run.Only Call.IsSilent) (hrest : ∀ a, (rest a).Answers) :
    (stage >>= rest).Answers := by
  intro t r h
  rcases yields_bind.1 h with ⟨e, hstage, rfl⟩ | ⟨t₁, t₂, a, rfl, hstage, h⟩
  · exact .stopped e (Trail.output_of_silent (hsilent.of_yields hstage))
  · have hout : Trail.output (t₁ ++ t₂) = t₂.output := by
      rw [Trail.output_append, Trail.output_of_silent (hsilent.of_yields hstage),
        String.empty_append]
    cases hrest a h with
    | stopped e output => exact .stopped e (hout.trans output)
    | document hv output => exact .document hv (hout.trans output)

theorem silent_converse {α : Type} (s : Surroundings) (t : Talk α) :
    (Job.of (converse s t)).run.Only Call.IsSilent := only_of (converse_silent s t)

theorem silent_of_idle {α : Type} {j : Job α} (h : j.run.Only Call.IsIdle) :
    j.run.Only Call.IsSilent := h.mono fun _ => Call.IsIdle.isSilent

theorem silent_files {α : Type} (s : Files.Session α) :
    (Job.of (Session.ofFiles s)).run.Only Call.IsSilent :=
  silent_of_idle (only_of (ofFiles_idle s))

end Job

open Job

theorem silent_checkBackend (s : Settings) : (checkBackend s).run.Only Call.IsSilent :=
  only_bind only_get fun _ => Dialogue.only_pure _

theorem silent_requireSpace (s : Settings) (spaceId : Option String) :
    (requireSpace s spaceId).run.Only Call.IsSilent := by
  unfold requireSpace
  split
  · split <;> exact Dialogue.only_pure _
  · exact Dialogue.only_pure _

theorem silent_loadRecord (path : String) : (loadRecord path).run.Only Call.IsSilent :=
  only_bind (silent_files _) fun _ => only_bind only_get fun _ => only_get

/-! ## The commands -/

theorem showMenu_answers (s : Settings) (record : String) (userId : Option String) :
    (showMenu s .json record userId).Answers :=
  answers_bind (silent_loadRecord record) fun _ => answers_printJson (Menu.readable _)

theorem exportTo_answers (s : Settings) (now : Instant) (id : String) (spaceId : Option String)
    (name : String) (outDir : Option String) :
    (exportTo s .json now id spaceId name outDir).Answers := by
  refine answers_bind (silent_requireSpace s spaceId) fun _ =>
    answers_bind (silent_checkBackend s) fun _ => answers_bind (silent_converse _ _) fun path => ?_
  cases path with
  | none => exact answers_throw _
  | some path =>
    refine answers_printJson (Json.readable_obj ?_)
    exact List.forall_mem_cons.2
      ⟨readable_string path, List.forall_mem_singleton.2 (readable_string id)⟩

theorem importFrom_answers (s : Settings) (now : Instant) (file : String)
    (spaceId : Option String) : (importFrom s .json now file spaceId).Answers := by
  refine answers_bind (silent_requireSpace s spaceId) fun space =>
    answers_bind (silent_checkBackend s) fun _ =>
      answers_bind (silent_converse _ _) fun created => ?_
  cases created with
  | none => exact answers_throw _
  | some created =>
    refine answers_printJson (Json.readable_obj ?_)
    exact List.forall_mem_cons.2
      ⟨readable_string space, List.forall_mem_singleton.2 (readable_string created)⟩

theorem runAction_answers (s : Settings) (now : Instant) (word record : String)
    (userId file outDir : Option String) :
    (runAction s .json now word record userId file outDir).Answers := by
  unfold runAction
  dsimp only
  split
  · exact answers_throw _
  · refine answers_bind (silent_loadRecord record) fun r =>
      answers_bind (silent_checkBackend s) fun _ => answers_bind (silent_converse _ _) fun _ =>
        answers_bind only_get fun outcome => answers_bind ?_ fun _ =>
          answers_printJson (ActionResult.readable _)
    unfold actionResult
    split <;> exact Dialogue.only_pure _

theorem scanHost_answers (s : Settings) (h : HostArguments) : (scanHost s .json h).Answers :=
  answers_bind (silent_of_idle (scannedPage_idle s h)) fun _ => answers_printJson (readable_apps _)

theorem importApps_answers (s : Settings) (a : ImportArguments) (h : a.register = false) :
    (importApps s .json a).Answers := by
  rw [importApps_eq]
  refine answers_bind (silent_of_idle (chosenList_idle s a)) fun apps => ?_
  rw [h]
  exact answers_printJson (readable_apps apps)

theorem showSettings_answers (s : Settings) : (showSettings s .json).Answers :=
  answers_printJson (Settings.readable _)

theorem settingsPath_answers (path : Option String) : (settingsPath path .json).Answers := by
  cases path with
  | none => exact answers_throw _
  | some path =>
    refine answers_bind (silent_files _) fun isThere => answers_printJson (Json.readable_obj ?_)
    exact List.forall_mem_cons.2
      ⟨readable_bool isThere, List.forall_mem_singleton.2 (readable_string path)⟩

/-! ## Launches -/

/-- The command has something to tell in JSON. -/
def Command.Tells : Command → Prop
  | .completions _ | .initSettings _ => False
  | _ => True

theorem execute_answers (s : Settings) (path : Option String) (now : Instant) {i : Invocation}
    (hformat : i.format = .json) (htells : i.command.Tells) (hprints : ¬i.command.Registers) :
    (execute s path now i).Answers := by
  unfold execute
  rw [hformat]
  cases hcommand : i.command with
  | completions | initSettings =>
    rw [hcommand] at htells
    exact htells.elim
  | registerApps =>
    rw [hcommand] at hprints
    exact absurd trivial hprints
  | showMenu record userId => exact showMenu_answers s record userId
  | runAction word record userId file outDir =>
    exact runAction_answers s now word record userId file outDir
  | exportWorkflow id spaceId name outDir => exact exportTo_answers s now id spaceId name outDir
  | importWorkflow file spaceId => exact importFrom_answers s now file spaceId
  | scanHost h => exact scanHost_answers s h
  | importApps a =>
    rw [hcommand] at hprints
    exact importApps_answers s a (Bool.eq_false_iff.2 hprints)
  | showSettings => exact showSettings_answers s
  | settingsPath => exact settingsPath_answers path

namespace Launch

variable {σ : Type} (o : Launch σ) {i : Invocation}

/-- The output is a document with a line break behind it. -/
def IsDocument (output : String) (v : Json) : Prop :=
  output = Json.pretty v ++ "\n" ∧ Json.read (bytes (Json.pretty v)) = .ok v.reread

theorem isDocument_of_readable {v : Json} (hv : Readable Json.maxNesting v) :
    IsDocument (Json.pretty v ++ "\n") v :=
  ⟨rfl, Json.read_write Json.blank_pretty hv.held 0 hv.depth_le⟩

theorem IsDocument.ne_empty {output : String} {v : Json} (h : IsDocument output v) :
    output ≠ "" := by
  rw [h.1]
  intro hempty
  have hlist := congrArg String.toList hempty
  rw [String.toList_append] at hlist
  exact List.append_ne_nil_of_right_ne_nil _ (by decide) hlist

/-- What a launch with JSON as its format leaves on the standard output. -/
structure WritesDocument (i : Invocation) : Prop where
  status_cases : o.status = 0 ∨ o.status = 1
  output_cases : o.output = "" ∨ ∃ v, IsDocument o.output v
  of_success : o.status = 0 → o.output ≠ ""
  /-- A failed launch has written nothing but the report of a batch in which an app was refused. -/
  of_failure : o.status = 1 → o.output ≠ "" → i.command.Registers ∧
    ∃ b : Course, b.refused ≠ none ∧ o.chosen i = .ok b.apps ∧
      IsDocument o.output (RegistrationReport.codec.encode ⟨b.tasks⟩)

/-- **One document or nothing.** -/
theorem output_is_document (h : o.AsksFor i) (hformat : i.format = .json)
    (htells : i.command.Tells) : o.WritesDocument i := by
  by_cases hregisters : i.command.Registers
  · rcases o.takes_or_unable h hregisters with ⟨b, htakes⟩ | hunable
    · have hreport : IsDocument o.output (RegistrationReport.codec.encode ⟨b.tasks⟩) := by
        rw [htakes.output, hformat]
        exact isDocument_of_readable (RegistrationReport.readable _)
      refine ⟨?_, .inr ⟨_, hreport⟩, fun _ => hreport.ne_empty, fun hstatus _ => ?_⟩
      · rw [htakes.status]
        split
        · exact .inl rfl
        · exact .inr rfl
      · refine ⟨hregisters, b, fun hrefused => ?_, htakes.chosen, hreport⟩
        rw [htakes.status, if_pos hrefused] at hstatus
        cases hstatus
    · exact ⟨.inr hunable.status, .inl hunable.output,
        fun hstatus => (nomatch hunable.status.symm.trans hstatus),
        fun _ hne => absurd hunable.output hne⟩
  · obtain ⟨t, r, hyields, hout, -, hstatus⟩ := o.exists_yields_job h
    cases execute_answers (o.settings i) (o.place i) o.now hformat htells hregisters hyields with
    | stopped e output =>
      exact ⟨.inr hstatus, .inl (hout.trans output),
        fun hzero => (nomatch hstatus.symm.trans hzero),
        fun _ hne => absurd (hout.trans output) hne⟩
    | document hv output =>
      have hdocument : IsDocument o.output _ := hout.trans output ▸ isDocument_of_readable hv
      exact ⟨.inl hstatus, .inr ⟨_, hdocument⟩, fun _ => hdocument.ne_empty,
        fun hone => nomatch hstatus.symm.trans hone⟩

end Launch

/-- A launch that shows the settings as JSON. -/
def showingSettings : Launch Unit where
  env := fun _ => none
  now := ⟨0, 0⟩
  arguments := ["--format", "json", "config", "show"]
  peer := steady (fun _ => none) fun _ => none
  start := ()

/-- A launch with a batch that is refused, to be told in JSON. -/
def pastingJson : Launch Unit :=
  { pasting with arguments := "--format" :: "json" :: pasting.arguments }

def pastingJsonInvocation : Invocation := { pastingInvocation with format := .json }

/-- The settings are a document, and so is the report of a batch that has failed. -/
theorem output_is_document_showing :
    showingSettings.WritesDocument ⟨none, none, none, false, .json, .showSettings⟩ ∧
      pastingJson.status = 1 ∧ ∃ b : Course, b.refused ≠ none ∧
        pastingJson.chosen pastingJsonInvocation = .ok b.apps ∧
          Launch.IsDocument pastingJson.output (RegistrationReport.codec.encode ⟨b.tasks⟩) := by
  have hfailed : pastingJson.status = 1 := by decide +kernel
  have hwritten : pastingJson.output ≠ "" := by decide +kernel
  have hdocument := Launch.output_is_document pastingJson
    (show pastingJson.AsksFor pastingJsonInvocation from rfl) rfl trivial
  obtain ⟨-, hbatch⟩ := hdocument.of_failure hfailed hwritten
  exact ⟨Launch.output_is_document _ rfl rfl trivial, hfailed, hbatch⟩

end Cli

end Workbench
