import Workbench.Apps.Registration
import Workbench.Backend
import Workbench.Proofs.Json.Lawful

/-!
# The data model survives its texts

Every type that travels as JSON has a lawful codec, so that what it writes is read as it was. What
is left to the value are the parts of a type that are association lists, which the reader sorts by
name: the parameters of a plugin, and the value of a graph. The latter must also do without floats,
which come back as what their shortest decimals are read as.

* `Resource.lawful` and so on: one lemma for each type, with the levels that it opens;
* `models_lossless`: the texts of all types.
-/
namespace Workbench

open Json (Codec Field Fields SortedNames)
open Json (string_lawful bool_lawful int64_lawful int32_lawful uint64_lawful any_lawful
  lenient_lawful option_lawful list_lawful dictionary_lawful plain_lawful text_lawful
  record_lawful)

/-! ## Optional parts -/

theorem optionString_lawful (o : Option String) (n : Nat) : Codec.string.option.LawfulAt n o :=
  option_lawful fun s _ => ⟨string_lawful s n, rfl⟩

theorem optionInt64_lawful (o : Option Int64) (n : Nat) : Codec.int64.option.LawfulAt n o :=
  option_lawful fun i _ => ⟨int64_lawful i n, rfl⟩

/-- A part that is absent for nothing, also when written. -/
theorem unwritten_lawful {α : Type} {c : Codec α} {o : Option α} {n : Nat} (name : String)
    (h : c.option.LawfulAt n o) : (Field.unwritten name c).LawfulAt n o := by
  cases o with
  | none => exact .inr rfl
  | some a => exact h

/-! ## Resources and their menus -/

theorem ResourceKind.lawful (k : ResourceKind) (n : Nat) : ResourceKind.codec.LawfulAt n k := by
  cases k <;> exact plain_lawful rfl rfl n

theorem FlowMode.lawful (m : FlowMode) (n : Nat) : FlowMode.codec.LawfulAt n m := by
  cases m <;> exact plain_lawful rfl rfl n

theorem ActionKey.lawful (k : ActionKey) (n : Nat) : ActionKey.codec.LawfulAt n k := by
  cases k <;> exact plain_lawful rfl rfl n

theorem Permission.lawful (p : Permission) (n : Nat) : Permission.codec.LawfulAt (n + 1) p := by
  apply record_lawful (by decide) rfl
  exact ⟨p.key.lawful n, bool_lawful p.enable n, trivial⟩

theorem Resource.lawful (r : Resource) (n : Nat) : Resource.codec.LawfulAt (n + 3) r := by
  have hstring (o : Option String) := optionString_lawful o (n + 2)
  have hpermissions : Permission.codec.list.LawfulAt (n + 2) r.permissions :=
    list_lawful fun p _ => p.lawful n
  apply record_lawful (by decide) rfl
  exact ⟨hstring _, hstring _, string_lawful _ _, string_lawful _ _, hstring _, hstring _,
    r.kind.lawful _, r.mode.lawful _, hstring _, hpermissions, hstring _, trivial⟩

/-- A status is read from its name, which is no code. -/
theorem DraftStatus.ofJson_encode (s : DraftStatus) :
    DraftStatus.ofJson (DraftStatus.codec.encode s).reread = s := by
  cases s <;> decide

theorem Extension.idOfJson_encode (id : UInt64) :
    Extension.idOfJson (Codec.uint64.encode id).reread = id := by
  have hbounds := Json.uint64_bounds id
  have hrange : 0 ≤ (id.toNat : Int) ∧ (id.toNat : Int) < 0x10000000000000000 := by omega
  show Extension.idOfJson (.num (.int id.toNat)) = id
  rw [Extension.idOfJson_int, if_pos hrange]
  exact UInt64.ofNat_toNat

theorem Extension.lawful (e : Extension) (n : Nat) : Extension.codec.LawfulAt (n + 1) e := by
  have hid := (uint64_lawful e.pluginId n).held
  apply record_lawful (by decide) rfl
  exact ⟨lenient_lawful (.str _) (Nat.zero_le n) e.draftStatus.ofJson_encode,
    lenient_lawful hid (Nat.zero_le n) (Extension.idOfJson_encode e.pluginId), trivial⟩

theorem Flags.lawful (f : Flags) (n : Nat) : Flags.codec.LawfulAt (n + 1) f := by
  apply record_lawful (by decide) rfl
  exact ⟨bool_lawful _ n, bool_lawful _ n, bool_lawful _ n, bool_lawful _ n, trivial⟩

theorem Viewer.lawful (v : Viewer) (n : Nat) : Viewer.codec.LawfulAt (n + 2) v := by
  apply record_lawful (by decide) rfl
  exact ⟨string_lawful _ _, v.flags.lawful n, trivial⟩

/-- An action of the front end carries its id, whatever that is. -/
theorem Action.lawful (a : Action) (n : Nat) : Action.codec.LawfulAt (n + 1) a := by
  cases a with
  | custom id => exact text_lawful rfl rfl rfl n
  | _ => exact plain_lawful rfl rfl (n + 1)

theorem Entry.lawful (e : Entry) (n : Nat) : Entry.codec.LawfulAt (n + 2) e := by
  apply record_lawful (by decide) rfl
  exact ⟨e.action.lawful n, string_lawful _ _, bool_lawful _ _, bool_lawful _ _, trivial⟩

theorem Control.lawful (c : Control) (n : Nat) : Control.codec.LawfulAt (n + 3) c := by
  apply record_lawful (by decide) rfl
  exact ⟨c.copy.lawful n, c.delete.lawful n, trivial⟩

theorem Menu.lawful (m : Menu) (n : Nat) : Menu.codec.LawfulAt (n + 4) m := by
  apply record_lawful (by decide) rfl
  exact ⟨list_lawful fun e _ => e.lawful n, m.control.lawful n, trivial⟩

theorem EditTarget.lawful (e : EditTarget) (n : Nat) : EditTarget.codec.LawfulAt (n + 1) e := by
  apply record_lawful (by decide) rfl
  exact ⟨string_lawful _ n, string_lawful _ n, string_lawful _ n, string_lawful _ n,
    optionString_lawful _ n, optionString_lawful _ n, e.mode.lawful n, trivial⟩

/-! ## Apps -/

theorem AppKind.lawful (k : AppKind) (n : Nat) : AppKind.codec.LawfulAt n k := by
  cases k <;> exact plain_lawful rfl rfl n

theorem App.lawful (a : App) (n : Nat) : App.codec.LawfulAt (n + 1) a := by
  have hendpoint := unwritten_lawful "endpoint" (optionString_lawful a.endpoint n)
  apply record_lawful (by decide) rfl
  exact ⟨string_lawful _ n, string_lawful _ n, string_lawful _ n, a.kind.lawful n, hendpoint,
    trivial⟩

theorem Connection.lawful (c : Connection) (n : Nat) : Connection.codec.LawfulAt (n + 1) c := by
  apply record_lawful (by decide) rfl
  exact ⟨string_lawful _ n, string_lawful _ n, trivial⟩

theorem ImportedApp.lawful (i : ImportedApp) (n : Nat) : ImportedApp.codec.LawfulAt (n + 2) i := by
  apply record_lawful (by decide) rfl
  exact ⟨i.app.lawful n, string_lawful _ _, int64_lawful _ _, trivial⟩

theorem AppList.lawful (d : AppList) (n : Nat) : AppList.codec.LawfulAt (n + 3) d := by
  have happs : App.codec.list.LawfulAt (n + 2) d.apps := list_lawful fun a _ => a.lawful n
  apply record_lawful (by decide) rfl
  exact ⟨string_lawful _ _, optionString_lawful _ _, happs, trivial⟩

theorem AppInfo.lawful (i : AppInfo) (n : Nat) : AppInfo.codec.LawfulAt (n + 2) i := by
  have htags : Codec.string.list.LawfulAt (n + 1) i.tags := list_lawful fun s _ => string_lawful s n
  apply record_lawful (by decide) rfl
  exact ⟨string_lawful _ _, string_lawful _ _, htags, trivial⟩

theorem PluginParam.lawful (p : PluginParam) (n : Nat) :
    PluginParam.codec.LawfulAt (n + 1) p := by
  apply record_lawful (by decide) rfl
  exact ⟨string_lawful _ n, string_lawful _ n, trivial⟩

theorem PluginIcon.lawful (i : PluginIcon) (n : Nat) : PluginIcon.codec.LawfulAt (n + 1) i := by
  apply record_lawful (by decide) rfl
  exact ⟨string_lawful _ n, trivial⟩

/-- The parameters have to be in order. -/
theorem PluginMeta.lawful {m : PluginMeta} (hparams : SortedNames m.commonParams) (n : Nat) :
    PluginMeta.codec.LawfulAt (n + 4) m := by
  have hint (i : Int32) := int32_lawful i (n + 3)
  have hstring (s : String) := string_lawful s (n + 3)
  have htypes : Codec.int32.list.LawfulAt (n + 3) m.authType :=
    list_lawful fun i _ => int32_lawful i (n + 2)
  have hparams : PluginParam.codec.list.dictionary.LawfulAt (n + 3) m.commonParams :=
    dictionary_lawful hparams fun params _ => list_lawful fun p _ => p.lawful n
  have hspace := unwritten_lawful "space_id" (optionString_lawful m.spaceId (n + 3))
  apply record_lawful (by decide) rfl
  exact ⟨hstring _, hstring _, hstring _, m.icon.lawful (n + 2), hint _, hint _, htypes, hint _,
    hint _, hstring _, hstring _, hparams, hspace, trivial⟩

theorem TaskStatus.lawful (s : TaskStatus) (n : Nat) : TaskStatus.codec.LawfulAt (n + 1) s := by
  cases s with
  | failed reason => exact text_lawful rfl rfl rfl n
  | _ => exact plain_lawful rfl rfl (n + 1)

theorem RegistrationTask.lawful (t : RegistrationTask) (n : Nat) :
    RegistrationTask.codec.LawfulAt (n + 2) t := by
  apply record_lawful (by decide) rfl
  exact ⟨t.app.lawful n, t.status.lawful n, trivial⟩

theorem RegistrationReport.lawful (r : RegistrationReport) (n : Nat) :
    RegistrationReport.codec.LawfulAt (n + 4) r := by
  apply record_lawful (by decide) rfl
  exact ⟨list_lawful fun t _ => t.lawful n, trivial⟩

/-! ## Workflows -/

theorem Workflow.Creator.lawful (c : Workflow.Creator) (n : Nat) :
    Workflow.Creator.codec.LawfulAt (n + 1) c := by
  apply record_lawful (by decide) rfl
  exact ⟨optionString_lawful _ n, optionString_lawful _ n, trivial⟩

theorem Workflow.Detail.lawful (d : Workflow.Detail) (n : Nat) :
    Workflow.Detail.codec.LawfulAt (n + 2) d := by
  have hstring (o : Option String) := optionString_lawful o (n + 1)
  have htime (o : Option Int64) := optionInt64_lawful o (n + 1)
  apply record_lawful (by decide) rfl
  exact ⟨string_lawful _ _, string_lawful _ _, string_lawful _ _, hstring _, hstring _, htime _,
    htime _, d.creator.lawful n, d.mode.lawful _, hstring _, hstring _, trivial⟩

theorem NewWorkflow.lawful (w : NewWorkflow) (n : Nat) : NewWorkflow.codec.LawfulAt (n + 1) w := by
  have hicon := unwritten_lawful "icon_uri" (optionString_lawful w.iconUri n)
  apply record_lawful (by decide) rfl
  exact ⟨string_lawful _ n, string_lawful _ n, string_lawful _ n, hicon, w.mode.lawful n, trivial⟩

theorem Workflow.Origin.lawful (o : Workflow.Origin) (n : Nat) :
    Workflow.Origin.codec.LawfulAt (n + 1) o := by
  apply record_lawful (by decide) rfl
  exact ⟨string_lawful _ n, optionString_lawful _ n, optionString_lawful _ n,
    optionString_lawful _ n, trivial⟩

/-- The value of the graph stands one level below the document. -/
theorem Workflow.Document.lawful {d : Workflow.Document} {n : Nat} (hordered : d.schema.Ordered)
    (hintegral : d.schema.Integral) (hdepth : d.schema.depth ≤ n + 1) :
    Workflow.Document.codec.LawfulAt (n + 2) d := by
  have hstring (o : Option String) := optionString_lawful o (n + 1)
  have htime (o : Option Int64) := optionInt64_lawful o (n + 1)
  have hschema := any_lawful hintegral.held (Json.reread_eq_self hordered hintegral) hdepth
  have horigin : Workflow.Origin.codec.option.LawfulAt (n + 1) d.origin :=
    option_lawful fun o _ => ⟨o.lawful n, rfl⟩
  apply record_lawful (by decide) rfl
  exact ⟨string_lawful _ _, string_lawful _ _, string_lawful _ _, string_lawful _ _,
    string_lawful _ _, hstring _, hstring _, htime _, htime _, hstring _, hstring _,
    d.mode.lawful _, hstring _, hschema, hstring _, horigin, trivial⟩

/-! ## Settings -/

theorem BackendSettings.lawful (s : BackendSettings) (n : Nat) :
    BackendSettings.codec.LawfulAt (n + 1) s := by
  apply record_lawful (by decide) rfl
  exact ⟨string_lawful _ n, optionString_lawful _ n, optionString_lawful _ n,
    uint64_lawful _ n, trivial⟩

/-! ## All types -/

/-- **The data model survives its texts.** The parameters of a plugin and the members of a graph are
in order, as in all that is read; a graph has no floats and leaves room for the document around
it. -/
theorem models_lossless :
    (∀ r, Resource.codec.Lossless r) ∧
    (∀ e, Extension.codec.Lossless e) ∧
    (∀ f, Flags.codec.Lossless f) ∧
    (∀ v, Viewer.codec.Lossless v) ∧
    (∀ a, Action.codec.Lossless a) ∧
    (∀ e, Entry.codec.Lossless e) ∧
    (∀ m, Menu.codec.Lossless m) ∧
    (∀ e, EditTarget.codec.Lossless e) ∧
    (∀ a, App.codec.Lossless a) ∧
    (∀ c, Connection.codec.Lossless c) ∧
    (∀ i, ImportedApp.codec.Lossless i) ∧
    (∀ d, AppList.codec.Lossless d) ∧
    (∀ d, Workflow.Detail.codec.Lossless d) ∧
    (∀ w, NewWorkflow.codec.Lossless w) ∧
    (∀ m, SortedNames m.commonParams → PluginMeta.codec.Lossless m) ∧
    (∀ i, AppInfo.codec.Lossless i) ∧
    (∀ r, RegistrationReport.codec.Lossless r) ∧
    (∀ s, BackendSettings.codec.Lossless s) ∧
    (∀ d, d.schema.Ordered → d.schema.Integral → d.schema.depth ≤ 126 →
      Workflow.Document.codec.Lossless d) := by
  refine ⟨?resource, ?extension, ?flags, ?viewer, ?action, ?entry, ?menu, ?editTarget, ?app,
    ?connection, ?importedApp, ?appList, ?detail, ?newWorkflow, ?pluginMeta, ?appInfo, ?report,
    ?settings, ?document⟩
  case resource => exact fun r => (r.lawful 0).lossless (by decide)
  case extension => exact fun e => (e.lawful 0).lossless (by decide)
  case flags => exact fun f => (f.lawful 0).lossless (by decide)
  case viewer => exact fun v => (v.lawful 0).lossless (by decide)
  case action => exact fun a => (a.lawful 0).lossless (by decide)
  case entry => exact fun e => (e.lawful 0).lossless (by decide)
  case menu => exact fun m => (m.lawful 0).lossless (by decide)
  case editTarget => exact fun e => (e.lawful 0).lossless (by decide)
  case app => exact fun a => (a.lawful 0).lossless (by decide)
  case connection => exact fun c => (c.lawful 0).lossless (by decide)
  case importedApp => exact fun i => (i.lawful 0).lossless (by decide)
  case appList => exact fun d => (d.lawful 0).lossless (by decide)
  case detail => exact fun d => (d.lawful 0).lossless (by decide)
  case newWorkflow => exact fun w => (w.lawful 0).lossless (by decide)
  case pluginMeta => exact fun m hparams => (PluginMeta.lawful hparams 0).lossless (by decide)
  case appInfo => exact fun i => (i.lawful 0).lossless (by decide)
  case report => exact fun r => (r.lawful 0).lossless (by decide)
  case settings => exact fun s => (s.lawful 0).lossless (by decide)
  case document =>
    intro d hordered hintegral hdepth
    have hlawful := Workflow.Document.lawful hordered hintegral (n := 125) hdepth
    exact hlawful.lossless (by decide)

/-- A request with two groups of parameters. -/
def sampleMeta : PluginMeta :=
  { PluginMeta.ofApp ⟨"app-1", "Helper", "", .chat, none⟩ ⟨"http://dify.test", "app-1"⟩ none with
    commonParams := [("2", []), ("4", [⟨"User-Agent", "Helper"⟩])] }

/-- A document whose graph has the integers at both ends. -/
def sampleDocument : Workflow.Document :=
  { Workflow.Document.ofDetail
      ⟨"7", "Flow", "", none, none, none, none, ⟨none, none⟩, .workflow, none, none⟩ none none ⟨0, 0⟩
    with schema := .obj [("edges", .arr []),
      ("nodes", .arr [.ofInt (-0x8000000000000000), .ofInt 0xFFFFFFFFFFFFFFFF])] }

theorem models_lossless_sample :
    (SortedNames sampleMeta.commonParams ∧ PluginMeta.codec.Lossless sampleMeta) ∧
      sampleDocument.schema.Ordered ∧ sampleDocument.schema.Integral ∧
      sampleDocument.schema.depth ≤ 126 ∧ Workflow.Document.codec.Lossless sampleDocument := by
  have hnames : SortedNames sampleMeta.commonParams := by decide
  have hordered : sampleDocument.schema.Ordered := by
    refine .obj (by decide) ?_
    rw [List.forall_mem_cons, List.forall_mem_singleton]
    refine ⟨.arr (by simp), .arr ?_⟩
    rw [List.forall_mem_cons, List.forall_mem_singleton]
    exact ⟨.num _, .num _⟩
  have hintegral : sampleDocument.schema.Integral := by
    refine .obj ?_
    rw [List.forall_mem_cons, List.forall_mem_singleton]
    refine ⟨.arr (by simp), .arr ?_⟩
    rw [List.forall_mem_cons, List.forall_mem_singleton]
    exact ⟨.int (by decide), .int (by decide)⟩
  have hdepth : sampleDocument.schema.depth ≤ 126 := by decide
  obtain ⟨-, -, -, -, -, -, -, -, -, -, -, -, -, -, hmeta, -, -, -, hdocument⟩ := models_lossless
  exact ⟨⟨hnames, hmeta _ hnames⟩, hordered, hintegral, hdepth,
    hdocument _ hordered hintegral hdepth⟩

end Workbench
