import Workbench.Proofs.Cli.Batch
import Workbench.Proofs.ImportDialog
import Workbench.Proofs.Page.Toggling

/-!
# What the ids of a line choose

The command line builds a choice by switching the named ids one after the other, so that an id which
is named twice is switched off again. What is handed over are the apps whose ids are named an odd
number of times.

* `chosen_switched`, `selectedApps_switched`: switching the named ids chooses the apps that are named
  an odd number of times, in a dialog and on a page with one app;
* `Launch.chosen_importApps`, `Launch.chosen_registerApps`: the apps that a launch has chosen, if all
  named ids can be chosen;
* `Launch.hands_over_odd`: these are handed over, in the order in which they were offered; they are
  the named ones if no id is named an even number of times;
* `named_twice_lost`: a line that names an app twice and hands nothing over.
-/
namespace Workbench

namespace Cli

/-! ## Choosing named ids -/

theorem selectEach_eq {d : ImportDialog} {ids : List String}
    (h : ∀ id ∈ ids, ∃ app ∈ d.scanned, app.id = id) :
    selectEach d ids = .ok { d with selected := switched d.selected ids } := by
  induction ids generalizing d with
  | nil => rfl
  | cons id ids ih =>
    obtain ⟨⟨app, happ, hid⟩, hids⟩ := List.forall_mem_cons.1 h
    have hany : d.scanned.any (·.id == id) = true :=
      List.any_eq_true.2 ⟨app, happ, beq_iff_eq.2 hid⟩
    rw [selectEach, ImportDialog.toggle, if_pos hany]
    exact ih (d := { d with selected := toggleId id d.selected }) hids

theorem toggleAll_eq {p : Page} {ids : List String}
    (h : ∀ id ∈ ids, ∃ app ∈ p.scanned, app.id = id) :
    toggleAll p ids = .ok { p with selected := switched p.selected ids } := by
  induction ids generalizing p with
  | nil => rfl
  | cons id ids ih =>
    obtain ⟨hid, hids⟩ := List.forall_mem_cons.1 h
    rw [toggleAll, Page.toggle_of_scanned hid]
    exact ih (p := { p with selected := toggleId id p.selected }) hids

/-- The apps whose ids are named an odd number of times. -/
def oddlyNamed (ids : List String) (apps : List App) : List App :=
  apps.filter fun app => Odd (ids.count app.id)

/-- If no id is named an even number of times, these are the apps that are named. -/
theorem oddlyNamed_eq_filter_mem {ids : List String} (h : ∀ id ∈ ids, Odd (ids.count id))
    (apps : List App) : oddlyNamed ids apps = apps.filter fun app => app.id ∈ ids := by
  refine List.filter_congr fun app _ => decide_eq_decide.2 ⟨fun hodd => ?_, h app.id⟩
  exact List.count_pos_iff.1 hodd.pos

theorem chosen_switched {apps : List App} {ids : List String} {source : Option ImportSource} :
    ImportDialog.chosen ⟨apps, switched [] ids, source⟩ = oddlyNamed ids apps := by
  refine List.filter_congr fun app _ => ?_
  rw [Bool.eq_iff_iff, List.contains_iff_mem, mem_switched_nil, decide_eq_true_iff]

/-- On a page with one app there is but one id to name. -/
theorem selectedApps_switched {p : Page} {app : App} {ids : List String}
    (hscanned : p.scanned = [app]) (hids : ∀ id ∈ ids, id = app.id) :
    Page.selectedApps { p with selected := switched [] ids } = oddlyNamed ids [app] := by
  by_cases hodd : Odd (ids.count app.id)
  · have hone : switched [] ids = [app.id] := by
      refine List.perm_singleton.1 ((List.perm_ext_iff_of_nodup (nodup_switched List.nodup_nil)
        (List.nodup_singleton _)).2 fun x => ?_)
      rw [mem_switched_nil, List.mem_singleton]
      constructor
      · exact fun hx => hids x (List.count_pos_iff.1 hx.pos)
      · rintro rfl
        exact hodd
    simp [Page.selectedApps, hone, hscanned, oddlyNamed, hodd]
  · have hnone : switched [] ids = [] := by
      refine List.eq_nil_iff_forall_not_mem.2 fun x hx => hodd ?_
      rw [mem_switched_nil] at hx
      rwa [← hids x (List.count_pos_iff.1 hx.pos)]
    simp [Page.selectedApps, hnone, oddlyNamed, hodd]

/-! ## The choice of a launch -/

/-- The ids that a line names. -/
def Command.named : Command → List String
  | .registerApps _ ids _ _ => ids
  | .importApps a => a.select
  | _ => []

namespace Launch

variable {σ : Type} (o : Launch σ) {i : Invocation}

/-- The apps that a launch has to choose from: those that were found on the host, or those in the
list that was loaded. -/
def offered (i : Invocation) : Except Error (List App) :=
  match i.command with
  | .registerApps h _ _ _ => (o.outcome i (scannedPage (o.settings i) h)).map (·.scanned)
  | .importApps a => (o.outcome i (loadedDialog (o.settings i) a)).map (·.scanned)
  | _ => .ok []

/-- A pasted list offers what it is read as. -/
theorem offered_text {a : ImportArguments} {text : String} (hcommand : i.command = .importApps a)
    (hsource : a.source = .text text) :
    o.offered i = (AppList.parseText text).mapError fun e => .apps (.invalidList e) := by
  rw [offered, hcommand]
  dsimp only
  rw [outcome, loadedDialog, hsource]
  show Except.map _ (Dialogue.transcript o.peer (Job.get .apps
    (ImportDialog.empty.loadText text).2 >>= fun _ => pure _ : Job ImportDialog).run _).1 = _
  unfold ImportDialog.loadText
  cases AppList.parseText text <;> rfl

/-- A file offers what its contents are read as. -/
theorem offered_file {a : ImportArguments} {path : String} {contents : List UInt8}
    (hcommand : i.command = .importApps a) (hsource : a.source = .file path)
    (hread : (o.peer (.files (.read path)) (o.ready i)).1 = .ok contents) :
    o.offered i = (AppList.parseFile contents).mapError fun e => .apps (.invalidList e) := by
  rw [offered, hcommand]
  dsimp only
  rw [outcome, loadedDialog, hsource]
  show Except.map _ (Dialogue.transcript o.peer (do
    let contents ← Job.get (.unreadable path) (o.peer (.files (.read path)) (o.ready i)).1
    let _ ← Job.get .apps (ImportDialog.empty.loadFile contents).2
    return (ImportDialog.empty.loadFile contents).1 : Job ImportDialog).run _).1 = _
  rw [hread]
  show Except.map _ (Dialogue.transcript o.peer (Job.get .apps
    (ImportDialog.empty.loadFile contents).2 >>= fun _ => pure _ : Job ImportDialog).run _).1 = _
  unfold ImportDialog.loadFile
  cases AppList.parseFile contents <;> rfl

theorem exists_dialog {a : ImportArguments} (hcommand : i.command = .importApps a)
    {apps : List App} (hoffered : o.offered i = .ok apps) :
    ∃ source, o.outcome i (loadedDialog (o.settings i) a) = .ok ⟨apps, [], source⟩ := by
  have hdialog : (o.outcome i (loadedDialog (o.settings i) a)).map (·.scanned) = .ok apps := by
    rw [← hoffered, offered, hcommand]
  obtain ⟨t, hyields⟩ := o.yields_outcome i (loadedDialog (o.settings i) a)
  cases h : o.outcome i (loadedDialog (o.settings i) a) with
  | error e =>
    rw [h] at hdialog
    cases hdialog
  | ok d =>
    rw [h] at hdialog hyields
    obtain ⟨scanned, selected, source⟩ := d
    obtain rfl : scanned = apps := Except.ok.inj hdialog
    obtain rfl : selected = [] := selected_of_yields_loadedDialog hyields
    exact ⟨source, rfl⟩

theorem exists_page {h : HostArguments} {ids : List String} {spaceId : Option String} {check : Bool}
    (hcommand : i.command = .registerApps h ids spaceId check) {apps : List App}
    (hoffered : o.offered i = .ok apps) :
    ∃ p app, o.outcome i (scannedPage (o.settings i) h) = .ok p ∧ p.selected = [] ∧
      p.scanned = [app] ∧ apps = [app] := by
  have hpage : (o.outcome i (scannedPage (o.settings i) h)).map (·.scanned) = .ok apps := by
    rw [← hoffered, offered, hcommand]
  obtain ⟨t, hyields⟩ := o.yields_outcome i (scannedPage (o.settings i) h)
  cases hp : o.outcome i (scannedPage (o.settings i) h) with
  | error e =>
    rw [hp] at hpage
    cases hpage
  | ok p =>
    rw [hp] at hpage hyields
    obtain ⟨log, found, hscan, rfl⟩ := yields_scannedPage hyields
    obtain ⟨-, infer, name, description, rfl⟩ :=
      (scanner_builtIn _ _).exists_candidate hscan
    exact ⟨_, _, rfl, rfl, rfl, (Except.ok.inj hpage).symm⟩

/-- A dialog hands the oddly named apps over, if there are any. -/
theorem chosen_importApps {a : ImportArguments} (hcommand : i.command = .importApps a)
    {apps : List App} (hoffered : o.offered i = .ok apps) (hselect : a.select ≠ [])
    (hall : ∀ id ∈ a.select, ∃ app ∈ apps, app.id = id) :
    o.chosen i = if oddlyNamed a.select apps = [] then .error (.apps .emptySelection)
      else .ok (oddlyNamed a.select apps) := by
  obtain ⟨source, hdialog⟩ := o.exists_dialog hcommand hoffered
  have hstages : chosenList (o.settings i) a = loadedDialog (o.settings i) a >>= fun d =>
      Job.get .apps (selectFrom d a.select >>= fun d => d.commit.2) :=
    congrArg (loadedDialog (o.settings i) a >>= ·) (funext fun _ => Job.get_bind_get)
  have hcommit : (selectFrom ⟨apps, [], source⟩ a.select >>= fun d => d.commit.2) =
      if oddlyNamed a.select apps = [] then .error .emptySelection
      else .ok (oddlyNamed a.select apps) := by
    rw [selectFrom, if_neg (by simpa using hselect), selectEach_eq hall]
    show (ImportDialog.commit ⟨apps, switched [] a.select, source⟩).2 = _
    rw [ImportDialog.commit, chosen_switched]
    by_cases hnone : oddlyNamed a.select apps = [] <;> simp [hnone]
  rw [o.chosen_eq_list hcommand, hstages, outcome_bind_get, hdialog]
  show Except.mapError Error.apps _ = _
  rw [hcommit]
  split <;> rfl

/-- A page hands the oddly named apps over, be they any or none. -/
theorem chosen_registerApps {h : HostArguments} {ids : List String} {spaceId : Option String}
    {check : Bool} (hcommand : i.command = .registerApps h ids spaceId check)
    {apps : List App} (hoffered : o.offered i = .ok apps) (hids : ids ≠ [])
    (hall : ∀ id ∈ ids, ∃ app ∈ apps, app.id = id) :
    o.chosen i = .ok (oddlyNamed ids apps) := by
  obtain ⟨p, app, hpage, hselected, hscanned, rfl⟩ := o.exists_page hcommand hoffered
  have htoggled : toggleAll p (if ids.isEmpty then p.scanned.map (·.id) else ids) =
      .ok { p with selected := switched [] ids } := by
    rw [if_neg (by simpa using hids), toggleAll_eq (by rwa [hscanned]), hselected]
  have hsame : ∀ id ∈ ids, id = app.id := by
    intro id hid
    obtain ⟨app', happ, rfl⟩ := hall id hid
    rw [List.mem_singleton.1 happ]
  rw [o.chosen_eq_page hcommand, chosenPage, outcome_bind_get, hpage]
  show (Except.mapError Error.apps _).map Page.selectedApps = _
  rw [htoggled, ← selectedApps_switched hscanned hsame]
  rfl

/-- The launch hands `apps` over: it prints them, or registers them if it can. -/
structure HandsOver (i : Invocation) (apps : List App) : Prop where
  chosen : o.chosen i = .ok apps
  printed : ¬i.command.Registers → o.output = appsText i.format apps ∧ o.status = 0
  registered : i.command.Registers → (i.command.connection (o.settings i)).validate = .ok () →
    (∃ b, Backend.connect (o.settings i).backend = .ok b) →
      ∃ b : Course, o.Takes i b ∧ b.apps = apps

theorem handsOver_of_chosen {apps : List App} (h : o.AsksFor i) (hnamed : i.command.named ≠ [])
    (hchosen : o.chosen i = .ok apps) (hne : apps ≠ []) : o.HandsOver i apps := by
  refine ⟨hchosen, fun hprints => ?_, fun hregisters hvalid hconnect => ?_⟩
  · cases hcommand : i.command with
    | registerApps => simp [hcommand, Command.Registers] at hprints
    | importApps a =>
      have hprints : a.register = false := by
        rw [hcommand] at hprints
        exact Bool.not_eq_true _ ▸ hprints
      have hjob := o.job_eq_list hcommand
      simp only [hprints, Bool.false_eq_true, if_false] at hjob
      rw [o.chosen_eq_list hcommand] at hchosen
      rcases o.stage_cases h hjob (chosenList_idle _ a) with
        ⟨e, he, -⟩ | ⟨apps', happs, t, r, hprint, hout, -, hstatus⟩
      · rw [hchosen] at he
        cases he
      · obtain rfl : apps = apps' := Except.ok.inj (hchosen.symm.trans happs)
        obtain ⟨htext, -, rfl⟩ := output_printApps hprint
        exact ⟨hout.trans htext, hstatus⟩
    | _ =>
      rw [hcommand] at hnamed
      exact absurd rfl hnamed
  · rcases o.takes_or_unable h hregisters with ⟨b, htakes⟩ | hunable
    · exact ⟨b, htakes, Except.ok.inj (htakes.chosen.symm.trans hchosen)⟩
    · obtain ⟨b, hb⟩ := hconnect
      exact absurd hb (hunable.why apps hchosen hne hvalid b)

/-- What is left of a launch that names every app an even number of times. -/
theorem nothing_of_evenly_named {apps : List App} (h : o.AsksFor i)
    (hoffered : o.offered i = .ok apps) (hnamed : i.command.named ≠ [])
    (hall : ∀ id ∈ i.command.named, ∃ app ∈ apps, app.id = id)
    (hnone : oddlyNamed i.command.named apps = []) :
    o.output = "" ∧ o.posts = [] ∧ o.status = 1 := by
  cases hcommand : i.command with
  | registerApps host ids spaceId check =>
    rw [hcommand] at hnamed hall hnone
    have hchosen := o.chosen_registerApps hcommand hoffered hnamed hall
    have hregisters : i.command.Registers := by rw [hcommand]; trivial
    rcases o.takes_or_unable h hregisters with ⟨b, htakes⟩ | hunable
    · have hb : b.apps = _ := Except.ok.inj (htakes.chosen.symm.trans hchosen)
      exact absurd (hb.trans hnone) htakes.apps_ne_nil
    · exact ⟨hunable.output, hunable.posts, hunable.status⟩
  | importApps a =>
    rw [hcommand] at hnamed hall hnone
    have hchosen := (o.chosen_importApps hcommand hoffered hnamed hall).trans (if_pos hnone)
    rw [o.chosen_eq_list hcommand] at hchosen
    rcases o.stage_cases h (o.job_eq_list hcommand) (chosenList_idle _ a) with
      ⟨e, -, hshows⟩ | ⟨apps', happs, -⟩
    · exact hshows
    · rw [hchosen] at happs
      cases happs
  | _ =>
    rw [hcommand] at hnamed
    exact absurd rfl hnamed

/-- What a launch hands over that names some of the apps that it has to choose from. -/
structure KeepsOddlyNamed (i : Invocation) (apps : List App) : Prop where
  some_odd : oddlyNamed i.command.named apps ≠ [] →
    o.HandsOver i (oddlyNamed i.command.named apps)
  none_odd : oddlyNamed i.command.named apps = [] → o.output = "" ∧ o.posts = [] ∧ o.status = 1
  /-- The apps that are named, if none of them is named an even number of times. -/
  all_odd : (∀ id ∈ i.command.named, Odd (i.command.named.count id)) →
    o.HandsOver i (apps.filter fun app => app.id ∈ i.command.named)

/-- **Apps that are named an odd number of times are handed over.** -/
theorem hands_over_odd (h : o.AsksFor i) {apps : List App} (hoffered : o.offered i = .ok apps)
    (hnamed : i.command.named ≠ [])
    (hall : ∀ id ∈ i.command.named, ∃ app ∈ apps, app.id = id) : o.KeepsOddlyNamed i apps := by
  have hsome : oddlyNamed i.command.named apps ≠ [] →
      o.HandsOver i (oddlyNamed i.command.named apps) := by
    intro hne
    refine o.handsOver_of_chosen h hnamed ?_ hne
    cases hcommand : i.command with
    | registerApps =>
      rw [hcommand] at hnamed hall
      exact o.chosen_registerApps hcommand hoffered hnamed hall
    | importApps =>
      rw [hcommand] at hnamed hall hne
      exact (o.chosen_importApps hcommand hoffered hnamed hall).trans (if_neg hne)
    | _ =>
      rw [hcommand] at hnamed
      exact absurd rfl hnamed
  refine ⟨hsome, o.nothing_of_evenly_named h hoffered hnamed hall, fun hodd => ?_⟩
  rw [← oddlyNamed_eq_filter_mem hodd]
  refine hsome fun hnone => ?_
  obtain ⟨id, hid⟩ := List.exists_mem_of_ne_nil _ hnamed
  obtain ⟨app, happ, rfl⟩ := hall id hid
  exact List.filter_eq_nil_iff.1 hnone app happ (decide_eq_true (hodd app.id hid))

end Launch

/-! ## Naming an app twice -/

/-- A list of two apps. -/
def pastedList : String := "[\x7b\"id\": \"app-1\"\x7d, \x7b\"id\": \"app-2\"\x7d]"

def pastedApps : List App :=
  [⟨"app-1", "app-1", "", .chat, none⟩, ⟨"app-2", "app-2", "", .chat, none⟩]

/-- A launch that prints the apps of a pasted list with these ids. -/
def selecting (ids : List String) : Launch Unit where
  env := fun _ => none
  now := ⟨0, 0⟩
  arguments :=
    ["dify", "import", "--text", pastedList] ++ ids.flatMap fun id => ["--select", id]
  peer := steady (fun _ => none) fun _ => none
  start := ()

/-- What `selecting` asks for. -/
def selectingInvocation (ids : List String) : Invocation where
  settingsPath := none
  backendUrl := none
  token := none
  verbose := false
  format := .text
  command := .importApps ⟨.text pastedList, none, false, ids, false, none⟩

theorem hands_over_odd_selecting :
    (selecting ["app-2"]).AsksFor (selectingInvocation ["app-2"]) ∧
      (selecting ["app-2"]).offered (selectingInvocation ["app-2"]) = .ok pastedApps ∧
        (selecting ["app-2"]).KeepsOddlyNamed (selectingInvocation ["app-2"]) pastedApps := by
  have hasks : (selecting ["app-2"]).AsksFor (selectingInvocation ["app-2"]) := rfl
  have hoffered :
      (selecting ["app-2"]).offered (selectingInvocation ["app-2"]) = .ok pastedApps := by
    decide +kernel
  exact ⟨hasks, hoffered, Launch.hands_over_odd _ hasks hoffered (by decide) (by decide)⟩

/-- An app that is named twice is in the list, and nothing is handed over. -/
theorem named_twice_lost :
    (selecting ["app-1", "app-1"]).AsksFor (selectingInvocation ["app-1", "app-1"]) ∧
      (selecting ["app-1", "app-1"]).offered (selectingInvocation ["app-1", "app-1"]) =
        .ok pastedApps ∧
      (∀ id ∈ ["app-1", "app-1"], ∃ app ∈ pastedApps, app.id = id) ∧
      ¬(selecting ["app-1", "app-1"]).HandsOver (selectingInvocation ["app-1", "app-1"])
        (pastedApps.filter fun app => app.id ∈ ["app-1", "app-1"]) := by
  refine ⟨rfl, by decide +kernel, by decide, fun h => ?_⟩
  have hstatus := (h.printed nofun).2
  have hlost : (selecting ["app-1", "app-1"]).status = 1 := by decide +kernel
  exact nomatch hlost.symm.trans hstatus

end Cli

end Workbench
