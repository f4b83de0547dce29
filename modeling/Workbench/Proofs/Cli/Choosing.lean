import Workbench.Proofs.Cli.Conversation
import Workbench.Proofs.Page.Origin

/-!
# Choosing from the command line

Two commands hand apps over: one scans a host and chooses on a page, the other loads a list and
chooses in a dialog. The choice of either is a stage of its own, which neither prints nor posts
anything.

* `chosenPage_idle`, `chosenList_idle`: choosing is idle;
* `registerApps_eq`, `importApps_eq`: the commands choose first, and then go on with the choice;
* `Launch.chosen`: the apps that a launch has chosen.
-/
namespace Workbench

open Dialogue (Only Yields)

def Call.IsProbe : Call → Prop
  | .probe _ => True
  | _ => False

theorem Scanner.BuiltIn.probes {scanner : Scanner} (h : scanner.BuiltIn) (c : Connection) :
    (scanner c).Only Call.IsProbe := by
  cases h with
  | offline => exact Dialogue.only_pure _
  | probing => exact (Dialogue.only_call trivial).bind fun _ => Dialogue.only_pure _

namespace Cli

/-! ## Looking at hosts -/

theorem scanner_builtIn (s : Settings) (offline : Bool) : (scanner s offline).BuiltIn := by
  unfold scanner
  split
  · exact .offline
  · cases s.host.scanMode with
    | probe => exact .probing _
    | mock => exact .offline

/-- Conversations that only look at hosts are idle. -/
theorem talk_idle {α : Type} {t : Talk α} (s : Settings) (h : t.Only Workbench.Call.IsProbe) :
    (talk s t).run.Only Call.IsIdle := by
  refine Job.only_of (h.relay fun c hc => ?_)
  cases c with
  | probe c => exact answer_probe_idle _ c
  | _ => exact hc.elim

theorem scannedPage_idle (s : Settings) (h : HostArguments) :
    (scannedPage s h).run.Only Call.IsIdle := by
  unfold scannedPage
  refine Job.only_bind (talk_idle s ?_) fun _ => Job.only_bind Job.only_get fun _ =>
    Dialogue.only_pure _
  unfold Page.scan
  split
  · exact Dialogue.only_pure _
  · exact ((scanner_builtIn s h.offline).probes _).bind fun _ => Dialogue.only_pure _

theorem loadedDialog_idle (s : Settings) (a : ImportArguments) :
    (loadedDialog s a).run.Only Call.IsIdle := by
  have htaken : ∀ x : ImportDialog × Except AppsError (List App), Only Call.IsIdle
      (do let _ ← Job.get .apps x.2; pure x.1 : Job ImportDialog).run :=
    fun x => Job.only_bind Job.only_get fun _ => Dialogue.only_pure _
  unfold loadedDialog
  cases a.source with
  | url url =>
    refine Job.only_bind (talk_idle s ?_) htaken
    unfold ImportDialog.scanUrl
    split
    · exact Dialogue.only_pure _
    · exact ((scanner_builtIn s a.offline).probes _).bind fun _ => Dialogue.only_pure _
  | file path =>
    exact Job.only_bind (Job.only_of (ofFiles_idle _)) fun _ =>
      Job.only_bind Job.only_get fun _ => htaken _
  | text text => exact htaken _

/-! ## Choosing -/

/-- The page with the apps of the line chosen, or all that were found. -/
def chosenPage (s : Settings) (h : HostArguments) (apps : List String) : Job Page := do
  let page ← scannedPage s h
  Job.get .apps (toggleAll page (if apps.isEmpty then page.scanned.map (·.id) else apps))

/-- The dialog with the apps of the line chosen, or all that were loaded. -/
def selectFrom (d : ImportDialog) (select : List String) : Except AppsError ImportDialog :=
  if select.isEmpty then .ok d.selectAll else selectEach d select

/-- The apps that a dialog hands over. -/
def chosenList (s : Settings) (a : ImportArguments) : Job (List App) := do
  let dialog ← loadedDialog s a
  let dialog ← Job.get .apps (selectFrom dialog a.select)
  Job.get .apps dialog.commit.2

theorem chosenPage_idle (s : Settings) (h : HostArguments) (apps : List String) :
    (chosenPage s h apps).run.Only Call.IsIdle :=
  Job.only_bind (scannedPage_idle s h) fun _ => Job.only_get

theorem chosenList_idle (s : Settings) (a : ImportArguments) :
    (chosenList s a).run.Only Call.IsIdle :=
  Job.only_bind (loadedDialog_idle s a) fun _ => Job.only_bind Job.only_get fun _ => Job.only_get

/-- Registers the chosen apps of a page. -/
def registerPage (s : Settings) (format : Format) (now : Instant) (spaceId : Option String)
    (check : Bool) (page : Page) : Job Unit := do
  let registrar ← registrar s spaceId check
  let (_, result) ← talk s (page.register registrar (milliseconds now))
  match result with
  | .ok report => printReport format report
  | .error (.batchFailed report) =>
    printReport format report
    throw (.apps (.batchFailed report))
  | .error e => throw (.apps e)

theorem registerApps_eq (s : Settings) (format : Format) (now : Instant) (h : HostArguments)
    (apps : List String) (spaceId : Option String) (check : Bool) :
    registerApps s format now h apps spaceId check =
      chosenPage s h apps >>= registerPage s format now spaceId check := by
  rw [chosenPage, bind_assoc]
  rfl

theorem importApps_eq (s : Settings) (format : Format) (a : ImportArguments) :
    importApps s format a = chosenList s a >>= fun apps =>
      if a.register then registerList s format a apps else printApps format apps := by
  simp only [importApps, chosenList, selectFrom, bind_assoc]
  refine congrArg (loadedDialog s a >>= ·) (funext fun dialog => ?_)
  split <;> rfl

/-- A list of apps as it is printed. -/
def appsText (format : Format) (apps : List App) : String :=
  match format with
  | .json => Json.pretty (App.codec.list.encode apps) ++ "\n"
  | .text => if apps.isEmpty then "No apps found.\n" else (appsTable apps).render ++ "\n"

theorem output_printApps {format : Format} {apps : List App} {t : Trail} {r : Except Error Unit}
    (h : Yields (printApps format apps).run t r) :
    t.output = appsText format apps ∧ t.posts = [] ∧ r = .ok () := by
  cases format with
  | json => exact Job.output_print h
  | text =>
    unfold printApps at h
    unfold appsText
    dsimp only at h ⊢
    split at h
    · rename_i hnone
      rw [if_pos hnone]
      exact Job.output_print h
    · rename_i hsome
      rw [if_neg hsome]
      exact Job.output_print h

/-! ## What there is to choose from -/

theorem connection_toggleAll {p q : Page} {ids : List String} (h : toggleAll p ids = .ok q) :
    q.connection = p.connection := by
  induction ids generalizing p with
  | nil =>
    obtain rfl := Except.ok.inj h
    rfl
  | cons id ids ih =>
    unfold toggleAll Page.toggle at h
    split at h
    · rename_i p' _ htoggle
      rw [ih h]
      split at htoggle
      · obtain ⟨rfl, -⟩ := Prod.mk.inj htoggle
        rfl
      · cases htoggle
    · cases h

theorem yields_scannedPage {s : Settings} {h : HostArguments} {t : Trail} {page : Page}
    (hpage : Yields (scannedPage s h).run t (.ok page)) :
    ∃ log apps, Yields (scanner s h.offline (s.connection h.host h.apiKey)) log apps ∧
      page = (Page.start (s.connection h.host h.apiKey)).withScanned apps := by
  obtain ⟨log, t₁, t₂, ⟨p, result⟩, rfl, hscan, -, hresult⟩ := yields_talk_bind.1 hpage
  rcases Page.yields_scan hscan with ⟨-, -, e, -, rfl⟩ | ⟨-, apps, happs, rfl, rfl⟩
  · cases (Dialogue.yields_pure.1 hresult).2
  · obtain ⟨-, hok⟩ := Job.yields_pure.1 hresult
    exact ⟨log, apps, happs, Except.ok.inj hok⟩

/-- A dialog comes with nothing chosen. -/
theorem selected_of_yields_loadedDialog {s : Settings} {a : ImportArguments} {t : Trail}
    {d : ImportDialog} (h : Yields (loadedDialog s a).run t (.ok d)) : d.selected = [] := by
  have htaken : ∀ {x : ImportDialog × Except AppsError (List App)} {t : Trail},
      Yields (do let _ ← Job.get .apps x.2; pure x.1 : Job ImportDialog).run t (.ok d) →
        d = x.1 := by
    intro x t hx
    rcases Job.yields_bind.1 hx with ⟨e, -, ⟨⟩⟩ | ⟨_, _, _, -, -, hdone⟩
    exact Except.ok.inj (Job.yields_pure.1 hdone).2
  have hload : ∀ source list, (ImportDialog.empty.load source list).1.selected = [] := by
    intro source list
    cases list <;> rfl
  unfold loadedDialog at h
  cases hsource : a.source with
  | url url =>
    rw [hsource] at h
    obtain ⟨_, _, _, x, -, hscan, -, hrest⟩ := yields_talk_bind.1 h
    rw [htaken hrest]
    unfold ImportDialog.scanUrl at hscan
    split at hscan
    · obtain ⟨-, rfl⟩ := Dialogue.yields_pure.1 hscan
      rfl
    · obtain ⟨apps, -, rfl⟩ := (Dialogue.yields_bind_pure fun _ => rfl).1 hscan
      exact hload _ _
  | file path =>
    rw [hsource] at h
    obtain ⟨_, _, _, -, -, hread⟩ := Job.yields_of_bind.1 h
    rcases Job.yields_bind.1 hread with ⟨e, -, ⟨⟩⟩ | ⟨_, _, contents, -, -, hrest⟩
    rw [htaken hrest]
    exact hload _ _
  | text text =>
    rw [hsource] at h
    rw [htaken h]
    exact hload _ _

theorem connection_chosenPage {s : Settings} {h : HostArguments} {apps : List String} {t : Trail}
    {page : Page} (hpage : Yields (chosenPage s h apps).run t (.ok page)) :
    page.connection = s.connection h.host h.apiKey := by
  rcases Job.yields_bind.1 hpage with ⟨e, -, ⟨⟩⟩ | ⟨t₁, t₂, scanned, rfl, hscanned, htoggled⟩
  obtain ⟨-, htoggled⟩ := Job.yields_get_ok.1 htoggled
  obtain ⟨log, found, -, rfl⟩ := yields_scannedPage hscanned
  exact connection_toggleAll htoggled

/-! ## The choice of a launch -/

namespace Command

/-- The command registers apps. -/
def Registers : Command → Prop
  | .registerApps .. => True
  | .importApps a => a.register = true
  | _ => False

/-- The apps that a command hands over. -/
def chosen (s : Settings) : Command → Job (List App)
  | .registerApps h apps _ _ => Page.selectedApps <$> chosenPage s h apps
  | .importApps a => chosenList s a
  | _ => return []

/-- The connection under which a command registers. -/
def connection (s : Settings) : Command → Connection
  | .registerApps h .. => s.connection h.host h.apiKey
  | .importApps a => s.connection a.source.url? a.apiKey
  | _ => .empty

/-- The space in which a command registers. -/
def space (s : Settings) : Command → Option String
  | .registerApps _ _ spaceId _ => spaceId.or s.user.spaceId
  | .importApps a => a.spaceId.or s.user.spaceId
  | _ => none

end Command

namespace Launch

variable {σ : Type} (o : Launch σ) {i : Invocation}

/-- The apps that a launch has chosen, or why there is no choice. -/
def chosen (i : Invocation) : Except Error (List App) :=
  o.outcome i (i.command.chosen (o.settings i))

section

variable {h : HostArguments} {ids : List String} {spaceId : Option String} {check : Bool}
  (hcommand : i.command = .registerApps h ids spaceId check)

include hcommand

theorem chosen_eq_page : o.chosen i =
    (o.outcome i (chosenPage (o.settings i) h ids)).map Page.selectedApps := by
  rw [chosen, hcommand]
  exact o.outcome_map i _ _

theorem job_eq_page : o.job i =
    chosenPage (o.settings i) h ids >>=
      registerPage (o.settings i) i.format o.now spaceId check := by
  rw [job, execute, hcommand]
  exact registerApps_eq ..

end

section

variable {a : ImportArguments} (hcommand : i.command = .importApps a)

include hcommand

theorem chosen_eq_list : o.chosen i = o.outcome i (chosenList (o.settings i) a) := by
  rw [chosen, hcommand]
  rfl

theorem job_eq_list : o.job i = chosenList (o.settings i) a >>= fun apps =>
    if a.register then registerList (o.settings i) i.format a apps
    else printApps i.format apps := by
  rw [job, execute, hcommand]
  exact importApps_eq ..

end

end Launch

end Cli

end Workbench
