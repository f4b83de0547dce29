import Workbench.Proofs.Cli.Choosing
import Workbench.Proofs.Models

/-!
# Registering from the command line

Both commands that register come to the same: no batch at all, or a batch over the chosen apps that
takes a course. The report is printed in any case, and the course settles the posts and the exit
status.

* `ShowsTasks`: a printed report has each task once, by `showsTasks_reportText`;
* `Batch`: what is shown by a job that registers given apps; `batch_of_registerPage` and
  `batch_of_registerList` say so of both commands;
* `Launch.Takes`: a launch whose batch takes a course; by `Launch.takes_or_unable` a launch does so
  or leaves nothing behind;
* `Launch.registration_exit`: the exit status is 0 exactly if there were posts and all of them were
  accepted, and nothing is posted after a refusal.
-/
namespace Workbench

open Dialogue (Yields)

theorem Connection.validate_ne_batchFailed (c : Connection) (report : RegistrationReport) :
    c.validate ≠ .error (.batchFailed report) := by
  unfold validate
  split
  · nofun
  · split
    · nofun
    · split
      · nofun
      · split <;> nofun

/-- The registrations of a batch with the answers to them. -/
def Course.registrations (b : Course) (c : Connection) (spaceId : Option String) :
    List (PluginMeta × Except ApiError Unit) :=
  b.accepted.map (fun app => (PluginMeta.ofApp app c spaceId, .ok ())) ++
    b.refused.toList.map fun (app, e) => (PluginMeta.ofApp app c spaceId, .error e)

theorem Course.mem_registrations {b : Course} {app : App} (h : app ∈ b.accepted) {c : Connection}
    {spaceId : Option String} :
    (PluginMeta.ofApp app c spaceId, .ok ()) ∈ b.registrations c spaceId :=
  List.mem_append_left _ (List.mem_map_of_mem h)

namespace Cli

/-! ## Batches -/

/-- A report as it is printed. -/
def reportText (format : Format) (r : RegistrationReport) : String :=
  match format with
  | .json => Json.pretty (RegistrationReport.codec.encode r) ++ "\n"
  | .text => (reportTable r).render ++ "\n" ++ (r.summary ++ "\n")

/-- The row of a task, in a table whose columns have these widths. -/
def taskLines (widths : List Nat) (t : RegistrationTask) : List String :=
  Table.rowLines widths [t.app.name, t.app.kind.name, statusText t.status]

/-- A frame with a header and a row for each task, and rules between them. -/
def reportLines (widths : List Nat) (tasks : List RegistrationTask) : List String :=
  [Table.rule "+" "-" "+" "+" widths] ++ Table.rowLines widths ["App", "Type", "Status"] ++
    [Table.rule "+" "=" "=" "+" widths] ++
      [Table.rule "|" "-" "+" "|" widths].intercalate (tasks.map (taskLines widths)) ++
        [Table.rule "+" "-" "+" "+" widths]

/-- The output shows these tasks, each of them once and in this order. -/
inductive ShowsTasks (tasks : List RegistrationTask) : Format → String → Prop
  /-- An array with an element for each task, which is read as the tasks. -/
  | json {text : String}
    (written :
      text = Json.pretty (.obj [("tasks", .arr (tasks.map RegistrationTask.codec.encode))]))
    (reads : RegistrationReport.codec.parse (Text.bytes text) = .ok ⟨tasks⟩) :
    ShowsTasks tasks .json (text ++ "\n")
  /-- A table with a row for each task, and a summary below it. -/
  | text {widths : List Nat} :
    ShowsTasks tasks .text ("\n".intercalate (reportLines widths tasks) ++ "\n" ++
      ((RegistrationReport.mk tasks).summary ++ "\n"))

theorem showsTasks_reportText (format : Format) (tasks : List RegistrationTask) :
    ShowsTasks tasks format (reportText format ⟨tasks⟩) := by
  cases format with
  | json =>
    have hlawful := RegistrationReport.lawful ⟨tasks⟩ 0
    exact .json rfl (hlawful.parse (by decide) Json.blank_pretty 0)
  | text =>
    have hrows : (reportTable ⟨tasks⟩).rows.map (Table.rowLines (reportTable ⟨tasks⟩).widths) =
        tasks.map (taskLines (reportTable ⟨tasks⟩).widths) := List.map_map
    rw [reportText, Table.render, Table.lines, Table.bodyLines_eq_intercalate, hrows]
    exact .text

theorem output_printReport {format : Format} {report : RegistrationReport} {t : Trail}
    {r : Except Error Unit} (h : Yields (printReport format report).run t r) :
    t.output = reportText format report ∧ t.posts = [] ∧ r = .ok () := by
  cases format with
  | json => exact Job.output_print h
  | text =>
    rcases Job.yields_bind.1 h with ⟨e, htable, -⟩ | ⟨t₁, t₂, _, rfl, htable, hsummary⟩
    · exact nomatch (Job.output_print htable).2.2
    · obtain ⟨hout, hposts, -⟩ := Job.output_print htable
      obtain ⟨hout', hposts', rfl⟩ := Job.output_print hsummary
      refine ⟨?_, ?_, rfl⟩
      · rw [Trail.output_append, hout, hout']
        rfl
      · rw [Trail.posts_append, hposts, hposts', List.nil_append]

/-- What is shown by a job that was to register `apps`. -/
inductive Batch (s : Settings) (format : Format) (c : Connection) (spaceId : Option String)
    (apps : List App) (t : Trail) (r : Except Error Unit) : Prop
  /-- There is nothing to register, or no way to do it. -/
  | unable (output : t.output = "") (posts : t.posts = []) (isOk : r.isOk = false)
      (why : apps ≠ [] → c.validate = .ok () → ∀ b, Backend.connect s.backend ≠ .ok b)
  | course (b : Course) (apps_eq : b.apps = apps) (apps_ne_nil : apps ≠ [])
      (output : t.output = reportText format ⟨b.tasks⟩)
      (posts : Posted (Backend.ofSettings s.backend) (b.registrations c spaceId) t.posts)
      (isOk : r.isOk = b.refused.isNone)

/-- A batch of the registrar is posted as it is said. -/
theorem posted_of_took {s : Settings} {registrar : Registrar} {c : Connection} {b : Course}
    {log : Log} {t : Trail} (h : registrar.Took c b log)
    (hrelayed : Dialogue.Relayed (answer (surroundings s none none)) log t) :
    Posted (Backend.ofSettings s.backend) (b.registrations c registrar.spaceId) t.posts := by
  have hposted := posted_of_relayed hrelayed fun call hcall => ?_
  · rwa [Page.registrations_took h] at hposted
  · rw [h.calls] at hcall
    obtain ⟨app, -, hcall⟩ := List.mem_flatMap.1 hcall
    unfold Registrar.callsFor at hcall
    split at hcall <;> simp only [List.mem_append, List.mem_singleton, List.not_mem_nil, false_or]
      at hcall
    · rcases hcall with rfl | rfl <;> trivial
    · rw [hcall]
      trivial

/-- There is a registrar for whatever follows, unless the backend cannot be called. -/
theorem yields_registrar_bind {α : Type} {s : Settings} {spaceId : Option String} {check : Bool}
    {f : Registrar → Job α} {t : Trail} {r : Except Error α}
    (h : Yields (registrar s spaceId check >>= f).run t r) :
    (t = [] ∧ r.isOk = false ∧ ∀ b, Backend.connect s.backend ≠ .ok b) ∨
      Yields (f ⟨check, spaceId.or s.user.spaceId⟩).run t r := by
  unfold registrar checkBackend at h
  cases hconnect : Backend.connect s.backend with
  | ok b =>
    rw [hconnect] at h
    exact .inr h
  | error e =>
    rw [hconnect] at h
    obtain ⟨rfl, rfl⟩ := Dialogue.yields_pure.1 h
    exact .inl ⟨rfl, rfl, fun _ => nofun⟩

/-- A batch ends with its report, and stops the job if an app was refused. -/
theorem batch_of_report {s : Settings} {format : Format} {registrar : Registrar} {c : Connection}
    {b : Course} {log : Log} {apps : List App} {t₁ t₂ : Trail} {r : Except Error Unit}
    (happs : b.apps = apps) (hne : b.apps ≠ []) (htook : registrar.Took c b log)
    (hrelayed : Dialogue.Relayed (answer (surroundings s none none)) log t₁)
    (h : Yields (do
      printReport format ⟨b.tasks⟩
      if b.refused = none then pure () else throw (.apps (.batchFailed ⟨b.tasks⟩)) : Job Unit).run
        t₂ r) :
    Batch s format c registrar.spaceId apps (t₁ ++ t₂) r := by
  rcases Job.yields_bind.1 h with ⟨e, hreport, -⟩ | ⟨t₂, t₃, _, rfl, hreport, hend⟩
  · exact nomatch (output_printReport hreport).2.2
  · obtain ⟨hout, hposts, -⟩ := output_printReport hreport
    obtain ⟨rfl, hr⟩ : t₃ = [] ∧ r.isOk = b.refused.isNone := by
      cases hrefused : b.refused with
      | none =>
        rw [hrefused, if_pos rfl] at hend
        obtain ⟨rfl, rfl⟩ := Job.yields_pure.1 hend
        exact ⟨rfl, rfl⟩
      | some refusal =>
        rw [hrefused, if_neg nofun] at hend
        obtain ⟨rfl, rfl⟩ := Job.yields_throw.1 hend
        exact ⟨rfl, rfl⟩
    refine .course b happs (happs ▸ hne) ?_ ?_ hr
    · rw [List.append_nil, Trail.output_append, output_of_relayed hrelayed, hout,
        String.empty_append]
    · rw [List.append_nil, Trail.posts_append, hposts, List.append_nil]
      exact posted_of_took htook hrelayed

theorem batch_of_registerPage {s : Settings} {format : Format} {now : Instant}
    {spaceId : Option String} {check : Bool} {page : Page} {t : Trail} {r : Except Error Unit}
    (h : Yields (registerPage s format now spaceId check page).run t r) :
    Batch s format page.connection (spaceId.or s.user.spaceId) page.selectedApps t r := by
  rcases yields_registrar_bind h with ⟨rfl, hr, hconnect⟩ | hrest
  · exact .unable rfl rfl hr fun _ _ => hconnect
  · obtain ⟨log, t₁, t₂, ⟨q, result⟩, rfl, hregister, hrelayed, hend⟩ := yields_talk_bind.1 hrest
    rcases Page.yields_register hregister with ⟨rfl, -, hnone⟩ | ⟨-, b, happs, hne, htook, -, rfl⟩
    · cases hrelayed
      rcases hnone with ⟨e, hinvalid, rfl⟩ | ⟨-, hnone, rfl⟩
      · cases e with
        | batchFailed report => exact absurd hinvalid (Connection.validate_ne_batchFailed _ _)
        | _ =>
          obtain ⟨rfl, rfl⟩ := Dialogue.yields_pure.1 hend
          exact .unable rfl rfl rfl fun _ hvalid => nomatch hvalid.symm.trans hinvalid
      · obtain ⟨rfl, rfl⟩ := Dialogue.yields_pure.1 hend
        exact .unable rfl rfl rfl fun hne => absurd hnone hne
    · refine batch_of_report happs hne htook hrelayed ?_
      cases hrefused : b.refused with
      | none =>
        rw [hrefused, if_pos rfl] at hend
        rwa [if_pos rfl, bind_pure_unit]
      | some refusal =>
        rw [hrefused, if_neg nofun] at hend
        rwa [if_neg nofun]

theorem batch_of_registerList {s : Settings} {format : Format} {a : ImportArguments}
    {apps : List App} {t : Trail} {r : Except Error Unit}
    (h : Yields (registerList s format a apps).run t r) :
    Batch s format (s.connection a.source.url? a.apiKey) (a.spaceId.or s.user.spaceId) apps t
      r := by
  rcases Job.yields_bind.1 h with ⟨e, hvalid, rfl⟩ | ⟨_, t, _, rfl, hvalid, hrest⟩
  · obtain ⟨rfl, hinvalid⟩ := Job.yields_get.1 hvalid
    refine .unable rfl rfl rfl fun _ hok => ?_
    rw [hok] at hinvalid
    cases hinvalid
  · obtain ⟨rfl, -⟩ := Job.yields_get.1 hvalid
    rw [List.nil_append]
    split at hrest
    · rename_i hnone
      obtain ⟨rfl, rfl⟩ := Job.yields_throw.1 hrest
      exact .unable rfl rfl rfl fun hne => absurd (Page.ofApps?_eq_none.1 hnone) hne
    · rename_i plan hplan
      rcases yields_registrar_bind hrest with ⟨rfl, hr, hconnect⟩ | hrest
      · exact .unable rfl rfl hr fun _ _ => hconnect
      · obtain ⟨log, t₁, t₂, report, rfl, hrun, hrelayed, hend⟩ := yields_talk_bind.1 hrest
        obtain ⟨b, happs, rfl, htook⟩ := Registrar.yields_run hrun
        refine batch_of_report (happs.trans (Page.ofApps?_eq_some hplan))
          (happs ▸ plan.apps_ne_nil) htook hrelayed ?_
        simpa only [b.isSuccess_iff] using hend

theorem append_cons_eq_replicate {before after : List Bool} {n : Nat}
    (h : before ++ false :: after = List.replicate n true ++ [false]) :
    after = [] ∧ before.length = n := by
  rcases List.eq_nil_or_concat after with rfl | ⟨after, x, rfl⟩
  · obtain ⟨rfl, -⟩ := List.append_inj' h rfl
    exact ⟨rfl, List.length_replicate⟩
  · rw [List.concat_eq_append, ← List.cons_append, ← List.append_assoc] at h
    obtain ⟨hinit, -⟩ := List.append_inj' h rfl
    have hfalse : false ∈ List.replicate n true := by
      rw [← hinit]
      simp
    cases List.eq_of_mem_replicate hfalse

/-! ## Launches that register -/

namespace Launch

variable {σ : Type} (o : Launch σ) {i : Invocation}

/-- The request that registers an app, if one can be made. -/
def requestFor (i : Invocation) (app : App) : Except Http.Failure Http.Request :=
  (Backend.ofSettings (o.settings i).backend).registration
    (PluginMeta.ofApp app (i.command.connection (o.settings i)) (i.command.space (o.settings i)))

/-- A launch whose batch takes a course over the chosen apps. -/
structure Takes (i : Invocation) (b : Course) : Prop where
  chosen : o.chosen i = .ok b.apps
  apps_ne_nil : b.apps ≠ []
  output : o.output = reportText i.format ⟨b.tasks⟩
  posts : Posted (Backend.ofSettings (o.settings i).backend)
    (b.registrations (i.command.connection (o.settings i)) (i.command.space (o.settings i))) o.posts
  status : o.status = if b.refused = none then 0 else 1

/-- A launch that does not get as far as a batch. -/
structure Unable (i : Invocation) : Prop where
  output : o.output = ""
  posts : o.posts = []
  status : o.status = 1
  why : ∀ apps, o.chosen i = .ok apps → apps ≠ [] →
    (i.command.connection (o.settings i)).validate = .ok () →
      ∀ b, Backend.connect (o.settings i).backend ≠ .ok b

theorem exists_batch (h : o.AsksFor i) (hregisters : i.command.Registers) :
    ((∃ e, o.chosen i = .error e) ∧ o.output = "" ∧ o.posts = [] ∧ o.status = 1) ∨
      ∃ apps, o.chosen i = .ok apps ∧ ∃ (t : Trail) (r : Except Error Unit),
        Batch (o.settings i) i.format (i.command.connection (o.settings i))
          (i.command.space (o.settings i)) apps t r ∧
            o.output = t.output ∧ o.posts = t.posts ∧ o.status = exitStatus r := by
  cases hcommand : i.command with
  | registerApps host apps spaceId check =>
    rw [o.chosen_eq_page hcommand]
    rcases o.stage_cases h (o.job_eq_page hcommand) (chosenPage_idle _ host apps) with
      ⟨e, he, hshows⟩ | ⟨page, hpage, t, r, hrest, hshows⟩
    · rw [he]
      exact .inl ⟨⟨e, rfl⟩, hshows⟩
    · obtain ⟨t', hyields⟩ := o.yields_outcome i (chosenPage (o.settings i) host apps)
      have hbatch := batch_of_registerPage hrest
      rw [hpage] at hyields ⊢
      rw [connection_chosenPage hyields] at hbatch
      exact .inr ⟨_, rfl, t, r, hbatch, hshows⟩
  | importApps a =>
    have hregister : a.register = true := by
      rw [hcommand] at hregisters
      exact hregisters
    have hjob := o.job_eq_list hcommand
    simp only [hregister, if_true] at hjob
    rw [o.chosen_eq_list hcommand]
    rcases o.stage_cases h hjob (chosenList_idle _ a) with
      ⟨e, he, hshows⟩ | ⟨apps, happs, t, r, hrest, hshows⟩
    · exact .inl ⟨⟨e, he⟩, hshows⟩
    · exact .inr ⟨apps, happs, t, r, batch_of_registerList hrest, hshows⟩
  | _ =>
    rw [hcommand] at hregisters
    exact hregisters.elim

theorem takes_or_unable (h : o.AsksFor i) (hregisters : i.command.Registers) :
    (∃ b, o.Takes i b) ∨ o.Unable i := by
  rcases o.exists_batch h hregisters with
    ⟨⟨e, he⟩, hout, hposts, hstatus⟩ | ⟨apps, hchosen, t, r, hbatch, hout, hposts, hstatus⟩
  · exact .inr ⟨hout, hposts, hstatus, fun apps happs => nomatch he.symm.trans happs⟩
  · cases hbatch with
    | unable houtput hnone hr why =>
      refine .inr ⟨hout.trans houtput, hposts.trans hnone, ?_, fun apps' happs' => ?_⟩
      · cases r with
        | ok => cases hr
        | error => exact hstatus
      · obtain rfl := Except.ok.inj (hchosen.symm.trans happs')
        exact why
    | course b happs hne houtput hposted hr =>
      refine .inl ⟨b, happs ▸ hchosen, happs ▸ hne, hout.trans houtput, hposts ▸ hposted, ?_⟩
      rw [hstatus]
      cases r with
      | ok u =>
        rw [if_pos (Option.isNone_iff_eq_none.1 hr.symm)]
        rfl
      | error e =>
        have hrefused : b.refused ≠ none := by
          intro hnone
          rw [hnone] at hr
          cases hr
        rw [if_neg hrefused]
        rfl

/-! ## Exit status -/

namespace Takes

variable {o} {b : Course}

theorem showsTasks (h : o.Takes i b) : ShowsTasks b.tasks i.format o.output :=
  h.output ▸ showsTasks_reportText i.format b.tasks

/-- Either the posts are those for the apps that the backend was asked for, or no request can be
made and the first app was refused for that. -/
theorem posts_cases (h : o.Takes i b) :
    o.posts.map (.ok ·.request) = b.asked.map (o.requestFor i) ∧
      o.posts.map Post.isAccepted =
        List.replicate b.accepted.length true ++ b.refused.toList.map (fun _ => false) ∨
      o.posts = [] ∧ b.accepted = [] := by
  rcases h.posts.all_or_none with ⟨hrequests, hreplies⟩ | ⟨hposts, hreplies⟩
  · refine .inl ⟨?_, ?_⟩
    · rw [← hrequests]
      simp [Course.registrations, Course.asked, requestFor, Function.comp_def]
    · rw [← hreplies]
      simp [Course.registrations, Function.comp_def, Except.isOk, Except.toBool]
  · refine .inr ⟨hposts, List.eq_nil_iff_forall_not_mem.2 fun app happ => ?_⟩
    cases hreplies _ (Course.mem_registrations happ)

/-- All posts were accepted, if there are any, exactly if no app was refused. -/
theorem refused_eq_none_iff (h : o.Takes i b) :
    b.refused = none ↔ o.posts ≠ [] ∧ ∀ p ∈ o.posts, p.isAccepted = true := by
  constructor
  · intro hrefused
    have haccepted : b.accepted ≠ [] := by
      intro hnil
      apply h.apps_ne_nil
      simp [Course.apps, Course.asked, hnil, hrefused, b.skipped_eq_nil hrefused]
    rcases h.posts_cases with ⟨-, hanswers⟩ | ⟨-, hnil⟩
    · rw [hrefused, Option.toList_none, List.map_nil, List.append_nil] at hanswers
      constructor
      · intro hposts
        rw [hposts, List.map_nil] at hanswers
        have hzero := (List.replicate_eq_nil_iff _).1 hanswers.symm
        exact haccepted (List.eq_nil_of_length_eq_zero hzero)
      · intro p hp
        exact List.eq_of_mem_replicate (hanswers ▸ List.mem_map_of_mem hp)
    · exact absurd hnil haccepted
  · rintro ⟨hposts, hall⟩
    rcases h.posts_cases with ⟨-, hanswers⟩ | ⟨hnone, -⟩
    · cases hrefused : b.refused with
      | none => rfl
      | some refusal =>
        have hfalse : false ∈ o.posts.map Post.isAccepted := by
          rw [hanswers, hrefused]
          exact List.mem_append_right _ (List.mem_singleton_self _)
        obtain ⟨p, hp, hrejected⟩ := List.mem_map.1 hfalse
        rw [hall p hp] at hrejected
        cases hrejected
    · exact absurd hnone hposts

/-- A post that was not accepted is the last one. -/
theorem eq_nil_of_not_accepted (h : o.Takes i b) {before after : List Post} {p : Post}
    (hposts : o.posts = before ++ p :: after) (hp : p.isAccepted = false) :
    after = [] ∧ b.refused ≠ none ∧ b.accepted.length = before.length := by
  have hmem : p ∈ o.posts := by simp [hposts]
  have hrefused : b.refused ≠ none := fun hnone =>
    nomatch hp.symm.trans ((h.refused_eq_none_iff.1 hnone).2 p hmem)
  obtain ⟨refusal, hrefusal⟩ := Option.ne_none_iff_exists'.1 hrefused
  rcases h.posts_cases with ⟨-, hanswers⟩ | ⟨hnone, -⟩
  · rw [hposts, hrefusal, List.map_append, List.map_cons, hp] at hanswers
    obtain ⟨hafter, hlength⟩ := append_cons_eq_replicate hanswers
    rw [List.map_eq_nil_iff] at hafter
    rw [List.length_map] at hlength
    exact ⟨hafter, hrefused, hlength.symm⟩
  · rw [hnone] at hmem
    cases hmem

end Takes

/-- The exit status of a command that registers, and what it leaves behind. -/
structure ExitsAsAnswered (i : Invocation) : Prop where
  status_cases : o.status = 0 ∨ o.status = 1
  status_eq_zero_iff : o.status = 0 ↔ o.posts ≠ [] ∧ ∀ p ∈ o.posts, p.isAccepted = true
  /-- After a success each task in the printed report has had its post. -/
  report_of_success : o.status = 0 → ∃ b : Course, o.chosen i = .ok b.apps ∧ b.refused = none ∧
    o.output = reportText i.format ⟨b.tasks⟩ ∧ ShowsTasks b.tasks i.format o.output ∧
      b.tasks.length = o.posts.length
  /-- Nothing is posted after a refusal, and the report still has all apps that were chosen. -/
  report_of_refusal : ∀ before p after, o.posts = before ++ p :: after → p.isAccepted = false →
    after = [] ∧ o.status = 1 ∧ ∃ b : Course, o.chosen i = .ok b.apps ∧ b.refused ≠ none ∧
      b.accepted.length = before.length ∧ o.output = reportText i.format ⟨b.tasks⟩ ∧
        ShowsTasks b.tasks i.format o.output
  /-- The posts are those for the first apps that were chosen. -/
  requests : ∀ apps, o.chosen i = .ok apps →
    o.posts.map (.ok ·.request) = (apps.take o.posts.length).map (o.requestFor i)

theorem Takes.exitsAsAnswered {b : Course} (h : o.Takes i b) : o.ExitsAsAnswered i where
  status_cases := by
    rw [h.status]
    split
    · exact .inl rfl
    · exact .inr rfl
  status_eq_zero_iff := by
    rw [h.status, ← h.refused_eq_none_iff]
    split <;> simp_all
  report_of_success hstatus := by
    have hrefused : b.refused = none := by
      by_contra hrefused
      rw [h.status, if_neg hrefused] at hstatus
      cases hstatus
    have htasks : b.tasks.length = b.apps.length := by rw [← b.map_app_tasks, List.length_map]
    refine ⟨b, h.chosen, hrefused, h.output, h.showsTasks, ?_⟩
    rcases h.posts_cases with ⟨hrequests, -⟩ | ⟨hnone, -⟩
    · have hlength : o.posts.length = b.asked.length := by
        simpa using congrArg List.length hrequests
      rw [htasks, hlength, Course.apps, b.skipped_eq_nil hrefused, List.append_nil]
    · exact absurd hnone (h.refused_eq_none_iff.1 hrefused).1
  report_of_refusal before p after hposts hp := by
    obtain ⟨hafter, hrefused, hlength⟩ := h.eq_nil_of_not_accepted hposts hp
    exact ⟨hafter, h.status.trans (if_neg hrefused), b, h.chosen, hrefused, hlength, h.output,
      h.showsTasks⟩
  requests apps happs := by
    obtain rfl := Except.ok.inj (h.chosen.symm.trans happs)
    rcases h.posts_cases with ⟨hrequests, -⟩ | ⟨hnone, -⟩
    · have hlength : b.asked.length = o.posts.length := by
        simpa using (congrArg List.length hrequests).symm
      rw [hrequests, Course.apps, List.take_left' hlength]
    · rw [hnone]
      rfl

theorem Unable.exitsAsAnswered (h : o.Unable i) : o.ExitsAsAnswered i where
  status_cases := .inr h.status
  status_eq_zero_iff := by simp [h.status, h.posts]
  report_of_success hstatus := nomatch h.status.symm.trans hstatus
  report_of_refusal before p after hposts := by simp [h.posts] at hposts
  requests apps _ := by simp [h.posts]

theorem status_of_refused {e : UsageError}
    (h : Invocation.parse o.env o.arguments = .error (.refused e)) :
    o.status = 2 ∧ o.posts = [] ∧ o.output = "" := by
  have hrun : run o.env o.now o.arguments =
      (do Session.notify (e.message ++ "\n"); return 2) := by
    unfold run
    rw [h]
  have htrail : o.trail = [⟨.notify (e.message ++ "\n"), ()⟩] := by
    rw [trail, hrun]
    rfl
  refine ⟨?_, ?_, ?_⟩
  · rw [status, hrun]
    rfl
  · rw [posts, htrail]
    rfl
  · rw [output, htrail]
    rfl

/-- **The exit status tells what became of the batch.** Whatever the settings are and whoever
answers, a command that registers ends with status 0 exactly if something was posted and every post
was accepted. Arguments that make no sense end with status 2 and nothing else; questions for help
or the version run no command. -/
theorem registration_exit (o : Launch σ) :
    (∀ e, Invocation.parse o.env o.arguments = .error (.refused e) →
      o.status = 2 ∧ o.posts = [] ∧ o.output = "") ∧
    ∀ i, o.AsksFor i → i.command.Registers → o.ExitsAsAnswered i := by
  refine ⟨fun e he => o.status_of_refused he, fun i h hregisters => ?_⟩
  rcases o.takes_or_unable h hregisters with ⟨b, htakes⟩ | hunable
  · exact htakes.exitsAsAnswered
  · exact hunable.exitsAsAnswered

end Launch

/-- A launch that registers two pasted apps, with a backend that refuses everything. -/
def pasting : Launch Unit where
  env := fun _ => none
  now := ⟨0, 0⟩
  arguments := ["--config", "settings.toml", "dify", "import", "--register", "--text",
    "[\x7b\"id\": \"app-1\"\x7d, \x7b\"id\": \"app-2\"\x7d]"]
  peer := steady
    (fun _ => some (Text.bytes "[dify]\nhost = \"http://dify.test\"\napi_key = \"key\"\n"))
    fun _ => some { status := 500, body := [] }
  start := ()

/-- What `pasting` asks for. -/
def pastingInvocation : Invocation where
  settingsPath := some "settings.toml"
  backendUrl := none
  token := none
  verbose := false
  format := .text
  command := .importApps
    ⟨.text "[\x7b\"id\": \"app-1\"\x7d, \x7b\"id\": \"app-2\"\x7d]", none, false, [], true, none⟩

theorem registration_exit_pasting :
    pasting.ExitsAsAnswered pastingInvocation ∧ pasting.posts.length = 1 ∧
      ({ pasting with arguments := ["--register"] } : Launch Unit).status = 2 :=
  ⟨(Launch.registration_exit pasting).2 _ rfl rfl, by decide +kernel,
    ((Launch.registration_exit _).1 (.unexpectedArgument "--register") rfl).1⟩

end Cli

end Workbench
