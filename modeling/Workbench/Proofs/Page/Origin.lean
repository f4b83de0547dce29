import Workbench.Proofs.Page.Ledger
import Workbench.Proofs.Scan
import Workbench.Proofs.Transfer.Run

/-!
# Where the requests of the page point

An app keeps the endpoint that it was given when it was found, and a request takes the key from the
connection that the page has when the app is registered. In between the page may get another
connection, since a new connection leaves the found apps and the choice among them as they are.

* `requests_session`: in any session with built-in scanners every request points to the host of the
  last scan and carries the key of the present connection, so that the two belong together exactly
  if both connections have the same host;
* `request_of_two_connections`: a session whose request carries the key of one host to another.
-/
namespace Workbench

namespace Page

open Dialogue (Yields Peer)

/-- Any operation, but no scanner from outside. -/
def Op.ScansBuiltIn : Op → Prop
  | .scan scanner => scanner.BuiltIn
  | _ => True

/-! ## The last scan -/

/-- The connection that a step has scanned. -/
def Step.scanned? (t : Step) : Option Connection :=
  match t.op, t.before.connection.validate with
  | .scan _, .ok () => some t.before.connection
  | _, _ => none

/-- The connection of the last of the steps that has scanned any. -/
def lastScanned? (ts : List Step) : Option Connection :=
  (ts.filterMap Step.scanned?).getLast?

theorem lastScanned?_append (ts : List Step) (t : Step) :
    lastScanned? (ts ++ [t]) = t.scanned?.or (lastScanned? ts) := by
  unfold lastScanned?
  rw [List.filterMap_append, List.getLast?_append]
  cases h : t.scanned? <;> simp [h]

/-- The apps on the page are those of the last scan. -/
def FoundLast (past : List Step) (p : Page) : Prop :=
  ∀ app ∈ p.scanned, ∃ origin ∈ lastScanned? past, app.FoundOn origin

theorem FoundLast.unscanned {past : List Step} {t : Step} (h : FoundLast past t.before)
    (hscan : t.scanned? = none) (hsame : t.after.scanned = t.before.scanned) :
    FoundLast (past ++ [t]) t.after := by
  intro app happ
  rw [hsame] at happ
  rw [lastScanned?_append, hscan]
  exact h app happ

theorem scanned_after_change {p q : Page} {op : Op} {log : Log} (h : Change p op log q)
    (hop : ∀ scanner, op ≠ .scan scanner) : q.scanned = p.scanned := by
  cases h with
  | scanned => exact absurd rfl (hop _)
  | setConnection | toggled | registered | refused => rfl

theorem foundLast_step {past : List Step} {t : Step} (hop : t.op.ScansBuiltIn)
    (h : FoundLast past t.before) (hstep : Yields (t.before.perform t.op) t.log t.after) :
    FoundLast (past ++ [t]) t.after := by
  cases hop' : t.op with
  | scan scanner =>
    rw [hop'] at hop hstep
    obtain ⟨log, _, ⟨q, result⟩, -, hscan, hdone⟩ := Dialogue.yields_bind.1 hstep
    obtain ⟨-, hq⟩ := Dialogue.yields_pure.1 hdone
    rcases yields_scan hscan with ⟨-, rfl, e, he, -⟩ | ⟨hv, apps, happs, rfl, -⟩
    · exact h.unscanned (by simp [Step.scanned?, he]) (by rw [hq])
    · intro app happ
      rw [hq] at happ
      rw [lastScanned?_append]
      refine ⟨t.before.connection, by simp [Step.scanned?, hop', hv], ?_⟩
      exact (hop.foundOn happs).2 app happ
  | setConnection c | toggle id | register r now =>
    refine h.unscanned (by simp [Step.scanned?, hop']) ?_
    exact scanned_after_change (perform_change hstep) (by simp [hop'])

/-! ## Requests -/

theorem mem_scanned_of_selectedApps {p : Page} {app : App} (h : app ∈ p.selectedApps) :
    app ∈ p.scanned := by
  obtain ⟨id, -, hfind⟩ := List.mem_filterMap.1 h
  exact List.mem_of_find?_eq_some hfind

/-- No operation but registering sends requests. -/
theorem registrations_of_change {p q : Page} {op : Op} {log : Log} (h : Change p op log q)
    (hop : op.ScansBuiltIn) : registrations log = [] ∨ ∃ r now, op = .register r now := by
  cases h with
  | setConnection | toggled | refused => exact .inl rfl
  | scanned hv hscan => exact .inl (hop.foundOn hscan).1
  | registered => exact .inr ⟨_, _, rfl⟩

/-- A request is always one for a chosen app, with the connection that the page has. -/
theorem exists_app_of_registration {t : Step} (hop : t.op.ScansBuiltIn)
    (hchange : Change t.before t.op t.log t.after)
    {x : PluginMeta × Except ApiError Unit} (hx : x ∈ registrations t.log) :
    ∃ app ∈ t.before.selectedApps, ∃ spaceId,
      x.1 = PluginMeta.ofApp app t.before.connection spaceId := by
  rcases registrations_of_change hchange hop with hnone | ⟨r, now, hregister⟩
  · rw [hnone] at hx
    cases hx
  · have hmem := List.mem_map_of_mem (f := Prod.fst) hx
    rw [asksInOrder_of_change hchange r now hregister] at hmem
    obtain ⟨app, happ, heq⟩ := List.mem_map.1 hmem
    exact ⟨app, List.mem_of_mem_take happ, r.spaceId, heq.symm⟩

/-- How the request for `app` stands to the connection `origin`, on which the app was found, and
to the present connection `now`. -/
structure Pointed (origin now : Connection) (app : App) (request : PluginMeta) : Prop where
  id_eq : app.id = origin.key
  url_eq : request.url = app.invocationUrl origin.baseUrl
  token_eq : request.serviceToken = "Bearer " ++ now.key
  /-- Whether the URL and the key belong to one connection. -/
  url_eq_iff : request.url = app.invocationUrl now.baseUrl ↔
    hostPrefixOf origin.baseUrl = hostPrefixOf now.baseUrl

theorem pointed_ofApp {origin : Connection} {app : App} (h : app.FoundOn origin)
    (now : Connection) (spaceId : Option String) :
    Pointed origin now app (PluginMeta.ofApp app now spaceId) := by
  have htarget : (PluginMeta.ofApp app now spaceId).url = app.invocationUrl origin.baseUrl := by
    obtain ⟨infer, name, description, rfl⟩ := h
    exact PluginMeta.target_candidate origin now infer name description
  refine ⟨?_, htarget, rfl, ?_⟩
  · obtain ⟨infer, name, description, rfl⟩ := h
    rfl
  · rw [htarget, app.invocationUrl_eq_iff]

/-- **Requests point to the host of the last scan.** In any session whose scanners are built in,
against any peer, each request is for an app that the last scan has found. Its URL is the one of the
app on the host of that scan, and its key is that of the connection that the page has by then. -/
theorem requests_session {σ : Type} (c : Connection) {ops : List Op}
    (hops : ∀ op ∈ ops, op.ScansBuiltIn) (peer : Peer Call Call.Reply σ) (s : σ)
    {earlier later : List Step} {t : Step}
    (h : journal peer (start c) ops s = earlier ++ t :: later) :
    ∀ x ∈ registrations t.log, ∃ origin ∈ lastScanned? earlier, ∃ app ∈ t.before.selectedApps,
      Pointed origin t.before.connection app x.1 := by
  intro x hx
  have hstart : FoundLast [] (start c) := fun app happ => nomatch happ
  have hfound : FoundLast earlier t.before := journal_history foundLast_step peer hops s hstart h
  obtain ⟨hop, hstep⟩ := journal_yields peer ops s t (by rw [h]; simp)
  obtain ⟨app, happ, spaceId, hrequest⟩ := exists_app_of_registration (hops _ hop)
    (perform_change hstep) hx
  obtain ⟨origin, horigin, hon⟩ := hfound app (mem_scanned_of_selectedApps happ)
  exact ⟨origin, horigin, app, happ, hrequest ▸ pointed_ofApp hon _ _⟩

/-! ## A request of two connections -/

def oldConnection : Connection := ⟨"http://old.test", "app-one"⟩

def newConnection : Connection := ⟨"http://new.test", "app-two"⟩

/-- The connection is replaced after an app has been found and chosen. -/
def movingSession : List Op :=
  [.scan .offline, .toggle "app-one", .setConnection newConnection, .register ⟨false, none⟩ 0]

/-- The moving session sends a request. -/
theorem requests_session_moving :
    (∀ op ∈ movingSession, op.ScansBuiltIn) ∧
      ∃ earlier t, journal (obliging none ⟨"", []⟩) (start oldConnection) movingSession () =
          earlier ++ t :: [] ∧
        ∃ x ∈ registrations t.log, ∃ origin ∈ lastScanned? earlier,
          ∃ app ∈ t.before.selectedApps, Pointed origin t.before.connection app x.1 := by
  have hops : ∀ op ∈ movingSession, op.ScansBuiltIn := by
    simp [movingSession, Op.ScansBuiltIn, Scanner.BuiltIn.offline]
  have hsplit : journal (obliging none ⟨"", []⟩) (start oldConnection) movingSession () =
      (journal (obliging none ⟨"", []⟩) (start oldConnection) movingSession ()).take 3 ++ _ :: [] :=
    rfl
  refine ⟨hops, _, _, hsplit, _, List.mem_of_getElem? (i := 0) rfl, ?_⟩
  exact requests_session oldConnection hops _ _ hsplit _ (List.mem_of_getElem? (i := 0) rfl)

/-- The key of the new connection is sent to the host of the old one. No connection that the page
has had gives an app this URL and this key. -/
theorem request_of_two_connections :
    (∀ op ∈ movingSession, op.ScansBuiltIn) ∧
      ∃ t ∈ journal (obliging none ⟨"", []⟩) (start oldConnection) movingSession (),
        ∃ x ∈ registrations t.log,
          x.1.url = "http://old.test/v1/chat-messages" ∧ x.1.serviceToken = "Bearer app-two" ∧
            ¬ ∃ c ∈ [oldConnection, newConnection], x.1.serviceToken = "Bearer " ++ c.key ∧
              ∃ app : App, x.1.url = app.invocationUrl c.baseUrl := by
  refine ⟨by simp [movingSession, Op.ScansBuiltIn, Scanner.BuiltIn.offline],
    _, List.mem_of_getElem? (i := 3) rfl, _, List.mem_of_getElem? (i := 0) rfl, rfl, rfl, ?_⟩
  rintro ⟨c, hc, htoken, app, hurl⟩
  rcases List.mem_pair.1 hc with rfl | rfl
  · exact absurd htoken (by decide)
  · change "http://old.test/v1/chat-messages" = app.invocationUrl newConnection.baseUrl at hurl
    have hhost : hostPrefixOf newConnection.baseUrl = "http://new.test" := by decide
    have hstart := congrArg (fun s => s.toList.take 8) hurl
    simp only [App.invocationUrl_eq, hhost, String.toList_append] at hstart
    rw [List.take_append_of_le_length (by decide)] at hstart
    exact absurd hstart (by decide)

end Page

end Workbench
