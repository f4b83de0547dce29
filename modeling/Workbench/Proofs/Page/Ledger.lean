import Workbench.Proofs.Page.Session

/-!
# The ledger of the page

The imported apps of the page are a ledger of what the backend has accepted. `Step.accepted` reads
the entries of one step off its exchanges: each chosen app stands beside the request that was made
for it, and every request that was answered well makes one entry.

* `imported_after_change`: a batch adds the entries of the apps that were accepted in it, whether or
  not a later app was refused, and no other operation touches the ledger;
* `imported_session`: after any session the ledger is what the steps have added, in order.
-/
namespace Workbench.Page

open Dialogue (Peer)

/-- The entry for an app whose request was answered with `reply`. -/
def imported? (now : Int64) : App × PluginMeta × Except ApiError Unit → Option ImportedApp
  | (app, request, .ok ()) => some ⟨app, request.name, now⟩
  | (_, _, .error _) => none

/-- The entries for the requests that the backend accepted in a step. -/
def Step.accepted (t : Step) : List ImportedApp :=
  match t.op with
  | .register _ now =>
    (t.before.selectedApps.zip (registrations t.log)).filterMap (imported? now)
  | _ => []

/-- In a batch the requests are those for the first chosen apps, one for each, with the connection
that the page has. -/
def Step.AsksInOrder (t : Step) : Prop :=
  ∀ r now, t.op = .register r now → (registrations t.log).map Prod.fst =
    (t.before.selectedApps.take (registrations t.log).length).map
      (PluginMeta.ofApp · t.before.connection r.spaceId)

variable {r : Registrar} {c : Connection} {b : Course} {log : Log}

/-- The answers of a batch, each with its request. -/
theorem registrations_took (h : r.Took c b log) : registrations log =
    b.accepted.map (fun app => (PluginMeta.ofApp app c r.spaceId, .ok ())) ++
      b.refused.toList.map fun (app, e) => (PluginMeta.ofApp app c r.spaceId, .error e) := by
  rw [← List.zip_unzip (registrations log), List.unzip_fst, List.unzip_snd, h.requests, h.replies,
    Course.asked, Course.replies, List.map_append,
    List.zip_append ((List.length_map _).trans (List.length_map _).symm), List.zip_map']
  cases b.refused <;> rfl

theorem filterMap_imported_accepted (c : Connection) (spaceId : Option String) (now : Int64)
    (apps : List App) : (apps.zip (apps.map fun app =>
      (PluginMeta.ofApp app c spaceId, (.ok () : Except ApiError Unit)))).filterMap
        (imported? now) =
      apps.map fun app => ⟨app, app.name, now⟩ := by
  induction apps with
  | nil => rfl
  | cons app rest ih =>
    simp only [List.map_cons, List.zip_cons_cons, List.filterMap_cons, imported?, ih]
    rfl

/-- The entries of a batch are those of the apps that were accepted in it. -/
theorem filterMap_imported_took (h : r.Took c b log) (now : Int64) :
    (b.apps.zip (registrations log)).filterMap (imported? now) = ledger ⟨b.tasks⟩ now := by
  rw [registrations_took h, ledger, b.succeeded_eq, Course.apps, Course.asked, List.append_assoc,
    List.zip_append (by simp), List.filterMap_append, filterMap_imported_accepted]
  -- the refused app makes no entry, and the skipped ones stand beside no request
  cases hr : b.refused with
  | none => simp
  | some p => simp [imported?]

theorem imported_after_change {t : Step} (h : Change t.before t.op t.log t.after) :
    t.after.imported = t.before.imported ++ t.accepted := by
  obtain ⟨p, op, log, q⟩ := t
  change Change p op log q at h
  cases h with
  | setConnection | scanned | toggled => exact (List.append_nil _).symm
  | registered hv happs hne htook =>
    show p.imported ++ ledger _ _ = _
    rw [← filterMap_imported_took htook, happs]; rfl
  | refused =>
    have : Step.accepted ⟨p, op, [], p⟩ = [] := by
      cases op <;> simp [Step.accepted, registrations]
    rw [this, List.append_nil]

theorem asksInOrder_of_change {t : Step} (h : Change t.before t.op t.log t.after) :
    t.AsksInOrder := by
  intro r now hop
  obtain ⟨p, op, log, q⟩ := t
  obtain rfl : op = .register r now := hop
  change Change p (.register r now) log q at h
  cases h with
  | registered hv happs hne htook =>
    rename_i b
    have hlen : (registrations log).length = b.asked.length := by
      rw [← List.length_map Prod.fst, htook.requests, List.length_map]
    rw [hlen, ← happs, Course.apps, List.take_left' rfl, htook.requests]
  | refused => rfl

/-- **The ledger records what was accepted.** After any session, against any peer, the imported apps
are the entries of the accepted requests of its batches in the order of the requests. Each request
is the one for the chosen app in its place, and no step takes an entry away. -/
theorem imported_session {σ : Type} (c : Connection) (ops : List Op)
    (peer : Peer Call Call.Reply σ) (s : σ) :
    (((start c).session ops).transcript peer s).1.imported =
        (journal peer (start c) ops s).flatMap Step.accepted ∧
      ∀ t ∈ journal peer (start c) ops s,
        t.after.imported = t.before.imported ++ t.accepted ∧ t.AsksInOrder := by
  refine ⟨?_, fun t ht => ?_⟩
  · exact session_journal imported_after_change peer ops s
  · have h := journal_change peer ops s t ht
    exact ⟨imported_after_change h, asksInOrder_of_change h⟩

end Workbench.Page
