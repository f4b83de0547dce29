import Workbench.Apps.Scan
import Workbench.Proofs.Host
import Workbench.Proofs.Registration
import Workbench.Proofs.Transfer.Run

/-!
# What a scan finds

A connection has one key, and one app belongs to it. What that app is, is settled by the connection
alone: its id, its kind and the endpoint at which it is called. The host has a say in what the app
is called and how it is described, if it can be asked and has a name to tell.

* `Scanner.scans_agree`: scans differ in labels only, whatever the host replies and whether or not
  it is asked;
* `PluginMeta.target_candidate`: the request for an app that a built-in scanner has found goes to the
  host on which the app was found;
* `PluginMeta.endpoint_recomputed`: under the connection that was scanned, the endpoint that an app
  keeps is the one that would be worked out for it.
-/
namespace Workbench

open Dialogue (Peer Yields)

/-! ## Found apps -/

/-- What a host tells about an app, if it tells a name that can be seen. -/
def told? : Except ApiError AppInfo → Option AppInfo
  | .ok info => if Text.isBlankText info.name then none else some info
  | .error _ => none

/-- The app that is found when the host gives this reply. -/
def Connection.found (c : Connection) (infer : Inference) (reply : Except ApiError AppInfo) : App :=
  match told? reply with
  | some info => c.candidate infer info.name info.description
  | none => c.candidate infer (synthesizedName c.key) ""

/-- The same app, whatever it is called and however it is described. -/
structure App.SameButLabels (a b : App) : Prop where
  id_eq : a.id = b.id
  kind_eq : a.kind = b.kind
  endpoint_eq : a.endpoint = b.endpoint

theorem told?_not_blank {reply : Except ApiError AppInfo} {info : AppInfo}
    (h : told? reply = some info) : Text.isBlankText info.name = false := by
  cases reply with
  | error e => cases h
  | ok told =>
    rw [told?] at h
    split at h
    · cases h
    · rename_i hseen
      obtain rfl := Option.some.inj h
      exact Bool.not_eq_true _ ▸ hseen

/-- A synthesized name has words of its own, whatever the key is. -/
theorem synthesizedName_not_blank (key : String) :
    Text.isBlankText (synthesizedName key) = false := by
  have hwords : ∃ rest, synthesizedName key = "Dify App (" ++ rest := by
    unfold synthesizedName
    dsimp only
    split
    · exact ⟨_, String.append_assoc⟩
    · exact ⟨_, String.append_assoc⟩
  obtain ⟨rest, hrest⟩ := hwords
  rw [hrest]
  refine Text.isBlankText_eq_false (c := 'D') ?_ (by decide)
  rw [String.toList_append]
  exact List.mem_append_left _ (by decide)

namespace Connection

section Candidate

variable (c : Connection) (infer : Inference) (name description : String)

@[simp] theorem id_candidate : (c.candidate infer name description).id = c.key := rfl

@[simp] theorem name_candidate : (c.candidate infer name description).name = name := rfl

@[simp] theorem kind_candidate : (c.candidate infer name description).kind = infer c.key := rfl

@[simp] theorem endpoint_candidate : (c.candidate infer name description).endpoint =
    some ((c.candidate infer name description).invocationUrl c.baseUrl) := rfl

end Candidate

variable (c : Connection) (infer : Inference) (reply : Except ApiError AppInfo)

theorem candidate_sameButLabels (name name' description description' : String) :
    (c.candidate infer name description).SameButLabels
      (c.candidate infer name' description') :=
  ⟨rfl, rfl, rfl⟩

theorem exists_found :
    ∃ name description, c.found infer reply = c.candidate infer name description := by
  unfold found
  cases told? reply with
  | none => exact ⟨synthesizedName c.key, "", rfl⟩
  | some info => exact ⟨info.name, info.description, rfl⟩

theorem name_found :
    (c.found infer reply).name = ((told? reply).map (·.name)).getD (synthesizedName c.key) := by
  unfold found
  cases told? reply <;> simp

theorem name_found_not_blank : Text.isBlankText (c.found infer reply).name = false := by
  rw [name_found]
  cases htold : told? reply with
  | none =>
    rw [Option.map_none, Option.getD_none]
    exact synthesizedName_not_blank c.key
  | some info => exact told?_not_blank htold

end Connection

/-! ## Built-in scanners -/

namespace Scanner

theorem transcript_probing {σ : Type} (c : Connection) (infer : Inference)
    (peer : Peer Call Call.Reply σ) (s : σ) : (probing infer c).transcript peer s =
      ([c.found infer (peer (.probe c) s).1], [.probe c], (peer (.probe c) s).2) := by
  unfold probing Connection.found
  simp only [Talk.probe, Talk.call, Dialogue.call, bind, Dialogue.bind, pure, Dialogue.transcript]
  generalize (peer (.probe c) s).1 = reply
  cases reply with
  | error e => simp [told?]
  | ok info =>
    by_cases hblank : Text.isBlankText info.name = true
    · simp [told?, hblank]
    · simp [told?, hblank]

/-- What scans of `c` that ask the host have to do with its reply. -/
structure AsksForLabels (c : Connection) (infer : Inference) : Prop where
  finds_one : ∀ {σ : Type} (peer : Peer Call Call.Reply σ) (s : σ),
    (probing infer c).transcript peer s =
      ([c.found infer (peer (.probe c) s).1], [.probe c], (peer (.probe c) s).2)
  id_eq : ∀ reply, (c.found infer reply).id = c.key
  kind_eq : ∀ reply, (c.found infer reply).kind = infer c.key
  same : ∀ reply reply', (c.found infer reply).SameButLabels (c.found infer reply')
  name_eq : ∀ reply, (c.found infer reply).name =
    ((told? reply).map (·.name)).getD (synthesizedName c.key)
  name_not_blank : ∀ reply, Text.isBlankText (c.found infer reply).name = false

theorem asksForLabels (c : Connection) (infer : Inference) : AsksForLabels c infer where
  finds_one := transcript_probing c infer
  id_eq reply := by
    obtain ⟨name, description, hfound⟩ := c.exists_found infer reply
    rw [hfound, c.id_candidate]
  kind_eq reply := by
    obtain ⟨name, description, hfound⟩ := c.exists_found infer reply
    rw [hfound, c.kind_candidate]
  same reply reply' := by
    obtain ⟨name, description, hfound⟩ := c.exists_found infer reply
    obtain ⟨name', description', hfound'⟩ := c.exists_found infer reply'
    rw [hfound, hfound']
    exact c.candidate_sameButLabels infer name name' description description'
  name_eq := c.name_found infer
  name_not_blank := c.name_found_not_blank infer

/-- **A host only labels what is found.** Whatever it replies, a scan of a connection finds one app
with the key as its id, and two scans find the same app up to its labels. Its name is the one that
the host tells, or else a synthesized one, and can always be seen. A scan that leaves the host alone
finds this app as well, under the name that it has when the host cannot be asked. -/
theorem scans_agree (c : Connection) :
    (∀ infer, AsksForLabels c infer) ∧
      ∀ {σ : Type} (peer : Peer Call Call.Reply σ) (s : σ), ∃ app,
        (offline c).transcript peer s = ([app], [], s) ∧
          (∀ reply, app.SameButLabels (c.found AppKind.ofKey reply)) ∧
          ∀ e, app.name = (c.found AppKind.ofKey (.error e)).name := by
  refine ⟨asksForLabels c, fun peer s => ⟨_, rfl, fun reply => ?_, fun e => ?_⟩⟩
  · obtain ⟨name, description, hfound⟩ := c.exists_found AppKind.ofKey reply
    rw [hfound]
    exact c.candidate_sameButLabels AppKind.ofKey _ name _ description
  · rw [c.name_found, c.name_candidate, told?, Option.map_none, Option.getD_none]

/-- The scanners that find the app behind the key of a connection. -/
inductive BuiltIn : Scanner → Prop
  | offline : BuiltIn .offline
  | probing (infer : Inference) : BuiltIn (.probing infer)

end Scanner

/-- The app is one that a scan of `origin` can find. -/
def App.FoundOn (origin : Connection) (app : App) : Prop :=
  ∃ infer name description, app = origin.candidate infer name description

/-- A built-in scan registers nothing and finds one app. -/
theorem Scanner.BuiltIn.exists_candidate {scanner : Scanner} (h : scanner.BuiltIn) {c : Connection}
    {log : Log} {apps : List App} (hscan : Yields (scanner c) log apps) :
    registrations log = [] ∧ ∃ infer name description,
      apps = [c.candidate infer name description] := by
  cases h with
  | offline =>
    obtain ⟨rfl, rfl⟩ := Dialogue.yields_pure.1 hscan
    exact ⟨rfl, _, _, _, rfl⟩
  | probing infer =>
    obtain ⟨reply, _, rfl, hdone⟩ := Dialogue.yields_call_bind.1 hscan
    obtain ⟨rfl, rfl⟩ := Dialogue.yields_pure.1 hdone
    exact ⟨rfl, _, _, _, rfl⟩

theorem Scanner.BuiltIn.foundOn {scanner : Scanner} (h : scanner.BuiltIn) {c : Connection}
    {log : Log} {apps : List App} (hscan : Yields (scanner c) log apps) :
    registrations log = [] ∧ ∀ app ∈ apps, app.FoundOn c := by
  obtain ⟨hsilent, infer, name, description, rfl⟩ := h.exists_candidate hscan
  exact ⟨hsilent, fun app happ => ⟨infer, name, description, List.mem_singleton.1 happ⟩⟩

/-! ## Endpoints -/

namespace PluginMeta

/-- An app is called where it was found. -/
theorem target_candidate (origin c : Connection) (infer : Inference) (name description : String) :
    target (origin.candidate infer name description) c =
      (origin.candidate infer name description).invocationUrl origin.baseUrl := by
  have hkept : ∀ app : App, (some (app.invocationUrl origin.baseUrl)).filter (· != "") =
      some (app.invocationUrl origin.baseUrl) := fun app =>
    Option.filter_some_pos (bne_iff_ne.2 (app.invocationUrl_ne_empty _))
  rw [target, origin.endpoint_candidate, Option.map_some,
    Text.trim_eq_self (App.trimmed_invocationUrl _ _), hkept]

theorem target_of_no_endpoint (app : App) (c : Connection) :
    target { app with endpoint := none } c = app.invocationUrl c.baseUrl := rfl

/-- Of the endpoint of an app, its request has the target only. -/
theorem ofApp_eq_of_target {app : App} {endpoint : Option String} {c : Connection}
    (h : target app c = target { app with endpoint := endpoint } c) (spaceId : Option String) :
    ofApp app c spaceId = ofApp { app with endpoint := endpoint } c spaceId := by
  unfold ofApp
  rw [h]
  rfl

/-- **The kept endpoint is the one that would be worked out.** An app that a built-in scanner has
found under a connection keeps its endpoint there. The request for it under this connection is the
one for the app without any endpoint, and goes to the URL of the app on the host in either case. -/
theorem endpoint_recomputed {scanner : Scanner} (h : scanner.BuiltIn) (c : Connection) {σ : Type}
    (peer : Peer Call Call.Reply σ) (s : σ) :
    ∀ app ∈ ((scanner c).transcript peer s).1,
      app.endpoint = some (app.invocationUrl c.baseUrl) ∧
        ∀ spaceId, ofApp app c spaceId = ofApp { app with endpoint := none } c spaceId ∧
          (ofApp app c spaceId).url = app.invocationUrl c.baseUrl ∧
          (ofApp { app with endpoint := none } c spaceId).url = app.invocationUrl c.baseUrl := by
  intro app happ
  obtain ⟨infer, name, description, rfl⟩ :=
    (h.foundOn (Dialogue.yields_transcript peer (scanner c) s)).2 app happ
  have htarget := target_candidate c c infer name description
  exact ⟨c.endpoint_candidate infer name description, fun spaceId =>
    ⟨ofApp_eq_of_target (htarget.trans (target_of_no_endpoint _ c).symm) spaceId, htarget,
      target_of_no_endpoint _ c⟩⟩

/-- A host whose base URL still ends with a blank, and a key with blanks around it. -/
def spacedConnection : Connection := ⟨" http://h/ / ", " workflow-9 "⟩

theorem endpoint_recomputed_spaced :
    Scanner.offline.BuiltIn ∧ spacedConnection.baseUrl = "http://h/ " ∧
      ∃ app ∈ ((Scanner.offline spacedConnection).transcript (obliging none ⟨"", []⟩) ()).1,
        app.endpoint = some "http://h/v1/workflows/workflow-9/run" ∧
          ofApp app spacedConnection none =
            ofApp { app with endpoint := none } spacedConnection none := by
  refine ⟨.offline, by decide, _, List.mem_singleton_self _, by decide, ?_⟩
  exact ((endpoint_recomputed .offline spacedConnection (obliging none ⟨"", []⟩) () _
    (List.mem_singleton_self _)).2 none).1

end PluginMeta

end Workbench
