import Workbench.Proofs.Cli.Choosing

/-!
# What a table of apps shows of a key

A scan without any network finds one app, made up from the connection alone, and a table shows it in
four cells: a masked id, a name made from the beginning of the key, a kind, and an endpoint. The
kind follows from the beginning of the key as well. The endpoint of a chat app does not depend on
the key; that of a workflow has all of it in its path.

* `Launch.output_of_scan`: such a scan prints the table of the one app, or nothing if the connection
  is not valid;
* `Launch.same_output_of_masked`: keys with the same beginning give the same output, unless they are
  those of workflows;
* `workflow_keys_shown`: the keys of two workflows that are told apart by the output.
-/
namespace Workbench

open Dialogue (Yields)

/-! ## Beginnings of keys -/

/-- Whether a list begins with another can be seen from a part of it that is long enough. -/
theorem isPrefixOf_take {α : Type} [BEq α] [LawfulBEq α] {start l : List α} {n : Nat}
    (h : start.length ≤ n) : start.isPrefixOf (l.take n) = start.isPrefixOf l := by
  rw [Bool.eq_iff_iff, List.isPrefixOf_iff_prefix, List.isPrefixOf_iff_prefix,
    List.prefix_take_iff]
  exact and_iff_left h

/-- Two keys without blanks around them that are longer than a name shows, and alike as far as it
shows them. -/
structure AlikeKeys (key key' : String) : Prop where
  trimmed : Text.trim key = key
  trimmed' : Text.trim key' = key'
  long : shownKeyLength < key.length
  long' : shownKeyLength < key'.length
  take_eq : key.toList.take shownKeyLength = key'.toList.take shownKeyLength

namespace AlikeKeys

variable {key key' : String}

theorem ofKey_eq (h : AlikeKeys key key') : AppKind.ofKey key = AppKind.ofKey key' := by
  have hlength : "workflow-".toList.length ≤ shownKeyLength := by decide
  rw [AppKind.ofKey, AppKind.ofKey, h.trimmed, h.trimmed', ← isPrefixOf_take hlength, h.take_eq,
    isPrefixOf_take hlength]

theorem synthesizedName_eq (h : AlikeKeys key key') :
    synthesizedName key = synthesizedName key' := by
  have hlong : shownKeyLength < key.toList.length := h.long
  have hlong' : shownKeyLength < key'.toList.length := h.long'
  simp only [synthesizedName, h.trimmed, h.trimmed', h.take_eq, if_pos hlong, if_pos hlong']

theorem masked_eq (h : AlikeKeys key key') : Cli.masked key = Cli.masked key' := by
  have hmask : Cli.maskLength < shownKeyLength := by decide
  have htake : key.toList.take Cli.maskLength = key'.toList.take Cli.maskLength := by
    have hboth := congrArg (List.take Cli.maskLength) h.take_eq
    rwa [List.take_take, List.take_take, Nat.min_eq_left hmask.le] at hboth
  rw [Cli.masked, Cli.masked, if_pos (hmask.trans h.long), if_pos (hmask.trans h.long'), htake]

end AlikeKeys

namespace Cli

/-! ## Scans without a network -/

/-- The app that such a scan makes up. -/
def offlineApp (c : Connection) : App :=
  c.candidate AppKind.ofKey (synthesizedName c.key) s!"Application on {c.baseUrl}"

theorem scanner_offline {s : Settings} {offline : Bool}
    (h : offline = true ∨ s.host.scanMode = .mock) : scanner s offline = Scanner.offline := by
  unfold scanner
  rcases h with rfl | hmock
  · rfl
  · rw [hmock]
    exact ite_self _

theorem scan_offline (c : Connection) : (Page.start c).scan Scanner.offline =
    pure (match c.validate with
      | .ok () => ((Page.start c).withScanned [offlineApp c], .ok [offlineApp c])
      | .error e => (Page.start c, .error e)) := by
  have hconnection : (Page.start c).connection = c := rfl
  rw [Page.scan, hconnection]
  cases c.validate <;> rfl

theorem scannedPage_offline {s : Settings} {h : HostArguments} {c : Connection}
    (hoffline : h.offline = true ∨ s.host.scanMode = .mock)
    (hconnection : s.connection h.host h.apiKey = c) :
    scannedPage s h = Job.get .apps
      (c.validate.map fun _ => (Page.start c).withScanned [offlineApp c]) := by
  unfold scannedPage
  rw [scanner_offline hoffline, hconnection, scan_offline]
  cases c.validate <;> rfl

namespace Launch

variable {σ : Type} (o : Launch σ)

/-- A launch that lists the app behind `c` in a table, without any network. -/
structure ScansOffline (c : Connection) (i : Invocation) (h : HostArguments) : Prop where
  asks : o.AsksFor i
  format : i.format = .text
  command : i.command = .scanHost h
  offline : h.offline = true ∨ (o.settings i).host.scanMode = .mock
  connection : (o.settings i).connection h.host h.apiKey = c

variable {o} {c : Connection} {i : Invocation} {h : HostArguments}

theorem output_of_scan (hs : o.ScansOffline c i h) : o.output =
    match c.validate with
    | .ok () => appsText .text [offlineApp c]
    | .error _ => "" := by
  have hjob : o.job i = Job.get .apps
      (c.validate.map fun _ => (Page.start c).withScanned [offlineApp c]) >>= fun page =>
        printApps .text page.scanned := by
    rw [job, execute, hs.command, hs.format, ← scannedPage_offline hs.offline hs.connection]
    rfl
  obtain ⟨t, r, hyields, hout, -⟩ := o.exists_yields_job hs.asks
  rw [hjob] at hyields
  cases hvalid : c.validate with
  | error e =>
    rw [hvalid] at hyields
    obtain ⟨rfl, -⟩ := Job.yields_throw.1 hyields
    exact hout
  | ok u =>
    rw [hvalid] at hyields
    have hprint : Yields (printApps .text [offlineApp c]).run t r := hyields
    exact hout.trans (output_printApps hprint).1

/-- Chat apps with alike keys on one host are shown alike. -/
theorem appsTable_offlineApp_eq {c' : Connection} (hhost : c.host = c'.host)
    (hkeys : AlikeKeys c.apiKey c'.apiKey) (hkind : AppKind.ofKey c.apiKey = .chat) :
    appsTable [offlineApp c] = appsTable [offlineApp c'] := by
  have hkey : c.key = c.apiKey := hkeys.trimmed
  have hkey' : c'.key = c'.apiKey := hkeys.trimmed'
  have hbase : c.baseUrl = c'.baseUrl := congrArg hostPrefixOf hhost
  have hkind' : AppKind.ofKey c'.apiKey = .chat := hkeys.ofKey_eq ▸ hkind
  simp only [appsTable, offlineApp, Connection.candidate, App.invocationUrl, hkey, hkey', hkind,
    hkind', hbase, hkeys.masked_eq, hkeys.synthesizedName_eq, List.map_cons, List.map_nil]

theorem validate_eq {c' : Connection} (hhost : c.host = c'.host)
    (hkeys : AlikeKeys c.apiKey c'.apiKey) : c.validate = c'.validate := by
  have hkey : c.key ≠ "" := by
    rw [show c.key = c.apiKey from hkeys.trimmed]
    intro hempty
    have hlong := hkeys.long
    rw [hempty] at hlong
    exact absurd hlong (by decide)
  have hkey' : c'.key ≠ "" := by
    rw [show c'.key = c'.apiKey from hkeys.trimmed']
    intro hempty
    have hlong := hkeys.long'
    rw [hempty] at hlong
    exact absurd hlong (by decide)
  have hbase : c.baseUrl = c'.baseUrl := congrArg hostPrefixOf hhost
  rw [Connection.validate, Connection.validate, if_neg hkey, if_neg hkey', hbase]

/-- **Tables show no more of a chat key than its beginning.** -/
theorem same_output_of_alike_keys {τ : Type} {o' : Launch τ} {c' : Connection} {i' : Invocation}
    {h' : HostArguments} (hs : o.ScansOffline c i h) (hs' : o'.ScansOffline c' i' h')
    (hhost : c.host = c'.host) (hkeys : AlikeKeys c.apiKey c'.apiKey)
    (hkind : AppKind.ofKey c.apiKey = .chat) : o.output = o'.output := by
  rw [output_of_scan hs, output_of_scan hs', validate_eq hhost hkeys]
  simp only [appsText, List.isEmpty_cons, Bool.false_eq_true, if_false,
    appsTable_offlineApp_eq hhost hkeys hkind]

end Launch

/-! ## Two keys -/

/-- A launch that scans a host with a key, without any network. -/
def scanning (key : String) : Launch Unit where
  env := fun _ => none
  now := ⟨0, 0⟩
  arguments := ["dify", "scan", "--offline", "--host", "http://dify.test", "--api-key", key]
  peer := steady (fun _ => none) fun _ => none
  start := ()

def scanningHost (key : String) : HostArguments := ⟨some "http://dify.test", some key, true⟩

/-- What `scanning` asks for. -/
def scanningInvocation (key : String) : Invocation where
  settingsPath := none
  backendUrl := none
  token := none
  verbose := false
  format := .text
  command := .scanHost (scanningHost key)

theorem same_output_of_two_apps :
    (scanning "app-abcdefgh-one").output = (scanning "app-abcdefgh-two").output := by
  have hone : (scanning "app-abcdefgh-one").ScansOffline ⟨"http://dify.test", "app-abcdefgh-one"⟩
      (scanningInvocation "app-abcdefgh-one") (scanningHost "app-abcdefgh-one") :=
    ⟨rfl, rfl, rfl, .inl rfl, rfl⟩
  have htwo : (scanning "app-abcdefgh-two").ScansOffline ⟨"http://dify.test", "app-abcdefgh-two"⟩
      (scanningInvocation "app-abcdefgh-two") (scanningHost "app-abcdefgh-two") :=
    ⟨rfl, rfl, rfl, .inl rfl, rfl⟩
  have hkeys : AlikeKeys "app-abcdefgh-one" "app-abcdefgh-two" :=
    ⟨by decide, by decide, by decide, by decide, by decide⟩
  exact Launch.same_output_of_alike_keys hone htwo rfl hkeys (by decide)

/-- The keys of two workflows that begin alike are told apart by the endpoint in the table. -/
theorem workflow_keys_shown :
    (scanning "workflow-abc-one").ScansOffline ⟨"http://dify.test", "workflow-abc-one"⟩
        (scanningInvocation "workflow-abc-one") (scanningHost "workflow-abc-one") ∧
      (scanning "workflow-abc-two").ScansOffline ⟨"http://dify.test", "workflow-abc-two"⟩
        (scanningInvocation "workflow-abc-two") (scanningHost "workflow-abc-two") ∧
      AlikeKeys "workflow-abc-one" "workflow-abc-two" ∧
      (scanning "workflow-abc-one").output ≠ (scanning "workflow-abc-two").output := by
  refine ⟨⟨rfl, rfl, rfl, .inl rfl, rfl⟩, ⟨rfl, rfl, rfl, .inl rfl, rfl⟩, ?_, by decide +kernel⟩
  exact ⟨by decide, by decide, by decide, by decide, by decide⟩

end Cli

end Workbench
