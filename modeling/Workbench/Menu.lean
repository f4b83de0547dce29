import Workbench.Resource
import Workbench.Text.Lowercase

/-!
# Row menus

The menu of a resource row, as a function of the row and of who looks at it. Editing, copying,
deleting and switching the mode are the backend's to allow; export and import follow the flags of
the front end; publishing is for the creator of a product that the store knows. A front end may add
entries of its own through a hook.
-/
namespace Workbench

open Json (Codec Field Fields Choice Variant)

/-- What the front end has switched on. -/
structure Flags where
  publish : Bool
  imageflowPublish : Bool
  transferOut : Bool
  transferIn : Bool
  deriving DecidableEq, Repr

namespace Flags

def standard : Flags := ⟨false, false, true, true⟩

def codec : Codec Flags :=
  .record "FeatureFlags"
    (.cons (.default "publish_enabled" .bool standard.publish) <|
     .cons (.default "imageflow_publish_enabled" .bool standard.imageflowPublish) <|
     .cons (.default "export_enabled" .bool standard.transferOut) <|
     .cons (.default "import_enabled" .bool standard.transferIn) .nil)
    (fun f => (f.publish, f.imageflowPublish, f.transferOut, f.transferIn, ()))
    fun (publish, imageflow, out, into, ()) => ⟨publish, imageflow, out, into⟩

end Flags

/-- Who looks at the menu. -/
structure Viewer where
  userId : String
  flags : Flags
  deriving DecidableEq, Repr

def Viewer.codec : Codec Viewer :=
  .record "MenuContext"
    (.cons (.required "user_id" .string) <| .cons (.default "flags" Flags.codec .standard) .nil)
    (fun v => (v.userId, v.flags, ())) fun (userId, flags, ()) => ⟨userId, flags⟩

/-- What a menu entry does. -/
inductive Action
  | edit
  | switchToChatflow
  | switchToWorkflow
  | transferOut
  | transferIn
  | publish
  | copy
  | delete
  | custom (id : String)
  deriving DecidableEq, Repr

namespace Action

def builtIn : List Action :=
  [.edit, .switchToChatflow, .switchToWorkflow, .transferOut, .transferIn, .publish, .copy, .delete]

def id : Action → String
  | .edit => "edit"
  | .switchToChatflow => "switch_to_chatflow"
  | .switchToWorkflow => "switch_to_workflow"
  | .transferOut => "export"
  | .transferIn => "import"
  | .publish => "publish"
  | .copy => "copy"
  | .delete => "delete"
  | .custom id => id

/-- A typed word in the form that action ids have: lower case, with underscores for dashes. -/
def normalWord (input : String) : String :=
  String.ofList ((Text.lower (Text.trim input)).toList.map fun c => if c = '-' then '_' else c)

/-- The action that a typed word means. A word that is no built-in id names a custom action and
keeps its spelling. -/
def parse (input : String) : Action :=
  match builtIn.find? (·.id == normalWord input) with
  | some a => a
  | none => .custom (Text.trim input)

def choice : Choice Action where
  variants := builtIn.map (fun a => .plain a.id a) ++ [.text "custom" .custom]
  other := none
  encode
    | .custom id => .obj [("custom", .str id)]
    | a => .str a.id

def codec : Codec Action := choice.codec

end Action

/-- One entry of a menu. -/
structure Entry where
  action : Action
  label : String
  enabled : Bool
  visible : Bool
  deriving DecidableEq, Repr

namespace Entry

/-- An entry that is enabled only if it is visible. -/
def make (action : Action) (label : String) (visible enabled : Bool) : Entry :=
  ⟨action, label, visible && enabled, visible⟩

def hidden (action : Action) (label : String) : Entry := make action label false false

def isActionable (e : Entry) : Bool := e.visible && e.enabled

def codec : Codec Entry :=
  .record "ActionDescriptor"
    (.cons (.required "action" Action.codec) <| .cons (.required "label" .string) <|
     .cons (.required "enabled" .bool) <| .cons (.required "visible" .bool) .nil)
    (fun e => (e.action, e.label, e.enabled, e.visible, ()))
    fun (action, label, enabled, visible, ()) => ⟨action, label, enabled, visible⟩

end Entry

/-- The control beside the menu, for copying and deleting. -/
structure Control where
  copy : Entry
  delete : Entry
  deriving DecidableEq, Repr

def Control.codec : Codec Control :=
  .record "CompositeActions"
    (.cons (.required "copy" Entry.codec) <| .cons (.required "delete" Entry.codec) .nil)
    (fun c => (c.copy, c.delete, ())) fun (copy, delete, ()) => ⟨copy, delete⟩

structure Menu where
  rows : List Entry
  control : Control
  deriving DecidableEq, Repr

namespace Menu

def codec : Codec Menu :=
  .record "ResourceMenu"
    (.cons (.required "actions" Entry.codec.list) <|
     .cons (.required "composite" Control.codec) .nil)
    (fun m => (m.rows, m.control, ())) fun (rows, control, ()) => ⟨rows, control⟩

def visibleRows (m : Menu) : List Entry := m.rows.filter (·.visible)

/-- All entries, the rows first. -/
def entries (m : Menu) : List Entry := m.rows ++ [m.control.copy, m.control.delete]

/-- The first entry for an action. -/
def find? (m : Menu) (action : Action) : Option Entry := m.entries.find? (·.action == action)

/-- The first entry for the action can be chosen. -/
def offers (m : Menu) (action : Action) : Bool := (m.find? action).any (·.isActionable)

/-! ## Building the menu of a row -/

/-- The entries that a front end adds for a row. -/
abbrev Hook := Resource → List Entry

def noHook : Hook := fun _ => []

/-- An entry that the backend allows or not; it hides what the backend does not mention. -/
def gated (r : Resource) (key : ActionKey) (action : Action) (label : String) : Entry :=
  match r.permission key with
  | some p => .make action label true p.enable
  | none => .hidden action label

/-- Only the creator of a product with a plugin id may publish, and images need a flag of their
own. -/
def publishVisible (r : Resource) (viewer : Viewer) : Bool :=
  viewer.flags.publish && (r.mode != .imageflow || viewer.flags.imageflowPublish) &&
    r.isCreatedBy viewer.userId && r.storeExtension.pluginId != 0

def publishLabel (r : Resource) : String :=
  if r.storeExtension.draftStatus.hasBeenSubmitted then "Resubmit to store"
  else "Publish to store"

def copyEntry (r : Resource) : Entry := gated r .copy .copy "Copy"

def deleteEntry (r : Resource) : Entry := gated r .delete .delete "Delete"

/-- The rows of a workflow before those of the hook. -/
def builtInRows (r : Resource) (viewer : Viewer) : List Entry :=
  [gated r .edit .edit "Edit",
   gated r .switchToChatflow .switchToChatflow "Switch to chatflow",
   gated r .switchToWorkflow .switchToWorkflow "Switch to workflow",
   .make .transferOut "Export" viewer.flags.transferOut true,
   .make .transferIn "Import" viewer.flags.transferIn true,
   .make .publish (publishLabel r) (publishVisible r viewer) true]

/-- The menu of a resource that is no workflow: all entries, none of them visible. -/
def concealed (r : Resource) : Menu where
  rows :=
    [.hidden .edit "Edit",
     .hidden .switchToChatflow "Switch to chatflow",
     .hidden .switchToWorkflow "Switch to workflow",
     .hidden .transferOut "Export",
     .hidden .transferIn "Import",
     .hidden .publish (publishLabel r)]
  control := ⟨.hidden .copy "Copy", .hidden .delete "Delete"⟩

/-- The menu of a row. -/
def build (r : Resource) (viewer : Viewer) (hook : Hook) : Menu :=
  if r.kind = .workflow then
    ⟨builtInRows r viewer ++ hook r, ⟨copyEntry r, deleteEntry r⟩⟩
  else concealed r

end Menu

/-- What an editor needs to open a workflow. -/
structure EditTarget where
  workflowId : String
  spaceId : String
  name : String
  description : String
  iconUri : Option String
  iconUrl : Option String
  mode : FlowMode
  deriving DecidableEq, Repr

namespace EditTarget

def codec : Codec EditTarget :=
  .record "EditPayload"
    (.cons (.required "workflow_id" .string) <| .cons (.required "space_id" .string) <|
     .cons (.required "name" .string) <| .cons (.required "desc" .string) <|
     .cons (.nullable "icon_uri" .string) <| .cons (.nullable "icon_url" .string) <|
     .cons (.required "flow_mode" FlowMode.codec) .nil)
    (fun e => (e.workflowId, e.spaceId, e.name, e.description, e.iconUri, e.iconUrl, e.mode, ()))
    fun (workflow, space, name, desc, uri, url, mode, ()) =>
      ⟨workflow, space, name, desc, uri, url, mode⟩

/-- The workflow of a row, if the row says where it is. -/
def of? (r : Resource) : Option EditTarget := do
  let workflowId ← Text.nonEmpty r.id
  let spaceId ← Text.nonEmpty r.spaceId
  return ⟨workflowId, spaceId, r.name, r.description, r.iconUri, r.iconUrl, r.mode⟩

end EditTarget

end Workbench
