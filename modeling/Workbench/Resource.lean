import Workbench.Resource.Extension

/-!
# Resources

A row of the resource library, as the backend lists it: what the resource is, who created it, and
which actions the backend allows on it.
-/
namespace Workbench

open Json (Codec Field Fields Choice)

inductive ResourceKind
  | workflow
  | plugin
  | knowledge
  | prompt
  | database
  | other
  deriving DecidableEq, Repr

namespace ResourceKind

def all : List ResourceKind := [.workflow, .plugin, .knowledge, .prompt, .database, .other]

def name : ResourceKind → String
  | .workflow => "workflow"
  | .plugin => "plugin"
  | .knowledge => "knowledge"
  | .prompt => "prompt"
  | .database => "database"
  | .other => "other"

def codec : Codec ResourceKind := (Choice.ofNames all name (some .other)).codec

end ResourceKind

/-- What a workflow is for: a plain workflow, a conversation, or images. -/
inductive FlowMode
  | workflow
  | chatflow
  | imageflow
  deriving DecidableEq, Repr

namespace FlowMode

def all : List FlowMode := [.workflow, .chatflow, .imageflow]

def name : FlowMode → String
  | .workflow => "workflow"
  | .chatflow => "chatflow"
  | .imageflow => "imageflow"

def codec : Codec FlowMode := (Choice.ofNames all name none).codec

end FlowMode

/-- The actions over which the backend decides. -/
inductive ActionKey
  | edit
  | copy
  | delete
  | switchToChatflow
  | switchToWorkflow
  | unknown
  deriving DecidableEq, Repr

namespace ActionKey

def all : List ActionKey := [.edit, .copy, .delete, .switchToChatflow, .switchToWorkflow, .unknown]

def name : ActionKey → String
  | .edit => "edit"
  | .copy => "copy"
  | .delete => "delete"
  | .switchToChatflow => "switch_to_chatflow"
  | .switchToWorkflow => "switch_to_workflow"
  | .unknown => "unknown"

def codec : Codec ActionKey := (Choice.ofNames all name (some .unknown)).codec

end ActionKey

/-- The backend's word on one action. -/
structure Permission where
  key : ActionKey
  enable : Bool
  deriving DecidableEq, Repr

def Permission.codec : Codec Permission :=
  .record "ResourceAction"
    (.cons (.required "key" ActionKey.codec) <| .cons (.default "enable" .bool true) .nil)
    (fun p => (p.key, p.enable, ())) fun (key, enable, ()) => ⟨key, enable⟩

structure Resource where
  id : Option String
  spaceId : Option String
  name : String
  description : String
  iconUri : Option String
  iconUrl : Option String
  kind : ResourceKind
  mode : FlowMode
  creatorId : Option String
  permissions : List Permission
  extension : Option String
  deriving DecidableEq, Repr

namespace Resource

def empty : Resource := ⟨none, none, "", "", none, none, .workflow, .workflow, none, [], none⟩

def fields : Fields [Option String, Option String, String, String, Option String, Option String,
    ResourceKind, FlowMode, Option String, List Permission, Option String] :=
  .cons (.optional "res_id" .string) <|
  .cons (.optional "space_id" .string) <|
  .cons (.default "name" .string "") <|
  .cons (.default "desc" .string "") <|
  .cons (.optional "icon_uri" .string) <|
  .cons (.optional "icon_url" .string) <|
  .cons (.default "res_type" ResourceKind.codec .workflow) <|
  .cons (.default "res_sub_type" FlowMode.codec .workflow) <|
  .cons (.optional "creator_id" .string) <|
  .cons (.default "actions" Permission.codec.list []) <|
  .cons (.optional "biz_extend" .string) .nil

def codec : Codec Resource :=
  .record "ResourceRecord" fields
    (fun r => (r.id, r.spaceId, r.name, r.description, r.iconUri, r.iconUrl, r.kind, r.mode,
      r.creatorId, r.permissions, r.extension, ()))
    fun (id, space, name, desc, uri, url, kind, mode, creator, permissions, extension, ()) =>
      ⟨id, space, name, desc, uri, url, kind, mode, creator, permissions, extension⟩

/-- The backend's word on an action: the first one counts. -/
def permission (r : Resource) (key : ActionKey) : Option Permission :=
  r.permissions.find? (·.key == key)

def storeExtension (r : Resource) : Extension := Extension.parse r.extension

def isCreatedBy (r : Resource) (userId : String) : Bool := r.creatorId == some userId

end Resource

end Workbench
