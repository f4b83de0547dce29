import Workbench.Resource
import Workbench.Time

/-!
# Workflows and their documents

A workflow as the backend details it, and the portable document in which one travels. The graph of
a workflow is a JSON text. A document carries this text as it is and, for readers who look into the
document, also as a value.
-/
namespace Workbench

open Json (Codec Field Fields)

/-- The name and version with which this program signs its documents and requests. -/
def clientName : String := "flowdesk/0.4.0"

namespace Workflow

structure Creator where
  id : Option String
  name : Option String
  deriving DecidableEq, Repr

def Creator.codec : Codec Creator :=
  .record "WorkflowCreator" (.cons (.optional "id" .string) <| .cons (.optional "name" .string) .nil)
    (fun c => (c.id, c.name, ())) fun (id, name, ()) => ⟨id, name⟩

structure Detail where
  workflowId : String
  name : String
  description : String
  iconUri : Option String
  iconUrl : Option String
  createTime : Option Int64
  updateTime : Option Int64
  creator : Creator
  mode : FlowMode
  schemaType : Option String
  schemaJson : Option String
  deriving DecidableEq, Repr

def Detail.codec : Codec Detail :=
  .record "WorkflowDetail"
    (.cons (.required "workflow_id" .string) <| .cons (.default "name" .string "") <|
     .cons (.default "desc" .string "") <| .cons (.optional "icon_uri" .string) <|
     .cons (.optional "url" .string) <| .cons (.optional "create_time" .int64) <|
     .cons (.optional "update_time" .int64) <|
     .cons (.default "creator" Creator.codec ⟨none, none⟩) <|
     .cons (.default "flow_mode" FlowMode.codec .workflow) <|
     .cons (.optional "schema_type" .string) <| .cons (.optional "schema_json" .string) .nil)
    (fun d => (d.workflowId, d.name, d.description, d.iconUri, d.iconUrl, d.createTime,
      d.updateTime, d.creator, d.mode, d.schemaType, d.schemaJson, ()))
    fun (id, name, desc, uri, url, created, updated, creator, mode, type, schema, ()) =>
      ⟨id, name, desc, uri, url, created, updated, creator, mode, type, schema⟩

/-- When, by whom, from where and with what a document was written. -/
structure Origin where
  exportedAt : String
  exportedBy : Option String
  sourceSpaceId : Option String
  exporter : Option String
  deriving DecidableEq, Repr

def Origin.codec : Codec Origin :=
  .record "ExportMetadata"
    (.cons (.required "exported_at" .string) <| .cons (.optional "exported_by" .string) <|
     .cons (.optional "source_space_id" .string) <| .cons (.optional "exporter" .string) .nil)
    (fun o => (o.exportedAt, o.exportedBy, o.sourceSpaceId, o.exporter, ()))
    fun (at_, by_, space, exporter, ()) => ⟨at_, by_, space, exporter⟩

structure Document where
  format : String
  version : String
  workflowId : String
  name : String
  description : String
  iconUri : Option String
  iconUrl : Option String
  createTime : Option Int64
  updateTime : Option Int64
  creatorId : Option String
  creatorName : Option String
  mode : FlowMode
  schemaType : Option String
  schema : Json
  schemaJson : Option String
  origin : Option Origin
  deriving Repr

namespace Document

/-- The mark by which a document is recognised. -/
def formatMark : String := "coze_workflow_export"

def currentVersion : String := "1.0"

def codec : Codec Document :=
  .record "WorkflowExportDocument"
    (.cons (.required "type" .string) <| .cons (.required "version" .string) <|
     .cons (.required "workflow_id" .string) <| .cons (.required "name" .string) <|
     .cons (.default "description" .string "") <| .cons (.optional "icon_uri" .string) <|
     .cons (.optional "icon_url" .string) <| .cons (.optional "create_time" .int64) <|
     .cons (.optional "update_time" .int64) <| .cons (.optional "creator_id" .string) <|
     .cons (.optional "creator_name" .string) <|
     .cons (.default "flow_mode" FlowMode.codec .workflow) <|
     .cons (.optional "schema_type" .string) <| .cons (.default "schema" .any .null) <|
     .cons (.optional "schema_json" .string) <|
     .cons (.optional "export_metadata" Origin.codec) .nil)
    (fun d => (d.format, d.version, d.workflowId, d.name, d.description, d.iconUri, d.iconUrl,
      d.createTime, d.updateTime, d.creatorId, d.creatorName, d.mode, d.schemaType, d.schema,
      d.schemaJson, d.origin, ()))
    fun (format, version, id, name, desc, uri, url, created, updated, creatorId, creatorName,
        mode, type, schema, schemaJson, origin, ()) =>
      ⟨format, version, id, name, desc, uri, url, created, updated, creatorId, creatorName,
        mode, type, schema, schemaJson, origin⟩

/-- The text of the graph: as it was exported or, without one, the text of the value. -/
def schemaText (d : Document) : Option String :=
  match d.schemaJson.filter (! Text.isBlankText ·) with
  | some raw => some raw
  | none => if d.schema.isNull then none else some (Json.compact d.schema)

/-- The graph as a value; nothing for a text that is blank or no JSON. -/
def schemaValue (raw : Option String) : Json :=
  match raw.filter (! Text.isBlankText ·) with
  | some raw =>
    match Json.read (Text.bytes raw) with
    | .ok v => v
    | .error _ => .null
  | none => .null

/-- The document of a workflow. -/
def ofDetail (d : Detail) (spaceId exportedBy : Option String) (exportedAt : Instant) :
    Document where
  format := formatMark
  version := currentVersion
  workflowId := d.workflowId
  name := d.name
  description := d.description
  iconUri := d.iconUri
  iconUrl := d.iconUrl
  createTime := d.createTime
  updateTime := d.updateTime
  creatorId := d.creator.id
  creatorName := d.creator.name
  mode := d.mode
  schemaType := d.schemaType
  schema := schemaValue d.schemaJson
  schemaJson := d.schemaJson
  origin := some ⟨exportedAt.text, exportedBy, spaceId, some clientName⟩

/-- The characters that a file name keeps. -/
def isPlain (c : Char) : Bool := c.isAlphanum || c == '-' || c == '_'

/-- The name of a workflow as far as a file name can show it. -/
def safeName (name : String) : String :=
  let safe := (Text.trim name).toList.map fun c => if isPlain c then c else '_'
  if safe.all (· == '_') then "workflow" else String.ofList safe

/-- The name of the file for a document. -/
def fileName (name workflowId : String) : String :=
  safeName name ++ "_" ++ workflowId ++ ".json"

end Document

end Workflow

end Workbench
