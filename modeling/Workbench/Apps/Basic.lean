import Workbench.Json.Codec.Choice
import Workbench.Json.Codec.Record
import Workbench.Text.Blank

/-!
# Dify applications

An application on a Dify host, the connection to such a host, and the documents and requests in
which applications travel. An API key doubles as the id of the application it belongs to.
-/
namespace Workbench

open Json (Codec Field Fields Choice)

inductive AppKind
  | chat
  | completion
  | workflow
  deriving DecidableEq, Repr

namespace AppKind

def all : List AppKind := [.chat, .completion, .workflow]

def name : AppKind → String
  | .chat => "chat"
  | .completion => "completion"
  | .workflow => "workflow"

def codec : Codec AppKind := (Choice.ofNames all name none).codec

/-- The kind that an API key or app id suggests. -/
def ofKey (key : String) : AppKind :=
  if "workflow-".toList.isPrefixOf (Text.trim key).toList then .workflow else .chat

end AppKind

structure App where
  id : String
  name : String
  description : String
  kind : AppKind
  endpoint : Option String
  deriving DecidableEq, Repr

def App.codec : Codec App :=
  .record "DifyApp"
    (.cons (.required "id" .string) <| .cons (.required "name" .string) <|
     .cons (.default "description" .string "") <| .cons (.required "type" AppKind.codec) <|
     .cons (.unwritten "endpoint" .string) .nil)
    (fun a => (a.id, a.name, a.description, a.kind, a.endpoint, ()))
    fun (id, name, desc, kind, endpoint, ()) => ⟨id, name, desc, kind, endpoint⟩

/-- `host` without blanks around it and without slashes at its end. -/
def hostPrefixOf (host : String) : String := Text.trimSlashes (Text.trim host)

/-- The URL under which an app is called. -/
def App.invocationUrl (app : App) (host : String) : String :=
  match app.kind with
  | .chat => hostPrefixOf host ++ "/v1/chat-messages"
  | .completion | .workflow => hostPrefixOf host ++ "/v1/workflows/" ++ app.id ++ "/run"

/-- Where a Dify host is and the key to it, as typed. -/
structure Connection where
  host : String
  apiKey : String
  deriving DecidableEq, Repr

namespace Connection

def empty : Connection := ⟨"", ""⟩

def codec : Codec Connection :=
  .record "DifyConfig"
    (.cons (.default "host" .string "") <| .cons (.default "api_key" .string "") .nil)
    (fun c => (c.host, c.apiKey, ())) fun (host, key, ()) => ⟨host, key⟩

def baseUrl (c : Connection) : String := hostPrefixOf c.host

def key (c : Connection) : String := Text.trim c.apiKey

end Connection

/-- An app that has been registered as a plugin, with the time in milliseconds. -/
structure ImportedApp where
  app : App
  pluginName : String
  registeredAt : Int64
  deriving DecidableEq, Repr

def ImportedApp.codec : Codec ImportedApp :=
  .record "ImportedApp"
    (.cons (.required "app" App.codec) <| .cons (.required "plugin_name" .string) <|
     .cons (.required "registered_at" .int64) .nil)
    (fun i => (i.app, i.pluginName, i.registeredAt, ()))
    fun (app, name, time, ()) => ⟨app, name, time⟩

/-- A file with a list of apps. -/
structure AppList where
  format : String
  version : Option String
  apps : List App
  deriving DecidableEq, Repr

namespace AppList

/-- The mark by which a list of apps is recognised. -/
def formatMark : String := "dify_apps"

def currentVersion : String := "1.0"

def codec : Codec AppList :=
  .record "DifyAppsDocument"
    (.cons (.required "type" .string) <| .cons (.optional "version" .string) <|
     .cons (.required "apps" App.codec.list) .nil)
    (fun d => (d.format, d.version, d.apps, ())) fun (format, version, apps, ()) =>
      ⟨format, version, apps⟩

def ofApps (apps : List App) : AppList := ⟨formatMark, some currentVersion, apps⟩

end AppList

/-- What a Dify host tells about an app. -/
structure AppInfo where
  name : String
  description : String
  tags : List String
  deriving DecidableEq, Repr

def AppInfo.codec : Codec AppInfo :=
  .record "DifyAppInfo"
    (.cons (.default "name" .string "") <| .cons (.default "description" .string "") <|
     .cons (.default "tags" Codec.string.list []) .nil)
    (fun i => (i.name, i.description, i.tags, ())) fun (name, desc, tags, ()) => ⟨name, desc, tags⟩

/-! ## Registration requests -/

structure PluginParam where
  name : String
  value : String
  deriving DecidableEq, Repr

def PluginParam.codec : Codec PluginParam :=
  .record "CommonParam"
    (.cons (.required "name" .string) <| .cons (.required "value" .string) .nil)
    (fun p => (p.name, p.value, ())) fun (name, value, ()) => ⟨name, value⟩

structure PluginIcon where
  uri : String
  deriving DecidableEq, Repr

def PluginIcon.codec : Codec PluginIcon :=
  .record "PluginIcon" (.cons (.required "uri" .string) .nil) (fun i => (i.uri, ()))
    fun (uri, ()) => ⟨uri⟩

/-- What the backend wants to know about a plugin. -/
structure PluginMeta where
  name : String
  description : String
  url : String
  icon : PluginIcon
  pluginType : Int32
  creationMethod : Int32
  authType : List Int32
  subAuthType : Int32
  location : Int32
  key : String
  serviceToken : String
  commonParams : List (String × List PluginParam)
  spaceId : Option String
  deriving DecidableEq, Repr

def PluginMeta.codec : Codec PluginMeta :=
  .record "RegisterPluginMetaRequest"
    (.cons (.required "name" .string) <| .cons (.required "desc" .string) <|
     .cons (.required "url" .string) <| .cons (.required "icon" PluginIcon.codec) <|
     .cons (.required "plugin_type" .int32) <| .cons (.required "creation_method" .int32) <|
     .cons (.required "auth_type" Codec.int32.list) <| .cons (.required "sub_auth_type" .int32) <|
     .cons (.required "location" .int32) <| .cons (.required "key" .string) <|
     .cons (.required "service_token" .string) <|
     .cons (.required "common_params" PluginParam.codec.list.dictionary) <|
     .cons (.unwritten "space_id" .string) .nil)
    (fun m => (m.name, m.description, m.url, m.icon, m.pluginType, m.creationMethod, m.authType,
      m.subAuthType, m.location, m.key, m.serviceToken, m.commonParams, m.spaceId, ()))
    fun (name, desc, url, icon, type, method, auth, subAuth, location, key, token, params, space,
        ()) =>
      ⟨name, desc, url, icon, type, method, auth, subAuth, location, key, token, params, space⟩

end Workbench
