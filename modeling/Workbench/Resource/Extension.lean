import Workbench.Json.Codec.Choice
import Workbench.Json.Codec.Record
import Workbench.Text.Integer

/-!
# The product side of a resource

A resource carries a text about its place in the store: whether a draft of it has been submitted
there, and under which plugin id it is known. Front ends of several generations have written this
text, so each of its two fields is taken from whatever shape it has, and a text that is no JSON
counts as absent.
-/
namespace Workbench

open Json (Codec Field Fields Choice)

/-- How far the draft of a product has come. -/
inductive DraftStatus
  | default
  | pending
  | approved
  | rejected
  | offline
  | unknown
  deriving DecidableEq, Repr

namespace DraftStatus

def all : List DraftStatus := [.default, .pending, .approved, .rejected, .offline, .unknown]

def name : DraftStatus → String
  | .default => "default"
  | .pending => "pending"
  | .approved => "approved"
  | .rejected => "rejected"
  | .offline => "offline"
  | .unknown => "unknown"

def choice : Choice DraftStatus := Choice.ofNames all name (some .unknown)

def codec : Codec DraftStatus := choice.codec

def ofCode (code : Int) : DraftStatus :=
  if code = 0 then .default
  else if code = 1 then .pending
  else if code = 2 then .approved
  else if code = 3 then .rejected
  else if code = 4 then .offline
  else .unknown

/-- The product has been submitted to the store at least once. -/
def hasBeenSubmitted (s : DraftStatus) : Bool := s != .default

/-- A status by its name; any other name is unknown. -/
def ofName (name : String) : DraftStatus :=
  match choice.lookup name with
  | .ok (.plain _ s) => s
  | _ => .unknown

/-- A status in any of its shapes: a code, a code as a text, or a name. -/
def ofJson : Json → DraftStatus
  | .null => .default
  | .num (.int n) => if n < 0x8000000000000000 then ofCode n else .unknown
  | .str s =>
    let s := Text.trim s
    match Text.int64? s with
    | some code => ofCode code.toInt
    | none => ofName s
  | _ => .unknown

end DraftStatus

/-- What the store knows of a resource. A plugin id of zero stands for none. -/
structure Extension where
  draftStatus : DraftStatus
  pluginId : UInt64
  deriving DecidableEq, Repr

namespace Extension

def empty : Extension := ⟨.default, 0⟩

/-- A plugin id as a number or as a text; zero for anything else. -/
def idOfJson : Json → UInt64
  | .str s => (Text.uint64? (Text.trim s)).getD 0
  | v =>
    match v.int? with
    | some n => if 0 ≤ n ∧ n < 0x10000000000000000 then UInt64.ofNat n.toNat else 0
    | none => 0

theorem idOfJson_int (n : Int) : idOfJson (.num (.int n)) =
    if 0 ≤ n ∧ n < 0x10000000000000000 then UInt64.ofNat n.toNat else 0 := rfl

def fields : Fields [DraftStatus, UInt64] :=
  .cons (.default "product_draft_status"
    (Codec.lenient DraftStatus.codec.encode DraftStatus.ofJson) .default) <|
  .cons (.default "plugin_id" (Codec.lenient Codec.uint64.encode idOfJson) 0) .nil

def codec : Codec Extension :=
  .record "BizExtend" fields (fun e => (e.draftStatus, e.pluginId, ()))
    fun (status, id, ()) => ⟨status, id⟩

/-- The extension that a resource carries; the empty one if it is absent, blank or no JSON. -/
def parse (raw : Option String) : Extension :=
  match (raw.map Text.trim).filter (· != "") with
  | none => empty
  | some text =>
    match codec.parse (Text.bytes text) with
    | .ok e => e
    | .error _ => empty

end Extension

end Workbench
