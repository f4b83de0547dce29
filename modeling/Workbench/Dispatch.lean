import Workbench.Transfer

/-!
# Carrying out menu actions

`dispatch` looks an action up in the menu of a row and refuses it unless its entry can be chosen.
Export and import are carried out here; every other action goes to its handler.
-/
namespace Workbench

inductive DispatchError
  | unavailable (actionId : String)
  /-- The row does not say where its workflow is. -/
  | missingIds (actionId : String)
  | handler (actionId message : String)
  deriving DecidableEq, Repr

def DispatchError.message : DispatchError → String
  | .unavailable id => s!"Action '{id}' is not available for this resource"
  | .missingIds id => s!"Action '{id}' needs a resource with both a workflow id and a space id"
  | .handler id m => s!"Action '{id}' failed: {m}"

/-- What came of an action. -/
inductive Outcome
  | handled
  /-- The path of the saved file, if there is one. -/
  | exported (path : Option String)
  /-- The id of the new workflow, if there is one. -/
  | imported (workflowId : Option String)
  deriving DecidableEq, Repr

namespace Dispatch

/-- Imports into the space of the row, and has the list reloaded after a success. -/
def importInto (r : Resource) (now : Instant) : Talk (Option String) := do
  match Text.nonEmpty r.spaceId with
  | none =>
    Talk.alert .error "Import failed: no target space selected"
    return none
  | some spaceId =>
    match ← importWorkflow spaceId now.civil with
    | none => return none
    | some created =>
      let _ ← Talk.handle .refresh
      return some created

/-- Leaves an action to its handler. -/
def delegate (action : Action) (handling : Handling) : Talk (Except DispatchError Outcome) := do
  match ← Talk.handle handling with
  | .ok () => return .ok .handled
  | .error causes => return .error (.handler action.id (": ".intercalate causes))

/-- Carries out an action that the menu offers. -/
def perform (viewer : Viewer) (now : Instant) (action : Action) (r : Resource) :
    Talk (Except DispatchError Outcome) :=
  match action with
  | .edit =>
    match EditTarget.of? r with
    | none => return .error (.missingIds action.id)
    | some target => delegate action (.edit target)
  | .transferOut => do return .ok (.exported (← exportWorkflow r (some viewer.userId) now))
  | .transferIn => do return .ok (.imported (← importInto r now))
  | .publish => delegate action (.publish r)
  | .switchToChatflow => delegate action (.switchToChatflow r)
  | .switchToWorkflow => delegate action (.switchToWorkflow r)
  | .copy => delegate action (.copy r)
  | .delete => delegate action (.delete r)
  | .custom id => delegate action (.custom id r)

end Dispatch

/-- Carries out an action on a row for a viewer. -/
def dispatch (viewer : Viewer) (hook : Menu.Hook) (now : Instant) (action : Action)
    (r : Resource) : Talk (Except DispatchError Outcome) :=
  if (Menu.build r viewer hook).offers action then Dispatch.perform viewer now action r
  else return .error (.unavailable action.id)

end Workbench
