import CloudSession.Http.Message

/-!
# Handlers

A request passes through lists of named handlers, one list for each phase of an operation. A handler
may change the request or fail it, and the first handler that fails it is the last one of its list to
see it.
-/

namespace CloudSession

/-- A parameter that is not valid. -/
structure InvalidParameter where
  field : String
  message : String
  deriving DecidableEq, Repr

/-- Why a request fails. -/
inductive OperationError where
  /-- Its parameters are not valid. -/
  | invalidParameters (operation : String) (errors : List InvalidParameter)
  /-- A handler of the caller fails it. -/
  | handler (detail : String)
  deriving DecidableEq, Repr

/-- The wording of the error. -/
def OperationError.message : OperationError → String
  | .invalidParameters _ errors => s!"{errors.length} validation error(s) found."
  | .handler detail => detail

/-- What parameters say of themselves. -/
inductive Parameters where
  | valid
  /-- They are not valid, and may say what is wrong. -/
  | invalid (errors : List InvalidParameter)
  deriving DecidableEq, Repr

/-- A request for an operation. -/
structure OperationRequest where
  operation : String
  parameters : Option Parameters := none
  request : Http.Request := {}
  error : Option OperationError := none
  deriving DecidableEq, Repr

/-- What a handler does. -/
inductive HandlerAction where
  /-- It fails requests with parameters that are not valid. -/
  | validateParameters
  /-- What the caller wants. -/
  | custom (action : OperationRequest → OperationRequest)

/-- A handler with a name. -/
structure Handler where
  name : String
  action : HandlerAction

namespace Handler

/-- Fails a request with parameters that are not valid, also if these do not say what is wrong. -/
def validate (request : OperationRequest) : OperationRequest :=
  match request.parameters with
  | some (.invalid errors) =>
    { request with error := some (.invalidParameters request.operation errors) }
  | _ => request

/-- Handles a request. -/
def handle (handler : Handler) (request : OperationRequest) : OperationRequest :=
  match handler.action with
  | .validateParameters => validate request
  | .custom action => action request

/-- The name of the handler that validates parameters. -/
def validationName : String := "core.ValidateParametersHandler"

/-- The handler that validates parameters. -/
def validation : Handler where
  name := validationName
  action := .validateParameters

end Handler

/-- Handlers in order. -/
abbrev HandlerList := List Handler

namespace HandlerList

/-- The list without the handlers called `name`. -/
def remove (handlers : HandlerList) (name : String) : HandlerList :=
  handlers.filter (·.name ≠ name)

/-- Passes a request through the list, up to the first handler after which it has failed. -/
def run : HandlerList → OperationRequest → OperationRequest
  | [], request => request
  | handler :: rest, request =>
    let next := handler.handle request
    if next.error.isSome then next else run rest next

/-- The handlers that see a request, in order, each with the request as it sees it. -/
def visits : HandlerList → OperationRequest → List (Handler × OperationRequest)
  | [], _ => []
  | handler :: rest, request =>
    let next := handler.handle request
    (handler, request) :: if next.error.isSome then [] else visits rest next

end HandlerList

/-- The phases of an operation. -/
inductive HandlerPhase where
  | validate
  | build
  | sign
  | send
  deriving DecidableEq, Repr

/-- The handlers of each phase. -/
structure Handlers where
  validate : HandlerList := []
  build : HandlerList := []
  sign : HandlerList := []
  send : HandlerList := []

namespace Handlers

/-- The handlers that every session starts with. -/
def defaults : Handlers where
  validate := [Handler.validation]

/-- The handlers of a phase. -/
def list (handlers : Handlers) : HandlerPhase → HandlerList
  | .validate => handlers.validate
  | .build => handlers.build
  | .sign => handlers.sign
  | .send => handlers.send

/-- Changes the handlers of a phase. -/
def alter (handlers : Handlers) (phase : HandlerPhase) (f : HandlerList → HandlerList) : Handlers :=
  match phase with
  | .validate => { handlers with validate := f handlers.validate }
  | .build => { handlers with build := f handlers.build }
  | .sign => { handlers with sign := f handlers.sign }
  | .send => { handlers with send := f handlers.send }

/-- Parameters are validated last, and once, or not at all if that is disabled. -/
def settleValidation (handlers : Handlers) (disabled : Bool) : Handlers :=
  let others := handlers.validate.remove Handler.validationName
  { handlers with validate := if disabled then others else others ++ [Handler.validation] }

end Handlers

end CloudSession
