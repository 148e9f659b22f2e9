/-!
Faults: what a request or a service call can fail with. A fault has a code that callers act on, a
message for people and at most one input field that it is about. Faults that the caller of a mutation
can mend become problems in its answer; the others fail the field.
-/

namespace InfraGraph

inductive FaultCode
  | invalidInput
  | conflict
  | notFound
  | forbidden
  | unauthorized
  | serviceUnavailable
  | internal
  deriving DecidableEq, Repr

def FaultCode.label : FaultCode → String
  | invalidInput => "BAD_REQUEST"
  | conflict => "CONFLICT"
  | notFound => "NOT_FOUND"
  | forbidden => "FORBIDDEN"
  | unauthorized => "UNAUTHORIZED"
  | serviceUnavailable => "SERVICE_UNAVAILABLE"
  | internal => "INTERNAL_SERVER_ERROR"

structure Fault where
  code : FaultCode
  message : String
  field : Option String
  deriving DecidableEq, Repr

inductive ProblemKind
  | badRequest
  | conflict
  | notFound
  | forbidden
  | serviceUnavailable
  deriving DecidableEq, Repr

def ProblemKind.label : ProblemKind → String
  | badRequest => "BAD_REQUEST"
  | conflict => "CONFLICT"
  | notFound => "NOT_FOUND"
  | forbidden => "FORBIDDEN"
  | serviceUnavailable => "SERVICE_UNAVAILABLE"

structure Problem where
  kind : ProblemKind
  message : String
  field : Option String
  deriving DecidableEq, Repr

namespace Fault

def invalidInput (message : String) : Fault := ⟨.invalidInput, message, none⟩

def conflict (message : String) : Fault := ⟨.conflict, message, none⟩

def notFound (message : String) : Fault := ⟨.notFound, message, none⟩

def internal (message : String) : Fault := ⟨.internal, message, none⟩

def onField (f : Fault) (field : String) : Fault :=
  { f with field := some field }

def isNotFound (f : Fault) : Bool :=
  f.code = .notFound

/-- The kind of problem a code makes; a caller can do nothing about the two that make none. -/
def problemKind? : FaultCode → Option ProblemKind
  | .invalidInput => some .badRequest
  | .conflict => some .conflict
  | .notFound => some .notFound
  | .forbidden => some .forbidden
  | .serviceUnavailable => some .serviceUnavailable
  | .unauthorized => none
  | .internal => none

def problem? (f : Fault) : Option Problem :=
  (problemKind? f.code).map fun kind => ⟨kind, f.message, f.field⟩

def optional {α : Type} : Except Fault α → Except Fault (Option α)
  | .ok a => .ok (some a)
  | .error f => if f.isNotFound then .ok none else .error f

end Fault

end InfraGraph
