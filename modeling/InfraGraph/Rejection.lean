import InfraGraph.Fault

/-!
Rejections: requests that are refused, or stored data that cannot be shown, before any service is
asked. Each has its words here, and each counts as a fault.
-/

namespace InfraGraph

inductive Rejection
  | invalidCursor (reason : String)
  | pagination (reason : String)
  | invalidId (reason : String)
  | unsupportedCombination (action target : String)
  | undecodable (shape reason : String)
  deriving DecidableEq, Repr

namespace Rejection

def message : Rejection → String
  | invalidCursor reason => s!"Invalid cursor: {reason}"
  | pagination reason => s!"Pagination error: {reason}"
  | invalidId reason => s!"Invalid ID: {reason}"
  | unsupportedCombination action target =>
      s!"Unsupported combination of action {action} and target type {target}"
  | undecodable shape reason => s!"Failed to decode {shape}: {reason}"

/-- Bad input is the caller's to mend, bad data is not. -/
def code : Rejection → FaultCode
  | invalidCursor _ => .invalidInput
  | pagination _ => .invalidInput
  | invalidId _ => .invalidInput
  | unsupportedCombination _ _ => .internal
  | undecodable _ _ => .internal

def fault (r : Rejection) : Fault :=
  ⟨r.code, r.message, none⟩

end Rejection

end InfraGraph
