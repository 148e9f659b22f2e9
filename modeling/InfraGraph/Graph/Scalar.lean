import InfraGraph.Graph.Value
import InfraGraph.Time.Reading

/-!
Instants as values. An instant is given and taken as its text.
-/

namespace InfraGraph.Time.Instant

open InfraGraph.Graph

def toValue (t : Instant) : Value :=
  .text t.text

/-- The instant of a value, or why it has none. What a reader of texts had to say is left out. -/
def ofValue : Value → Except String Instant
  | .text s =>
      match read? s with
      | some t => .ok t
      | none => .error "Invalid DateTime: <chrono>"
  | _ => .error "Expected string for DateTime"

end InfraGraph.Time.Instant
