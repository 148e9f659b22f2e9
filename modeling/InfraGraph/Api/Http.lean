import InfraGraph.Api.Operation
import InfraGraph.Text.Utf8

/-!
The API over HTTP: the header that carries a caller's identifier for the request, and the status of a
response. All responses count as answered, except those that say the caller is not authorized.
-/

namespace InfraGraph.Api.Http

structure Header where
  name : String
  value : List UInt8

/-- The bytes that a header may hold as text: the tab and printable ASCII. -/
def isPlain (b : UInt8) : Bool :=
  b = 9 || (32 ≤ b && b ≤ 126)

/-- Names of headers ignore case, and of several headers with the name the first counts. -/
def requestId? (headers : List Header) : Option String := do
  let h ← headers.find? (·.name.toLower = "x-request-id")
  if h.value.all isPlain then Text.ofUtf8? h.value else none

def status (r : Response) : Nat :=
  if r.hasCode .unauthorized then 401 else 200

end InfraGraph.Api.Http
