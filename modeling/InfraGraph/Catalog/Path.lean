import InfraGraph.Text.Search

/-!
Paths of groups and of what they hold, with a slash between segments. A path lies below another if it
goes on after it with a slash, so that `ops` is above `ops/api` and not above `opsx`.
-/

namespace InfraGraph.Path

def isBelow (path root : String) : Bool :=
  Text.beginsWith path (root ++ "/")

def isWithin (path root : String) : Bool :=
  path = root || isBelow path root

end InfraGraph.Path
