/-!
The values of an answer. An object keeps its members in the order in which they were first named. A
member that is named again adds to the first: objects take in new members, lists go item by item, and
anything else stays as it is. Only when all has been added does an object without members become null,
so that one part of an answer with nothing to show takes nothing away from another.
-/

namespace InfraGraph.Graph

inductive Value
  | null
  | bool (value : Bool)
  | int (value : Int)
  | text (value : String)
  | list (items : List Value)
  | object (members : List (String × Value))

namespace Value

def texts (ts : List String) : Value :=
  list (ts.map text)

def optional : Option String → Value
  | none => null
  | some t => text t

mutual

def merge (old : Value) : Value → Value
  | object ms =>
      match old with
      | object os => object (addAll os ms)
      | v => v
  | list vs =>
      match old with
      | list os => list (mergeItems os vs)
      | v => v
  | _ => old

def addAll (os : List (String × Value)) : List (String × Value) → List (String × Value)
  | [] => os
  | (key, v) :: ms =>
      if os.any (·.1 = key) then
        addAll (os.map fun m => if m.1 = key then (key, merge m.2 v) else m) ms
      else addAll (os ++ [(key, v)]) ms

def mergeItems : List Value → List Value → List Value
  | o :: os, v :: vs => merge o v :: mergeItems os vs
  | os, _ => os

end

mutual

/-- The value with null in place of each object that has no members. -/
def tidy : Value → Value
  | object [] => null
  | object (m :: ms) => object (tidyMembers (m :: ms))
  | list vs => list (tidyItems vs)
  | v => v

def tidyMembers : List (String × Value) → List (String × Value)
  | [] => []
  | (key, v) :: ms => (key, tidy v) :: tidyMembers ms

def tidyItems : List Value → List Value
  | [] => []
  | v :: vs => tidy v :: tidyItems vs

end

end Value

end InfraGraph.Graph
