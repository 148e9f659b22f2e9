import InfraGraph.Graph.Plan
import InfraGraph.Graph.Selection
import InfraGraph.Graph.Value
import InfraGraph.Loader.Basic

/-!
Work: what is left to do for an answer. A selection asked of a node becomes work all of whose parts
may go on side by side; a part stops where a loader makes it wait. Finished work is read off as a
value and the faults met on the way, each at its path. A field that failed is left out of its object.
-/

namespace InfraGraph.Graph

/-- What a field leads to. Where the schema has a union, `oneOf` says which. -/
inductive Outcome (ν : Type)
  | value (v : Value)
  | node (n : ν)
  | oneOf (union : String) (n : ν)
  | nodes (ns : List ν)

structure Schema (ν : Type) where
  typeName : ν → String
  resolve : ν → (field : String) → Arguments → Resolver (Outcome ν)

inductive Assembly
  | object (keys : List String)
  | list

inductive Work
  | value (v : Value)
  | failed (f : Fault)
  | ask (q : Request) (next : Except Fault q.Reply → Work)
  | load (scope : Scope) (kind : Kind) (type : EntityType) (id : String)
      (next : Except Fault (Option Entity) → Work)
  | waiting (scope : Scope) (kind : Kind) (type : EntityType) (id : String) (ticket : Ticket Entity)
      (next : Except Fault (Option Entity) → Work)
  | parts (assembly : Assembly) (works : List Work)

namespace Work

def ofPlan {α : Type} (next : α → Work) : Plan α → Work
  | .done a => next a
  | .ask q k => ask q fun r => ofPlan next (k r)
  | .load scope kind type id k => load scope kind type id fun r => ofPlan next (k r)

def object (fields : List (String × Work)) : Work :=
  parts (.object (fields.map (·.1))) (fields.map (·.2))

section

variable {ν : Type}

def ofOutcome (s : Schema ν) (inner : String → ν → List (String × Work)) :
    Except Fault (Outcome ν) → Work
  | .error f => failed f
  | .ok (.value v) => value v
  | .ok (.node n) => object (inner (s.typeName n) n)
  | .ok (.oneOf union n) => object (inner union n)
  | .ok (.nodes ns) => parts .list (ns.map fun n => object (inner (s.typeName n) n))

mutual

/-- A selection asked of a node whose position has the type `position`. A fragment goes on if its type
is that of the node or that of the position. -/
def ofSelection (s : Schema ν) : Selection → (position : String) → ν → List (String × Work)
  | .field key name args inner, _, n =>
      if name = "__typename" then [(key, value (.text (s.typeName n)))]
      else [(key, ofPlan (ofOutcome s (ofSelections s inner)) (s.resolve n name args).run)]
  | .fragment type inner, position, n =>
      if type = s.typeName n then ofSelections s inner type n
      else if type = position then ofSelections s inner position n
      else []

def ofSelections (s : Schema ν) : List Selection → (position : String) → ν → List (String × Work)
  | [], _, _ => []
  | sel :: sels, position, n => ofSelection s sel position n ++ ofSelections s sels position n

end

def ofRoot (s : Schema ν) (sels : List Selection) (n : ν) : List (String × Work) :=
  ofSelections s sels (s.typeName n) n

end

end Work

inductive Segment
  | key (name : String)
  | index (position : Nat)
  deriving DecidableEq, Repr

structure FieldError where
  path : List Segment
  fault : Fault
  deriving DecidableEq, Repr

/-- A value, or none for a field that is left out, and the faults met. -/
structure Result where
  value : Option Value
  errors : List FieldError

namespace Work

def assemble : Assembly → List Result → Result
  | .object keys, results =>
      let members := (keys.zip results).filterMap fun (key, r) => r.value.map (key, ·)
      ⟨some (.object (Value.addAll [] members)), results.flatMap (·.errors)⟩
  | .list, results => ⟨some (.list (results.map fun r => r.value.getD .null)),
      results.flatMap (·.errors)⟩

def segments (works : List Work) : Assembly → List Segment
  | .object keys => keys.map .key
  | .list => (List.range works.length).map .index

mutual

/-- What finished work comes to; work that still waits counts as left out. -/
def result (path : List Segment) : Work → Result
  | value v => ⟨some v, []⟩
  | failed f => ⟨none, [⟨path, f⟩]⟩
  | parts assembly works => assemble assembly (results path (segments works assembly) works)
  | _ => ⟨none, []⟩

def results (path : List Segment) : List Segment → List Work → List Result
  | step :: steps, w :: ws => result (path ++ [step]) w :: results path steps ws
  | _, _ => []

end

end Work

end InfraGraph.Graph
