/-!
Selections: which fields of a node are asked for, under which keys, with which arguments, and what is
asked of the nodes they lead to. A fragment asks only of nodes of one type.
-/

namespace InfraGraph.Graph

inductive Argument
  | null
  | bool (value : Bool)
  | int (value : Int)
  | text (value : String)
  | choice (name : String)
  | list (items : List Argument)
  | record (fields : List (String × Argument))

abbrev Arguments := List (String × Argument)

inductive Selection
  | field (key name : String) (arguments : Arguments) (inner : List Selection)
  | fragment (type : String) (inner : List Selection)

namespace Arguments

/-- An argument that is null counts as not given. -/
def get? (args : Arguments) (name : String) : Option Argument :=
  match args.lookup name with
  | some .null => none
  | a => a

def text? (args : Arguments) (name : String) : Option String :=
  match args.get? name with
  | some (.text t) => some t
  | _ => none

def text (args : Arguments) (name : String) : String :=
  (args.text? name).getD ""

/-- An identifier may also be given as a whole number. -/
def id? (args : Arguments) (name : String) : Option String :=
  match args.get? name with
  | some (.text t) => some t
  | some (.int n) => some (toString n)
  | _ => none

def id (args : Arguments) (name : String) : String :=
  (args.id? name).getD ""

def int? (args : Arguments) (name : String) : Option Int :=
  match args.get? name with
  | some (.int n) => some n
  | _ => none

def bool? (args : Arguments) (name : String) : Option Bool :=
  match args.get? name with
  | some (.bool b) => some b
  | _ => none

def bool (args : Arguments) (name : String) : Bool :=
  (args.bool? name).getD false

def choice? (args : Arguments) (name : String) : Option String :=
  match args.get? name with
  | some (.choice c) => some c
  | _ => none

/-- Choices in a list; a single one stands for the list of it. -/
def choices (args : Arguments) (name : String) : List String :=
  match args.get? name with
  | some (.list items) =>
      items.filterMap fun a => match a with
        | .choice c => some c
        | _ => none
  | some (.choice c) => [c]
  | _ => []

def record (args : Arguments) (name : String) : Arguments :=
  match args.get? name with
  | some (.record fields) => fields
  | _ => []

end Arguments

namespace Selection

mutual

def depth : Selection → Nat
  | field _ _ _ inner => depthAll inner + 1
  | fragment _ inner => depthAll inner

def depthAll : List Selection → Nat
  | [] => 0
  | s :: ss => max (depth s) (depthAll ss)

end

end Selection

end InfraGraph.Graph
