import InfraGraph.Api.Mutation
import InfraGraph.Api.Query

/-!
The schema: what every field of every node does. Fields that a node holds itself are tried first, then
those that lead on.
-/

namespace InfraGraph.Api

open InfraGraph.Graph

def orNull (v : Option Value) : Resolver (Outcome Node) :=
  return .value (v.getD .null)

def entityField (s : Setup) (e : Entity) (name : String) (args : Arguments) :
    Resolver (Outcome Node) :=
  if name = "metadata" then return .node (.metadata e.metadata)
  else
    match e.field? name with
    | some v => return .value v
    | none => link s e name args

/-- The run of an event is like any run, but its workspace is loaded within the event. -/
def eventRunField (s : Setup) (r : Run) (name : String) (args : Arguments) :
    Resolver (Outcome Node) :=
  if name = "workspace" then do
    return .node (.entity (← Resolver.require .event .workspace .workspace r.workspaceId))
  else entityField s (.run r) name args

def payloadField (p : Payload) (name : String) : Resolver (Outcome Node) :=
  if name = "clientMutationId" then return .value (.optional p.clientMutationId)
  else if name = "problems" then return .nodes (p.problems.map .problem)
  else if name = Payload.resultField p.kind then
    match p.result with
    | none => nothing
    | some e => return .node (.entity e)
  else nothing

def connectionField (kind : Kind) (c : Connection Entity) : String → Resolver (Outcome Node)
  | "edges" => return .nodes (c.edges.map (.edge kind))
  | "pageInfo" => return .node (.pageInfo c.pageInfo)
  | "totalCount" => return .value (.int c.total)
  | _ => nothing

def edgeField (e : Edge Entity) : String → Resolver (Outcome Node)
  | "cursor" => return .value (.text e.cursor)
  | "node" => return .node (.entity e.node)
  | _ => nothing

def runEventField (e : RunEvent) : String → Resolver (Outcome Node)
  | "action" => return .value (.text e.action)
  | "run" => return .node (.eventRun e.run)
  | _ => nothing

def resolve (s : Setup) : Node → String → Arguments → Resolver (Outcome Node)
  | .query, name, args => Query.field s name args
  | .mutation, name, args => Mutation.field s name args
  | .entity e, name, args => entityField s e name args
  | .eventRun r, name, args => eventRunField s r name args
  | .runEvent e, name, _ => runEventField e name
  | .metadata m, name, _ => orNull (m.field? name)
  | .connection kind c, name, _ => connectionField kind c name
  | .edge _ e, name, _ => edgeField e name
  | .pageInfo p, name, _ => orNull (p.field? name)
  | .detail d, name, _ => orNull (d.field? name)
  | .payload p, name, _ => payloadField p name
  | .problem p, name, _ => orNull (p.field? name)

def schema (s : Setup) : Schema Node :=
  ⟨Node.typeName, resolve s⟩

end InfraGraph.Api
