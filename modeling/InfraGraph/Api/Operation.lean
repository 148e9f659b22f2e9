import InfraGraph.Api.Schema
import InfraGraph.Feed.Relay
import InfraGraph.Graph.Execution

/-!
Operations: a query, a mutation or a subscription run against the service. The fields of a query go on
side by side, those of a mutation one after another, and all share the loaders of the request. A
subscription answers once for each event, in order; each event brings new loaders for its run. It ends
with the feed, or with the first fault.
-/

namespace InfraGraph.Api

open InfraGraph.Graph

structure Response where
  data : Value
  errors : List FieldError

namespace Response

def compareSegments : Segment → Segment → Ordering
  | .key a, .key b => compare a b
  | .index i, .index j => compare i j
  | .index _, .key _ => .lt
  | .key _, .index _ => .gt

def comparePaths : List Segment → List Segment → Ordering
  | [], [] => .eq
  | [], _ :: _ => .lt
  | _ :: _, [] => .gt
  | a :: as, b :: bs => (compareSegments a b).then (comparePaths as bs)

/-- Errors are given in the order of their paths, and objects that nothing came of are null. -/
def ofResult (r : Result) : Response :=
  ⟨(r.value.getD .null).tidy, r.errors.mergeSort fun a b => comparePaths a.path b.path != .gt⟩

def ofFault (path : List Segment) (f : Fault) : Response :=
  ⟨.null, [⟨path, f⟩]⟩

def hasCode (r : Response) (code : FaultCode) : Bool :=
  r.errors.any (·.fault.code = code)

end Response

def query (s : Setup) (loaders : LoaderSettings) (sels : List Selection) (service : Service) :
    Response × Service :=
  let t := Work.object (Work.ofRoot (schema s) sels .query)
  let (t, w) := t.run (Selection.depthAll sels) (World.new loaders service)
  (.ofResult (t.result []), w.service)

def runInTurn (depth : Nat) : List Work → World → List Work × World
  | [], w => ([], w)
  | t :: ts, w =>
      let (t, w) := t.run depth w
      let (ts, w) := runInTurn depth ts w
      (t :: ts, w)

def mutation (s : Setup) (loaders : LoaderSettings) (sels : List Selection) (service : Service) :
    Response × Service :=
  let fields := Work.ofRoot (schema s) sels .mutation
  let (works, w) :=
    runInTurn (Selection.depthAll sels) (fields.map (·.2)) (World.new loaders service)
  (.ofResult ((Work.parts (.object (fields.map (·.1))) works).result []), w.service)

namespace Subscription

/-- The events of a workspace, or of one of its runs, as far as the relay carries them. -/
def runEvents (s : Setup) (args : Arguments) : Resolver (List (Feed.Item RunEvent)) := do
  s.needCatalog
  let workspace ← workspaceId (args.id? "workspaceId") (args.text? "workspacePath")
  let run ← Resolver.ofExcept (decodeId? .run (args.id? "runId"))
  let source ← Resolver.ask (.runEvents workspace run)
  s.needFactory
  let settings ← s.needSettings
  return ((Feed.Relay.new settings.feeds.buffer source .ends).subscribe none).received

def respond (s : Setup) (loaders : LoaderSettings) (key : String) (inner : List Selection) :
    List (Feed.Item RunEvent) → World → List Response × World
  | [], w => ([], w)
  | .error f :: rest, w =>
      let (responses, w) := respond s loaders key inner rest w
      (.ofFault [.key key] f :: responses, w)
  | .ok e :: rest, w =>
      let t := Work.object [(key, Work.object (Work.ofRoot (schema s) inner (.runEvent e)))]
      let (t, w) := t.run (Selection.depthAll inner) { w with event := Loaders.new loaders }
      let (responses, w) := respond s loaders key inner rest w
      (.ofResult (t.result []) :: responses, w)

mutual

def ofSelection (s : Setup) (loaders : LoaderSettings) :
    Selection → World → List Response × World
  | .field key _ args inner, w =>
      match w.perform (runEvents s args).run with
      | (.error f, w) => ([.ofFault [.key key] f], w)
      | (.ok events, w) => respond s loaders key inner events w
  | .fragment _ inner, w => ofSelections s loaders inner w

def ofSelections (s : Setup) (loaders : LoaderSettings) :
    List Selection → World → List Response × World
  | [], w => ([], w)
  | sel :: sels, w =>
      let (first, w) := ofSelection s loaders sel w
      let (more, w) := ofSelections s loaders sels w
      (first ++ more, w)

end

end Subscription

def subscription (s : Setup) (loaders : LoaderSettings) (sels : List Selection)
    (service : Service) : List Response × Service :=
  let (responses, w) := Subscription.ofSelections s loaders sels (World.new loaders service)
  (responses, w.service)

end InfraGraph.Api
