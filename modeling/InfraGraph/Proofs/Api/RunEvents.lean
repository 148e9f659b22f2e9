import InfraGraph.Proofs.Api.Arguments
import InfraGraph.Proofs.Api.Events
import InfraGraph.Proofs.Catalog.Versions
import InfraGraph.Proofs.Feed.Subscribing

/-!
The subscription to the events of a workspace. Once it is open it answers for each event that concerns the
workspace, and the run if one is named, up to the first fault of the queue. Arguments that do not name one
workspace are refused before the service is asked anything. An identifier that is not that of a run is refused
after the lookup of a path.
-/

namespace InfraGraph

def RunEvent.isOf (workspace : String) (run : Option String) (e : RunEvent) : Bool :=
  e.run.workspaceId = workspace && run.all (e.run.id = ·)

namespace Feed

variable {α : Type}

def eventsOf : List (Item α) → List α
  | [] => []
  | .ok a :: rest => a :: eventsOf rest
  | .error _ :: _ => []

def firstFault? : List (Item α) → Option Fault
  | [] => none
  | .ok _ :: rest => firstFault? rest
  | .error f :: _ => some f

/-- The items of a queue that are heard by who waits for a workspace, or for one of its runs. -/
def heard (workspace : String) (run : Option String) (queue : List (Item RunEvent)) :
    List (Item RunEvent) :=
  ((eventsOf queue).filter (·.isOf workspace run)).map .ok ++ (firstFault? queue).toList.map .error

theorem upToFault_concerns (workspace : String) (run : Option String) (queue : List (Item RunEvent)) :
    upToFault (queue.filter (Service.concerns workspace run)) = heard workspace run queue := by
  induction queue with
  | nil => rfl
  | cons item rest ih =>
    cases item with
    | error f => rfl
    | ok e =>
      have same : Service.concerns workspace run (.ok e) = e.isOf workspace run := rfl
      cases concerned : e.isOf workspace run with
      | true =>
        rw [List.filter_cons_of_pos (same.trans concerned), upToFault, ih]
        simp [heard, eventsOf, firstFault?, concerned]
      | false =>
        rw [List.filter_cons_of_neg (by rw [same, concerned]; decide), ih]
        simp [heard, eventsOf, firstFault?, concerned]

end Feed

namespace Service

def Clear (s : Service) (method : String) : Prop :=
  ∀ a ∈ s.armed, Text.beginsWith method a.start = false

theorem answer_clear {s : Service} {q : Request} (clear : s.Clear q.method) :
    s.answer q = ({ s with log := s.log ++ [.single q.method] } : Service).perform q := by
  have unmet : s.armed.find? (fun a => Text.beginsWith (Call.single q.method).text a.start) = none := by
    rw [List.find?_eq_none]
    intro a mem
    rw [show (Call.single q.method).text = q.method from rfl, clear a mem]
    exact Bool.false_ne_true
  simp only [answer, record, unmet]

end Service

namespace Api

open InfraGraph.Graph
open Subscription (runEvents)

/-- The workspace that arguments name, by its identifier, or by the path of one that is in the store and that
the service is not told to fail on. -/
inductive NamesWorkspace (service : Service) (args : Arguments) : String → Prop
  | byId {text id : String} (given : args.id? "workspaceId" = some text)
      (alone : args.text? "workspacePath" = none) (decoded : GlobalId.decode text = .ok ⟨.workspace, id⟩) :
      NamesWorkspace service args id
  | byPath {path id : String} (alone : args.id? "workspaceId" = none)
      (given : args.text? "workspacePath" = some path)
      (found : (service.store.workspaces.find? (·.fullPath = path)).map (·.id) = some id)
      (clear : service.Clear "get_workspace_by_path") : NamesWorkspace service args id

section Opening

variable {args : Arguments} {service : Service}

theorem runEvents_eq (settings : Settings) (args : Arguments) : runEvents (.complete settings) args = do
    let workspace ← workspaceId (args.id? "workspaceId") (args.text? "workspacePath")
    let run ← Resolver.ofExcept (decodeId? .run (args.id? "runId"))
    let source ← Resolver.ask (.runEvents workspace run)
    return ((Feed.Relay.new settings.feeds.buffer source .ends).subscribe none).received :=
  rfl

theorem carryOut_workspaceId {workspace : String} (named : NamesWorkspace service args workspace) :
    ∃ log, (workspaceId (args.id? "workspaceId") (args.text? "workspacePath")).run.carryOut service =
      (.ok workspace, { service with log := log }) := by
  cases named with
  | byId given alone decoded =>
    refine ⟨service.log, ?_⟩
    simp only [workspaceId, given, alone, locate, decodeId, GlobalId.decodeAs, decoded]
    rfl
  | @byPath path _ alone given found clear =>
    obtain ⟨w, there, rfl⟩ := Option.map_eq_some_iff.mp found
    refine ⟨service.log ++ [.single "get_workspace_by_path"], ?_⟩
    have answered : service.answer (.workspaceAt path) = (.ok w, { service with
        log := service.log ++ [.single "get_workspace_by_path"] }) := by
      rw [Service.answer_clear (q := .workspaceAt path) clear]
      exact Prod.ext (Store.first_of_find? there "workspace" path) rfl
    simp only [workspaceId, alone, given, locate]
    exact Resolver.carryOut_bind_ok (r := Resolver.ask (.workspaceAt path)) answered _

theorem carryOut_runEvents (settings : Settings) {workspace : String} {run : Option String}
    (named : NamesWorkspace service args workspace) (narrowed : decodeId? .run (args.id? "runId") = .ok run)
    (clear : service.Clear "subscribe_to_run_events") :
    ∃ log, (runEvents (.complete settings) args).run.carryOut service =
      (.ok (Feed.heard workspace run service.feed), { service with feed := [], log := log }) := by
  obtain ⟨log, located⟩ := carryOut_workspaceId named
  refine ⟨log ++ [.single "subscribe_to_run_events"], ?_⟩
  rw [runEvents_eq, Resolver.carryOut_bind_ok located, narrowed]
  have opened : ({ service with log := log } : Service).answer (.runEvents workspace run) =
      (.ok (service.feed.filter (Service.concerns workspace run)),
        { service with feed := [], log := log ++ [.single "subscribe_to_run_events"] }) :=
    Service.answer_clear (q := .runEvents workspace run) clear
  refine (Resolver.carryOut_bind_ok (r := Resolver.ask (.runEvents workspace run)) opened _).trans ?_
  rw [Feed.Relay.subscribe_received, Feed.upToFault_concerns]
  rfl

end Opening

section Answers

variable (s : Setup) {loaders : LoaderSettings} (key : String) (inner : List Selection)

/-- The response to one item in the world that the items before it have left. -/
def answered (loaders : LoaderSettings) (w : World) : Feed.Item RunEvent → Response
  | .error f => .ofFault [.key key] f
  | .ok e => .ofResult (((eventWork s key inner e).run (Selection.depthAll inner)
      (w.renew loaders)).1.result [])

/-- Each item has its response at its own place, whatever the calls below it come to. -/
theorem respond_getElem? (items : List (Feed.Item RunEvent)) {w : World} (sound : w.Sound)
    (settings : w.request.settings = loaders) {i : Nat} {item : Feed.Item RunEvent}
    (here : items[i]? = some item) :
    ∃ w' : World, w'.service.store = w.service.store ∧
      (Subscription.respond s loaders key inner items w).1[i]? =
        some (answered s key inner loaders w' item) := by
  induction items generalizing w i with
  | nil => simp at here
  | cons first rest ih =>
    cases i with
    | zero =>
      obtain rfl : first = item := by simpa using here
      cases first <;> exact ⟨w, rfl, rfl⟩
    | succ i =>
      have later : rest[i]? = some item := by simpa using here
      cases first with
      | error f => exact ih sound settings later
      | ok e =>
        have evolves := (eventWork_completes s key inner e sound settings).evolves
        obtain ⟨w', store, shown⟩ := ih evolves.sound (evolves.settings.trans settings) later
        exact ⟨w', store.trans evolves.store, shown⟩

theorem respond_runEventFields (items : List (Feed.Item RunEvent)) (w : World) :
    (Subscription.respond s loaders key runEventFields items w).1 = items.map fun
      | .error f => ⟨.null, [⟨[.key key], f⟩]⟩
      | .ok e => ⟨.object [(key, .object [("action", .text e.action),
          ("run", .object [("id", .text (GlobalId.encode ⟨.run, e.run.id⟩))])])], []⟩ := by
  induction items generalizing w with
  | nil => rfl
  | cons item rest ih =>
    cases item with
    | error f => exact congrArg (_ :: ·) (ih w)
    | ok e =>
      have shows := shows_field (shows_runEvent s e) key
      simp only [Subscription.respond, Work.run_of_finished shows.finished, ofResult_shows shows, ih,
        List.map_cons]

end Answers

/-- For every queue, every size of the channel, every named workspace and every run, the subscription answers
for just the events before the first fault that are of the workspace, and of the run if one is named, in the
order of the queue; then for that fault; and for nothing else. Each event shows what it is and its run. That is
also what is received if producer and subscriber take turns in any other order. Faults that are armed for other
calls change what is shown below the run of an event, and not which events are shown. -/
theorem run_events_delivered (settings : Settings) (loaders : LoaderSettings) (service : Service)
    (key name : String) (args : Arguments) (inner : List Selection) {workspace : String}
    {run : Option String} (named : NamesWorkspace service args workspace)
    (narrowed : decodeId? .run (args.id? "runId") = .ok run)
    (clear : service.Clear "subscribe_to_run_events") :
    let items := Feed.heard workspace run service.feed
    let responses := (subscription (.complete settings) loaders [.field key name args inner] service).1
    responses.length = items.length ∧
    (∀ (i : Nat) item, items[i]? = some item → ∃ w : World, w.service.store = service.store ∧
      responses[i]? = some (answered (.complete settings) key inner loaders w item)) ∧
    (service.armed = [] →
      responses = items.map (eventResponse (.complete settings) key inner (.ofStore service.store))) ∧
    ((subscription (.complete settings) loaders [.field key name args runEventFields] service).1 =
      items.map fun
        | .error f => ⟨.null, [⟨[.key key], f⟩]⟩
        | .ok e => ⟨.object [(key, .object [("action", .text e.action),
            ("run", .object [("id", .text (GlobalId.encode ⟨.run, e.run.id⟩))])])], []⟩) ∧
    ∀ r, Feed.Relay.Reaches settings.feeds.buffer
        (service.feed.filter (Service.concerns workspace run)) .ends r →
      r.subscribed → r.isClosed → r.received = items := by
  intro items responses
  obtain ⟨log, opens⟩ := carryOut_runEvents settings named narrowed clear
  let w := World.new loaders { service with feed := [], log := log }
  -- opening the subscription is one call; the events are answered in the world it leaves
  have every (inner : List Selection) :
      (subscription (.complete settings) loaders [.field key name args inner] service).1 =
        (Subscription.respond (.complete settings) loaders key inner items w).1 := by
    simp only [subscription_eq, opened_eq, opens]
    rfl
  have shown : responses = (Subscription.respond (.complete settings) loaders key inner items w).1 :=
    every inner
  have sound : w.Sound := World.sound_new loaders _
  have configured : w.request.settings = loaders := World.settings_new loaders _
  refine ⟨by rw [shown, respond_length], fun i item here => ?_, fun calm => ?_, ?_,
    fun r reached subscribed closed => ?_⟩
  · rw [shown]
    exact respond_getElem? (.complete settings) key inner items sound configured here
  · have leaves := respond_leaves (.complete settings) key inner items sound configured
    have unhit := Nat.le_antisymm leaves.armed_le
      (by rw [show w.service.armed = [] from calm]; exact Nat.zero_le _)
    rw [shown, (respond_unhit (.complete settings) key inner items sound configured unhit).1]
    exact congrArg (fun v => items.map (eventResponse (.complete settings) key inner v))
      (eventView_new loaders _)
  · rw [every, respond_runEventFields]
  · rw [Feed.Relay.received_of_closed reached subscribed closed, Feed.upToFault_concerns]

def mixedFeed : Service :=
  let run (id workspace : String) : Run :=
    ⟨id, workspace, .pending, false, none, none, none, false, "admin", .fresh⟩
  { Service.new smallStore with feed := [.ok ⟨"CREATE", run "r" "w"⟩, .ok ⟨"CREATE", run "x" "v"⟩,
      .error ⟨.serviceUnavailable, "feed lost", none⟩, .ok ⟨"UPDATE", run "r" "w"⟩] }

theorem run_events_delivered_mixed :
    NamesWorkspace mixedFeed watchedPath "w" ∧
    ((watch mixedFeed).map fun r => r.errors.map (·.fault.code.label)) = [[], ["SERVICE_UNAVAILABLE"]] ∧
    (subscription (.complete .standard) ⟨1, 100⟩
        [.field "events" "workspaceRunEvents" watchedPath runEventFields] mixedFeed).1 =
      [⟨.object [("events", .object [("action", .text "CREATE"),
          ("run", .object [("id", .text (GlobalId.encode ⟨.run, "r"⟩))])])], []⟩,
        ⟨.null, [⟨[.key "events"], ⟨.serviceUnavailable, "feed lost", none⟩⟩]⟩] := by
  have clear : ∀ method, mixedFeed.Clear method := fun method a mem => by cases mem
  have named : NamesWorkspace mixedFeed watchedPath "w" := .byPath rfl rfl rfl (clear _)
  have every : decodeId? .run (watchedPath.id? "runId") = .ok none := rfl
  obtain ⟨-, -, responses, literal, -⟩ := run_events_delivered .standard ⟨1, 100⟩ mixedFeed "events"
    "workspaceRunEvents" watchedPath groupOfRun named every (clear _)
  refine ⟨named, ?_, literal.trans rfl⟩
  rw [watch, responses rfl]
  decide +kernel

section Refusals

variable {settings : Settings} {args : Arguments} {service service' : Service} {f : Fault}

theorem subscription_failed {s : Setup}
    (failed : (runEvents s args).run.carryOut service = (.error f, service'))
    (loaders : LoaderSettings) (key name : String) (inner : List Selection) :
    subscription s loaders [.field key name args inner] service = ([.ofFault [.key key] f], service') := by
  have opens : (World.new loaders service).perform (runEvents s args).run =
      (.error f, World.new loaders service') := by
    have eq := opened_eq s loaders args service
    rwa [opened, failed] at eq
  simp only [subscription, Subscription.ofSelections, Subscription.ofSelection, opens, List.append_nil,
    World.service_new]

theorem refuses_runEvents_workspace
    (broken : (Rule.oneOf .workspace "workspaceId" "workspacePath").Broken settings args) :
    Refuses (runEvents (.complete settings) args) := by
  rw [runEvents_eq]
  exact (refuses_workspaceId broken).bind

theorem checks_workspaceId {id path : Option String} (pathless : path = none) :
    Checks (workspaceId id path) := by
  obtain rfl := pathless
  cases id with
  | none => exact .inl (refuses_workspaceId (.inl rfl))
  | some text =>
    by_cases named : Names .workspace text
    · obtain ⟨i, decoded⟩ := named
      exact .inr ⟨i, by simp [workspaceId, locate, decodeId, GlobalId.decodeAs, decoded]; rfl⟩
    · exact .inl (refuses_workspaceId (.inr ⟨text, rfl, named⟩))

theorem refuses_runEvents_run (pathless : args.text? "workspacePath" = none)
    (broken : (Rule.optionalId .run "runId").Broken settings args) :
    Refuses (runEvents (.complete settings) args) := by
  rw [runEvents_eq]
  exact (checks_workspaceId pathless).bind fun _ => (decodeId?_refused broken).refuses.bind

/-- The lookup of the path comes first, and its fault before that of the identifier of the run. -/
theorem carryOut_runEvents_refused {path : String} (idless : args.id? "workspaceId" = none)
    (given : args.text? "workspacePath" = some path)
    (broken : (Rule.optionalId .run "runId").Broken settings args) (service : Service) :
    ∃ f, (runEvents (.complete settings) args).run.carryOut service =
        (.error f, (service.answer (.workspaceAt path)).2) ∧
      ((service.answer (.workspaceAt path)).1 = .error f ∨
        (∃ w, (service.answer (.workspaceAt path)).1 = .ok w) ∧ f.code = .invalidInput) := by
  obtain ⟨f, code, refused⟩ := decodeId?_refused broken
  have asked : workspaceId (args.id? "workspaceId") (args.text? "workspacePath") =
      Resolver.ask (.workspaceAt path) >>= fun w => pure w.id := by
    rw [workspaceId, idless, given]
    rfl
  rw [runEvents_eq, asked]
  cases looked : service.answer (.workspaceAt path) with
  | mk reply service' =>
    cases reply with
    | error g =>
      have failed := Resolver.carryOut_bind_error (r := Resolver.ask (.workspaceAt path)) looked
        (fun w => pure w.id)
      exact ⟨g, Resolver.carryOut_bind_error failed _, .inl rfl⟩
    | ok w =>
      have found := Resolver.carryOut_bind_ok (r := Resolver.ask (.workspaceAt path)) looked
        (fun w => pure w.id)
      refine ⟨f, ?_, .inr ⟨⟨w, rfl⟩, code⟩⟩
      rw [Resolver.carryOut_bind_ok found, refused]
      rfl

/-- A subscription whose arguments do not name one workspace, or name one by its identifier and give a wrong
identifier of a run, is refused as bad input, and the service is not asked. A wrong identifier of a run beside
a path is refused only after the path was looked up, and the fault of that lookup comes first. The events are
never asked for. -/
theorem run_events_refused (settings : Settings) (loaders : LoaderSettings) (key name : String)
    (args : Arguments) (inner : List Selection) (service : Service) :
    let out := subscription (.complete settings) loaders [.field key name args inner] service
    ((Rule.oneOf .workspace "workspaceId" "workspacePath").Broken settings args ∨
        args.text? "workspacePath" = none ∧ (Rule.optionalId .run "runId").Broken settings args →
      ∃ f : Fault, f.code.label = "BAD_REQUEST" ∧ out = ([.ofFault [.key key] f], service)) ∧
    ∀ path, args.id? "workspaceId" = none → args.text? "workspacePath" = some path →
      (Rule.optionalId .run "runId").Broken settings args →
      ∃ f : Fault, out.1 = [.ofFault [.key key] f] ∧
        ((service.answer (.workspaceAt path)).1 = .error f ∨
          (∃ w, (service.answer (.workspaceAt path)).1 = .ok w) ∧ f.code.label = "BAD_REQUEST") ∧
        out.2.log = service.log ++ [.single "get_workspace_by_path"] ∧
        out.2.store = service.store ∧ out.2.feed = service.feed := by
  intro out
  refine ⟨fun broken => ?_, fun path idless given broken => ?_⟩
  · have refuses : Refuses (runEvents (.complete settings) args) := by
      rcases broken with broken | ⟨pathless, broken⟩
      · exact refuses_runEvents_workspace broken
      · exact refuses_runEvents_run pathless broken
    obtain ⟨f, code, refused⟩ := refuses
    have failed : (runEvents (.complete settings) args).run.carryOut service = (.error f, service) := by
      rw [refused]
      rfl
    exact ⟨f, by rw [code]; rfl, subscription_failed failed loaders key name inner⟩
  · obtain ⟨f, failed, cause⟩ := carryOut_runEvents_refused idless given broken service
    have whole : out = _ := subscription_failed failed loaders key name inner
    have core := (Service.answer_answers (q := .workspaceAt path) rfl service).spent.1
    refine ⟨f, by rw [whole], cause.imp id fun ⟨found, code⟩ => ⟨found, by rw [code]; rfl⟩, ?_⟩
    rw [whole]
    exact ⟨Service.log_answer service (.workspaceAt path), Service.store_eq_of_core core,
      congrArg (·.feed) core⟩

def strayRun : Arguments :=
  [("workspacePath", .text "ops/api"), ("runId", .text "nope")]

theorem strayRun_broken : (Rule.optionalId .run "runId").Broken .standard strayRun := by
  refine ⟨"nope", rfl, fun ⟨id, decoded⟩ => ?_⟩
  have flawed : (GlobalId.decode "nope").isOk = false := by decide +kernel
  rw [decoded] at flawed
  cases flawed

def strayed (service : Service) : List Response × Service :=
  subscription (.complete .standard) ⟨1, 100⟩ [.field "events" "workspaceRunEvents" strayRun []] service

theorem run_events_refused_stray : (Rule.optionalId .run "runId").Broken .standard strayRun ∧
    ∃ f : Fault, (strayed twoEvents).1 = [.ofFault [.key "events"] f] ∧ f.code.label = "BAD_REQUEST" ∧
      (strayed twoEvents).2.feed = twoEvents.feed := by
  obtain ⟨f, response, cause, -, -, feed⟩ := (run_events_refused .standard ⟨1, 100⟩ "events"
    "workspaceRunEvents" strayRun [] twoEvents).2 "ops/api" rfl rfl strayRun_broken
  refine ⟨strayRun_broken, f, response, ?_, feed⟩
  rcases cause with failed | ⟨-, label⟩
  · cases failed
  · exact label

/-- The service has been asked for the path although the identifier of the run is none; and if the path leads
nowhere, that is what is reported. -/
theorem stray_run_looks_up_path :
    (Rule.optionalId .run "runId").Broken .standard strayRun ∧
    (strayed twoEvents).2.log.map Call.text = ["get_workspace_by_path"] ∧
    ((strayed (.new { smallStore with workspaces := [] })).1.map fun r =>
      r.errors.map (·.fault.code.label)) = [["NOT_FOUND"]] :=
  ⟨strayRun_broken, by decide +kernel, by decide +kernel⟩

end Refusals

end Api

end InfraGraph
