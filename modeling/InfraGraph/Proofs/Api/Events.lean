import InfraGraph.Proofs.Api.Mutations

/-!
The events of a subscription. Each event brings a registry of its own, and what that has kept is gone
with it. Below the workspace of a run, though, entities are looked up in the registry of the request,
which all events share: a failed lookup in it stays failed for every event that comes later. Nothing
else passes from one event to another.
-/

namespace InfraGraph

namespace Graph

namespace World

def renew (w : World) (s : LoaderSettings) : World :=
  { w with event := Loaders.new s }

theorem renew_loader (w : World) (s : LoaderSettings) (kind : Kind) :
    (w.renew s).loader .event kind = .new s :=
  Loaders.loader_new s kind

theorem Sound.renew {w : World} (sound : w.Sound) {s : LoaderSettings}
    (settings : w.request.settings = s) : (w.renew s).Sound where
  serves
    | .request => sound.serves .request
    | .event => fun _ _ h => Loaders.serves_new s h
  orderly
    | .request => sound.orderly .request
    | .event => fun kind => renew_loader w s kind ▸ Loader.orderly_new s
  delay
    | .request => sound.delay .request
    | .event => fun kind => by
      rw [renew_loader, ← settings]
      rfl
  timely
    | .request => sound.timely .request
    | .event => fun kind => renew_loader w s kind ▸ timely_new _ s

def hasFailed (w : World) (x : Lookup) : Bool :=
  match w.kept? x with
  | some (.error _) => true
  | _ => false

theorem hasFailed_of_look {w : World} {x : Lookup} {f : Fault} (h : w.look x = .error f) :
    w.hasFailed x := by
  unfold look at h
  unfold hasFailed
  cases known : w.kept? x with
  | none => simp [known, Lookup.inStore] at h
  | some answer => simp_all

end World

end Graph

namespace Api

open InfraGraph.Graph
open Subscription (runEvents)

def eventView (w : World) : View where
  answer := w.service.store.answer
  look x := match x.scope with
    | .request => w.look x
    | .event => x.inStore w.service.store

theorem eventView_shows (w : World) (s : LoaderSettings) : (eventView w).Shows (w.renew s) where
  answer := rfl
  look
    | ⟨.request, _, _⟩ => rfl
    | ⟨.event, kind, id⟩ => by
      simp only [World.look, World.kept?, World.renew_loader, Loader.kept?_new]
      rfl

theorem eventView_new (loaders : LoaderSettings) (service : Service) :
    eventView (World.new loaders service) = .ofStore service.store :=
  View.ext rfl (funext fun
    | ⟨.request, _, _⟩ => World.look_new loaders service _
    | ⟨.event, _, _⟩ => rfl)

theorem eventView_eq {w w' : World} {s : LoaderSettings} (e : (w.renew s).Evolves w')
    (unhit : w.Unhit w') : eventView w' = eventView w := by
  have store : w'.service.store = w.service.store := e.store
  refine View.ext (by simp only [eventView, store]) (funext fun x => ?_)
  match x with
  | ⟨.request, _, _⟩ => exact e.look_eq unhit _
  | ⟨.event, _, _⟩ => simp only [eventView, store]

def eventReading (s : Setup) (key : String) (inner : List Selection) (v : View) (e : RunEvent) :
    Reading :=
  .object [(key, .object (Reading.ofSelections (schema s) v inner [.key key]
    (Node.runEvent e).typeName (.runEvent e)))]

def eventResponse (s : Setup) (key : String) (inner : List Selection) (v : View) :
    Feed.Item RunEvent → Response
  | .error f => .ofFault [.key key] f
  | .ok e => .ofResult (eventReading s key inner v e).result

def eventWork (s : Setup) (key : String) (inner : List Selection) (e : RunEvent) : Work :=
  .object [(key, .object (Work.ofRoot (schema s) inner (.runEvent e)))]

theorem read_eventWork (s : Setup) (key : String) (inner : List Selection) (v : View) (e : RunEvent) :
    (eventWork s key inner e).read v [] = eventReading s key inner v e := by
  rw [eventWork, Work.read_object, Work.readFields, List.map_cons, List.map_nil, Work.read_object,
    Work.ofRoot, Work.readFields_ofSelections]
  rfl

section Respond

variable (s : Setup) {loaders : LoaderSettings} (key : String) (inner : List Selection)

theorem eventWork_completes (e : RunEvent) {w : World} (sound : w.Sound)
    (settings : w.request.settings = loaders) :
    Work.Completes (eventWork s key inner e) (w.renew loaders)
      ((eventWork s key inner e).run (Selection.depthAll inner) (w.renew loaders)).1
      ((eventWork s key inner e).run (Selection.depthAll inner) (w.renew loaders)).2 := by
  have fresh : (eventWork s key inner e).Fresh (Selection.depthAll inner) := .object fun f mem => by
    obtain rfl := List.mem_singleton.mp mem
    exact fresh_ofRoot s inner (by simp [Node.Plain])
  exact fresh.run (Nat.le_refl _) (sound.renew settings)

theorem respond_append (es es' : List (Feed.Item RunEvent)) (w : World) :
    Subscription.respond s loaders key inner (es ++ es') w =
      ((Subscription.respond s loaders key inner es w).1 ++
          (Subscription.respond s loaders key inner es' (Subscription.respond s loaders key inner es w).2).1,
        (Subscription.respond s loaders key inner es'
          (Subscription.respond s loaders key inner es w).2).2) := by
  induction es generalizing w with
  | nil => rfl
  | cons e es ih => cases e <;> simp [Subscription.respond, ih]

theorem respond_append_world (es es' : List (Feed.Item RunEvent)) (w : World) :
    (Subscription.respond s loaders key inner (es ++ es') w).2 =
      (Subscription.respond s loaders key inner es' (Subscription.respond s loaders key inner es w).2).2 := by
  rw [respond_append]

theorem respond_length (es : List (Feed.Item RunEvent)) (w : World) :
    (Subscription.respond s loaders key inner es w).1.length = es.length := by
  induction es generalizing w with
  | nil => rfl
  | cons e es ih => cases e <;> simp [Subscription.respond, ih]

/-- What events leave behind in any case: loaders in order, and no more faults than before. -/
structure Leaves (loaders : LoaderSettings) (w w' : World) : Prop where
  sound : w'.Sound
  settings : w'.request.settings = loaders
  armed_le : w'.service.armed.length ≤ w.service.armed.length

theorem respond_leaves (es : List (Feed.Item RunEvent)) {w : World} (sound : w.Sound)
    (settings : w.request.settings = loaders) :
    Leaves loaders w (Subscription.respond s loaders key inner es w).2 := by
  induction es generalizing w with
  | nil => exact ⟨sound, settings, Nat.le_refl _⟩
  | cons item es ih =>
    cases item with
    | error f => exact ih sound settings
    | ok e =>
      have first := (eventWork_completes s key inner e sound settings).evolves
      have rest := ih first.sound (first.settings.trans settings)
      exact ⟨rest.sound, rest.settings, rest.armed_le.trans first.armed_le⟩

/-- As long as no fault is used up, every event is answered as it is read, and the next event sees what
the first has seen. -/
theorem respond_unhit (es : List (Feed.Item RunEvent)) {w : World} (sound : w.Sound)
    (settings : w.request.settings = loaders)
    (unhit : w.Unhit (Subscription.respond s loaders key inner es w).2) :
    (Subscription.respond s loaders key inner es w).1 = es.map (eventResponse s key inner (eventView w)) ∧
      eventView (Subscription.respond s loaders key inner es w).2 = eventView w := by
  induction es generalizing w with
  | nil => exact ⟨rfl, rfl⟩
  | cons item es ih =>
    cases item with
    | error f =>
      obtain ⟨responses, same⟩ := ih sound settings unhit
      exact ⟨congrArg (Response.ofFault [.key key] f :: ·) responses, same⟩
    | ok e =>
      have first := eventWork_completes s key inner e sound settings
      have settings' := first.evolves.settings.trans settings
      have le := first.evolves.armed_le
      have le' := (respond_leaves s key inner es first.evolves.sound settings').armed_le
      have unhit₁ : (w.renew loaders).Unhit _ := Nat.le_antisymm le (unhit.symm.trans_le le')
      obtain ⟨responses, same⟩ := ih first.evolves.sound settings' (unhit.trans unhit₁.symm)
      rw [eventView_eq first.evolves unhit₁] at responses same
      refine ⟨?_, same⟩
      have result : (((eventWork s key inner e).run (Selection.depthAll inner)
          (w.renew loaders)).1.result []) = (eventReading s key inner (eventView w) e).result := by
        rw [first.result_eq unhit₁ (eventView_shows w loaders), ← read_eventWork]
        rfl
      simp only [List.map_cons, eventResponse, ← result, ← responses]
      rfl

/-- One event leaves each lookup for the next event as it was, unless the registry of the request has
kept a failure for it. -/
theorem respond_one (item : Feed.Item RunEvent) {w : World} (sound : w.Sound)
    (settings : w.request.settings = loaders) :
    let w' := (Subscription.respond s loaders key inner [item] w).2
    (eventView w').answer = (eventView w).answer ∧
      ∀ x, (eventView w').look x = (eventView w).look x ∨ x.scope = .request ∧ w'.hasFailed x := by
  cases item with
  | error f => exact ⟨rfl, fun _ => .inl rfl⟩
  | ok e =>
    have evolves := (eventWork_completes s key inner e sound settings).evolves
    have store : ((eventWork s key inner e).run (Selection.depthAll inner)
        (w.renew loaders)).2.service.store = w.service.store := evolves.store
    refine ⟨congrArg Store.answer store, fun x => ?_⟩
    match x with
    | ⟨.event, kind, id⟩ => exact .inl (congrArg (Lookup.inStore · _) store)
    | ⟨.request, kind, id⟩ =>
      rcases evolves.look ⟨.request, kind, id⟩ with same | ⟨-, f, failed⟩
      · exact .inl same
      · exact .inr ⟨rfl, World.hasFailed_of_look failed⟩

theorem eventResponse_congr {v v' : View} (answer : v'.answer = v.answer) {e : RunEvent}
    (same : ∀ x ∈ (eventReading s key inner v e).lookups, v'.look x = v.look x) :
    eventResponse s key inner v' (.ok e) = eventResponse s key inner v (.ok e) := by
  rw [← read_eventWork] at same
  simp only [eventResponse, ← read_eventWork, Work.read, Work.reading_congr answer same]

theorem respond_split (events : List (Feed.Item RunEvent)) (w : World) (i : Nat) :
    (Subscription.respond s loaders key inner events w).1 =
      (Subscription.respond s loaders key inner (events.take i) w).1 ++
        (Subscription.respond s loaders key inner (events.drop i)
          (Subscription.respond s loaders key inner (events.take i) w).2).1 := by
  conv_lhs => rw [← List.take_append_drop i events]
  rw [respond_append]

theorem respond_getElem?_past {events : List (Feed.Item RunEvent)} (w : World) {j : Nat}
    (past : events.length ≤ j) (f : Feed.Item RunEvent → Response) :
    (Subscription.respond s loaders key inner events w).1[j]? = events[j]?.map f := by
  rw [List.getElem?_eq_none (by rwa [respond_length]), List.getElem?_eq_none past, Option.map_none]

theorem respond_getElem?_of_lt {events : List (Feed.Item RunEvent)} {w : World} (sound : w.Sound)
    (settings : w.request.settings = loaders) {i j : Nat} (lt : j < i)
    (unhit : w.Unhit (Subscription.respond s loaders key inner (events.take i) w).2) :
    (Subscription.respond s loaders key inner events w).1[j]? =
      events[j]?.map (eventResponse s key inner (eventView w)) := by
  by_cases inside : j < events.length
  · have among : j < (events.take i).length := by
      rw [List.length_take]
      omega
    rw [respond_split s key inner events w i, (respond_unhit s key inner _ sound settings unhit).1,
      List.getElem?_append_left (by rwa [List.length_map]), List.getElem?_map,
      List.getElem?_take_of_lt lt]
  · exact respond_getElem?_past s key inner w (Nat.le_of_not_lt inside) _

theorem respond_getElem?_of_le {events : List (Feed.Item RunEvent)} {w : World} (sound : w.Sound)
    (settings : w.request.settings = loaders) {i j : Nat} (le : i ≤ j)
    (spent : (Subscription.respond s loaders key inner (events.take i) w).2.service.armed = []) :
    (Subscription.respond s loaders key inner events w).1[j]? = events[j]?.map
      (eventResponse s key inner
        (eventView (Subscription.respond s loaders key inner (events.take i) w).2)) := by
  by_cases inside : j < events.length
  · have before := respond_leaves s key inner (events.take i) sound settings
    have after := respond_leaves s key inner (events.drop i) before.sound before.settings
    have unhit := Nat.le_antisymm after.armed_le (by rw [spent]; exact Nat.zero_le _)
    have length : (Subscription.respond s loaders key inner (events.take i) w).1.length = i := by
      rw [respond_length, List.length_take]
      omega
    rw [respond_split s key inner events w i,
      (respond_unhit s key inner _ before.sound before.settings unhit).1,
      List.getElem?_append_right (by omega), List.getElem?_map, List.getElem?_drop, length,
      Nat.add_sub_cancel' le]
  · exact respond_getElem?_past s key inner w (Nat.le_of_not_lt inside) _

end Respond

section Isolation

variable (s : Setup) (loaders : LoaderSettings) (key : String) (args : Arguments)
  (inner : List Selection)

def opened (service : Service) : Except Fault (List (Feed.Item RunEvent)) × World :=
  (World.new loaders service).perform (runEvents s args).run

def reached (service : Service) (count : Nat) : World :=
  match opened s loaders args service with
  | (.error _, w) => w
  | (.ok events, w) => (Subscription.respond s loaders key inner (events.take count) w).2

/-- What an event looks up, if it is read from the store. -/
def lookupsOf (service : Service) (j : Nat) : List Lookup :=
  match opened s loaders args service with
  | (.ok events, w) =>
      match events[j]? with
      | some (.ok e) => (eventReading s key inner (.ofStore w.service.store) e).lookups
      | _ => []
  | _ => []

theorem asks_runEvents : Asks (runEvents s args) :=
  asks_need.bind fun _ => (asks_workspaceId _ _).bind fun _ => asks_ofExcept.bind fun _ =>
    asks_ask.bind fun _ => asks_need.bind fun _ => asks_needSettings.bind fun _ => asks_pure

theorem opened_eq (service : Service) : opened s loaders args service =
    (((runEvents s args).run.carryOut service).1,
      World.new loaders ((runEvents s args).run.carryOut service).2) :=
  Plan.Within.perform_eq (asks_runEvents s args) (World.new loaders service)

theorem subscription_eq (name : String) (service : Service) :
    (subscription s loaders [.field key name args inner] service).1 =
      match opened s loaders args service with
      | (.error f, _) => [.ofFault [.key key] f]
      | (.ok events, w) => (Subscription.respond s loaders key inner events w).1 := by
  simp only [subscription, Subscription.ofSelections, Subscription.ofSelection, List.append_nil, opened]
  rcases (World.new loaders service).perform (runEvents s args).run with ⟨f | events, w⟩ <;> rfl

variable {events : List (Feed.Item RunEvent)}

theorem reached_eq {service : Service} (here : ((runEvents s args).run.carryOut service).1 = .ok events)
    (count : Nat) :
    reached s loaders key args inner service count =
      (Subscription.respond s loaders key inner (events.take count)
        (World.new loaders ((runEvents s args).run.carryOut service).2)).2 := by
  simp [reached, opened_eq, here]

theorem lookupsOf_eq {service : Service} {j : Nat} {e : RunEvent}
    (opens : ((runEvents s args).run.carryOut service).1 = .ok events)
    (here : events[j]? = some (.ok e)) :
    lookupsOf s loaders key args inner service j = (eventReading s key inner
      (.ofStore ((runEvents s args).run.carryOut service).2.store) e).lookups := by
  simp only [lookupsOf, opened_eq, opens, here, World.service_new]

theorem reached_armed_le (service : Service) (count : Nat) :
    (reached s loaders key args inner service count).service.armed.length ≤
      ((runEvents s args).run.carryOut service).2.armed.length := by
  cases opens : ((runEvents s args).run.carryOut service).1 with
  | error f =>
    simp only [reached, opened_eq, opens]
    exact Nat.le_refl _
  | ok events =>
    rw [reached_eq s loaders key args inner opens]
    exact (respond_leaves s key inner _ (World.sound_new loaders _) rfl).armed_le

end Isolation

/-- Events that meet one failure answer as those that meet none: the events before it in any case, those
after it if they do not look up what the registry of the request keeps as failed. -/
theorem respond_isolated (s : Setup) {loaders : LoaderSettings} (key : String) (inner : List Selection)
    {events : List (Feed.Item RunEvent)} {plain faulty : World} (sound : plain.Sound)
    (sound' : faulty.Sound) (settings : plain.request.settings = loaders)
    (settings' : faulty.request.settings = loaders) (calm : plain.service.armed = [])
    (same : eventView faulty = eventView plain) {i j : Nat} (other : j ≠ i)
    (waits : faulty.Unhit (Subscription.respond s loaders key inner (events.take i) faulty).2)
    (spent : (Subscription.respond s loaders key inner (events.take (i + 1)) faulty).2.service.armed = [])
    (unshared : i < j → ∀ e, events[j]? = some (.ok e) →
      ∀ x ∈ (eventReading s key inner (eventView plain) e).lookups, x.scope = .request →
        (Subscription.respond s loaders key inner (events.take (i + 1)) faulty).2.hasFailed x = false) :
    (Subscription.respond s loaders key inner events faulty).1[j]? =
      (Subscription.respond s loaders key inner events plain).1[j]? := by
  have leaves := respond_leaves s key inner (events.take (j + 1)) sound settings
  have calm' : plain.Unhit (Subscription.respond s loaders key inner (events.take (j + 1)) plain).2 :=
    Nat.le_antisymm leaves.armed_le (by rw [calm]; exact Nat.zero_le _)
  rw [respond_getElem?_of_lt s key inner sound settings (Nat.lt_succ_self j) calm']
  rcases Nat.lt_or_gt_of_ne other with before | after
  · rw [respond_getElem?_of_lt s key inner sound' settings' before waits, same]
  · rw [respond_getElem?_of_le s key inner sound' settings' after spent]
    cases here : events[j]? with
    | none => rw [Option.map_none, Option.map_none]
    | some item =>
      cases item with
      | error f => simp only [Option.map_some, eventResponse]
      | ok e =>
        have inside : i < events.length := after.trans (List.getElem?_eq_some_iff.mp here).1
        have reached := respond_leaves s key inner (events.take i) sound' settings'
        have unchanged := (respond_unhit s key inner _ sound' settings' waits).2.trans same
        -- the event in the middle is the one that meets the fault
        have step : (Subscription.respond s loaders key inner (events.take (i + 1)) faulty).2 =
            (Subscription.respond s loaders key inner [events[i]]
              (Subscription.respond s loaders key inner (events.take i) faulty).2).2 := by
          rw [List.take_succ_eq_append_getElem inside, respond_append_world]
        obtain ⟨answer, look⟩ := respond_one s key inner events[i] reached.sound reached.settings
        rw [← step, unchanged] at answer look
        refine congrArg some (eventResponse_congr s key inner answer fun x mem => ?_)
        refine (look x).resolve_right fun ⟨shared, failed⟩ => ?_
        rw [unshared after e here x mem shared] at failed
        exact Bool.false_ne_true failed

/-- An event is answered as if the failure that another event has met had not happened, as long as it
does not look up, in the registry of the request, what has failed there before. -/
theorem events_isolated (s : Setup) (loaders : LoaderSettings) (key name : String) (args : Arguments)
    (inner : List Selection) (service : Service) (calm : service.armed = []) (start : String) (f : Fault)
    {i j : Nat} (other : j ≠ i)
    (waits : (reached s loaders key args inner (service.arm start f) i).service.armed ≠ [])
    (spent : (reached s loaders key args inner (service.arm start f) (i + 1)).service.armed = [])
    (unshared : i < j → ∀ x ∈ lookupsOf s loaders key args inner service j, x.scope = .request →
      (reached s loaders key args inner (service.arm start f) (i + 1)).hasFailed x = false) :
    (subscription s loaders [.field key name args inner] (service.arm start f)).1[j]? =
      (subscription s loaders [.field key name args inner] service).1[j]? := by
  have one : (service.arm start f).armed.length = 1 := by simp [Service.arm, calm]
  have left := List.length_pos_iff.mpr waits
  have le := reached_armed_le s loaders key args inner (service.arm start f) i
  have le' := (runEvents s args).run.carryOut_armed_le (service.arm start f)
  have calm' := (runEvents s args).run.carryOut_calm calm
  -- the fault is still there when the events begin, so they are the same events
  obtain ⟨same, core⟩ := (runEvents s args).run.carryOut_eq (s := service)
    (show (service.arm start f).core = service.core from rfl) (by rw [calm', calm]) (by omega)
  cases opens : ((runEvents s args).run.carryOut service).1 with
  | error g =>
    simp only [reached, opened_eq, same, opens] at waits spent
    exact absurd spent waits
  | ok events =>
    rw [reached_eq s loaders key args inner (same.trans opens)] at waits spent unshared le left
    simp only [subscription_eq, opened_eq, same, opens]
    refine respond_isolated s key inner (World.sound_new loaders _) (World.sound_new loaders _)
      (World.settings_new loaders _) (World.settings_new loaders _) calm' ?_ other ?_ spent
      fun after e here x mem shared => unshared after x ?_ shared
    · rw [eventView_new, eventView_new, Service.store_eq_of_core core]
    · show _ = ((runEvents s args).run.carryOut (service.arm start f)).2.armed.length
      omega
    · rw [lookupsOf_eq s loaders key args inner opens here]
      rwa [eventView_new] at mem

def twoEvents : Service :=
  let run : Run := ⟨"r", "w", .pending, false, none, none, none, false, "admin", .fresh⟩
  { Service.new smallStore with feed := [.ok ⟨"CREATE", run⟩, .ok ⟨"UPDATE", run⟩] }

def groupOfRun : List Selection :=
  [.field "run" "run" [] [.field "workspace" "workspace" [] [.field "group" "group" []
    [.field "fullPath" "fullPath" [] []]]]]

def watchedPath : Arguments := [("workspacePath", .text "ops/api")]

def hitBy (start : String) : Service :=
  twoEvents.arm start ⟨.serviceUnavailable, "down", none⟩

def standing (service : Service) (count : Nat) : World :=
  reached (.complete .standard) ⟨1, 100⟩ "events" watchedPath groupOfRun service count

def watch (service : Service) : List Response :=
  (subscription (.complete .standard) ⟨1, 100⟩
    [.field "events" "workspaceRunEvents" watchedPath groupOfRun] service).1

/-- The workspace of a run is looked up for each event anew. -/
theorem events_isolated_workspace :
    (standing (hitBy "get_workspaces_by_ids") 0).service.armed.length = 1 ∧
      (standing (hitBy "get_workspaces_by_ids") 1).service.armed.length = 0 ∧
      (watch (hitBy "get_workspaces_by_ids"))[1]? = (watch twoEvents)[1]? := by
  have waits : (standing (hitBy "get_workspaces_by_ids") 0).service.armed.length = 1 := by
    decide +kernel
  have spent : (standing (hitBy "get_workspaces_by_ids") 1).service.armed.length = 0 := by
    decide +kernel
  have unshared : ∀ x ∈ lookupsOf (.complete .standard) ⟨1, 100⟩ "events" watchedPath groupOfRun
      twoEvents 1, x.scope = .request →
      (standing (hitBy "get_workspaces_by_ids") 1).hasFailed x = false := by
    decide +kernel
  refine ⟨waits, spent, ?_⟩
  unfold standing hitBy at waits spent unshared
  exact events_isolated (.complete .standard) ⟨1, 100⟩ "events" "workspaceRunEvents" watchedPath
    groupOfRun twoEvents rfl "get_workspaces_by_ids" ⟨.serviceUnavailable, "down", none⟩ (i := 0)
    Nat.one_ne_zero (List.ne_nil_of_length_eq_add_one waits) (List.length_eq_zero_iff.mp spent)
    fun _ => unshared

/-- The group of the workspace is looked up for all events in one registry: the failure that the first
event meets is shown by the second, too. -/
theorem event_failure_shared :
    let shown (service : Service) := (watch service).map fun r =>
      textAt ["events", "run", "workspace", "group", "fullPath"] r.data
    (standing (hitBy "get_groups_by_ids") 0).service.armed.length = 1 ∧
      (standing (hitBy "get_groups_by_ids") 1).service.armed.length = 0 ∧
      shown twoEvents = [some "ops", some "ops"] ∧
      shown (hitBy "get_groups_by_ids") = [none, none] := by
  decide +kernel

end Api

end InfraGraph
