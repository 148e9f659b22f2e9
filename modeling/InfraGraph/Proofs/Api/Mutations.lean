import InfraGraph.Proofs.Api.Queries

/-!
Mutations against a reference that goes through the fields in turn. Each field carries out its writes
against the service, and what is nested in its payload is read from the store as the writes have left
it, except for what the request has looked up before: the registry of the request has kept that, and the
writes do not reach it.
-/

namespace InfraGraph.Api

open InfraGraph.Graph

/-- What a request remembers of its lookups. -/
abbrev Memory := Lookup → Option (Except Fault (Option Entity))

namespace Memory

def none : Memory := fun _ => Option.none

def view (m : Memory) (s : Store) : View :=
  ⟨s.answer, fun x => (m x).getD (x.inStore s)⟩

/-- A registry keeps the first answer to each lookup. -/
def keep (m : Memory) (s : Store) (lookups : List Lookup) : Memory := fun x =>
  (m x).or (if x ∈ lookups then some (x.inStore s) else Option.none)

def forget (_ : Memory) (_ : Store) (_ : List Lookup) : Memory :=
  none

end Memory

structure RootField where
  key : String
  name : String
  arguments : Arguments
  inner : List Selection

mutual

def rootFieldsOf : Selection → List RootField
  | .field key name arguments inner => [⟨key, name, arguments, inner⟩]
  | .fragment type inner => if type = Node.mutation.typeName then rootFields inner else []

def rootFields : List Selection → List RootField
  | [] => []
  | sel :: sels => rootFieldsOf sel ++ rootFields sels

end

/-- The fields of a mutation one after another, each with its reading. -/
def turns (s : Setup) (remember : Memory → Store → List Lookup → Memory) :
    List RootField → Service → Memory → List (String × Reading)
  | [], _, _ => []
  | f :: fs, service, m =>
      if f.name = "__typename" then
        (f.key, .value (.text Node.mutation.typeName)) :: turns s remember fs service m
      else
        let (outcome, service) := (Mutation.field s f.name f.arguments).run.carryOut service
        let r := Reading.ofOutcome (schema s)
          (Reading.ofSelections (schema s) (m.view service.store) f.inner) [.key f.key] outcome
        (f.key, r) :: turns s remember fs service (remember m service.store r.lookups)

def inTurn (s : Setup) (remember : Memory → Store → List Lookup → Memory) (sels : List Selection)
    (service : Service) : Response :=
  .ofResult (Reading.object (turns s remember (rootFields sels) service .none)).result

def RootField.work (s : Setup) (f : RootField) : Work :=
  if f.name = "__typename" then .value (.text Node.mutation.typeName)
  else .ofPlan (Work.ofOutcome (schema s) (Work.ofSelections (schema s) f.inner))
    (Mutation.field s f.name f.arguments).run

mutual

theorem ofSelection_mutation (s : Setup) : ∀ sel : Selection,
    Work.ofSelection (schema s) sel Node.mutation.typeName .mutation =
      (rootFieldsOf sel).map fun f => (f.key, f.work s)
  | .field key name arguments inner => by
    unfold Work.ofSelection rootFieldsOf
    simp only [List.map_cons, List.map_nil, RootField.work]
    split <;> rfl
  | .fragment type inner => by
    unfold Work.ofSelection rootFieldsOf
    by_cases here : type = Node.mutation.typeName
    · subst here
      simpa [schema] using ofSelections_mutation s inner
    · simp [schema, here]

theorem ofSelections_mutation (s : Setup) : ∀ sels : List Selection,
    Work.ofSelections (schema s) sels Node.mutation.typeName .mutation =
      (rootFields sels).map fun f => (f.key, f.work s)
  | [] => rfl
  | sel :: sels => by
    unfold Work.ofSelections rootFields
    rw [ofSelection_mutation s sel, ofSelections_mutation s sels, List.map_append]

end

mutual

theorem depth_rootFieldsOf : ∀ (sel : Selection), ∀ f ∈ rootFieldsOf sel,
    Selection.depthAll f.inner ≤ sel.depth
  | .field key name arguments inner, f, mem => by
    unfold rootFieldsOf at mem
    obtain rfl := List.mem_singleton.mp mem
    exact Nat.le_succ _
  | .fragment type inner, f, mem => by
    unfold rootFieldsOf at mem
    split at mem
    · exact depth_rootFields inner f mem
    · simp at mem

theorem depth_rootFields : ∀ (sels : List Selection), ∀ f ∈ rootFields sels,
    Selection.depthAll f.inner ≤ Selection.depthAll sels
  | [], f, mem => by simp [rootFields] at mem
  | sel :: sels, f, mem => by
    unfold rootFields at mem
    rw [Selection.depthAll]
    rcases List.mem_append.mp mem with mem | mem
    · exact (depth_rootFieldsOf sel f mem).trans (Nat.le_max_left _ _)
    · exact (depth_rootFields sels f mem).trans (Nat.le_max_right _ _)

end

/-- Between two fields of a mutation: the world stands where the service stands, and its registries have
kept what is remembered. -/
structure Between (w : World) (service : Service) (m : Memory) : Prop where
  sound : w.Sound
  settled : w.Settled
  core : w.service.core = service.core
  calm : service.armed = []
  calm' : w.service.armed = []
  kept : ∀ x, w.kept? x = m x

theorem Between.carryOut_eq {α : Type} {w : World} {service : Service} {m : Memory}
    (b : Between w service m) (p : Plan α) : (p.carryOut w.service).1 = (p.carryOut service).1 ∧
      (p.carryOut w.service).2.core = (p.carryOut service).2.core :=
  p.carryOut_eq b.core (by rw [p.carryOut_calm b.calm, b.calm])
    (by rw [p.carryOut_calm b.calm', b.calm'])

theorem read_outcome (s : Setup) (v : View) (inner : List Selection) (path : List Segment)
    (o : Except Fault (Outcome Node)) :
    (Work.ofOutcome (schema s) (Work.ofSelections (schema s) inner) o).read v path =
      Reading.ofOutcome (schema s) (Reading.ofSelections (schema s) v inner) path o := by
  have inside : (fun path position n =>
      Work.readFields v path (Work.ofSelections (schema s) inner position n)) =
      Reading.ofSelections (schema s) v inner :=
    funext fun path => funext fun position => funext fun n =>
      Work.readFields_ofSelections (schema s) v inner path position n
  rw [Work.read_ofOutcome, inside]

theorem run_value (depth : Nat) (v : Value) (w : World) :
    (Work.value v).run depth w = (.value v, w) := by
  cases depth <;> rfl

/-- Writes reach the store and nothing that is remembered. -/
theorem Between.write {α : Type} {w : World} {service : Service} {m : Memory} (b : Between w service m)
    (p : Plan α) : Between { w with service := (p.carryOut w.service).2 } (p.carryOut service).2 m where
  sound := ⟨b.sound.serves, b.sound.orderly, b.sound.delay, b.sound.timely⟩
  settled := b.settled
  core := (b.carryOut_eq p).2
  calm := p.carryOut_calm b.calm
  calm' := p.carryOut_calm b.calm'
  kept := b.kept

theorem Between.sees {w : World} {service : Service} {m : Memory} (b : Between w service m) :
    (m.view service.store).Shows w := by
  have store := Service.store_eq_of_core b.core
  refine ⟨by rw [store]; rfl, fun x => ?_⟩
  rw [World.look, store, b.kept]
  rfl

theorem Between.outcome {s : Setup} {depth : Nat} {inner : List Selection} {w : World}
    {service : Service} {m : Memory} (b : Between w service m)
    (deep : Selection.depthAll inner ≤ depth) (path : List Segment) {o : Except Fault (Outcome Node)}
    (leads : ∀ a, o = .ok a → a.Leads Node.Plain) :
    let t := Work.ofOutcome (schema s) (Work.ofSelections (schema s) inner) o
    let r := Reading.ofOutcome (schema s)
      (Reading.ofSelections (schema s) (m.view service.store) inner) path o
    (t.run depth w).1.result path = r.result ∧
      Between (t.run depth w).2 service (m.keep service.store r.lookups) := by
  intro t r
  have fresh : t.Fresh (Selection.depthAll inner) := .ofOutcome
    (fun position n plain => Work.fresh_ofSelections (schema_reads s) inner position n plain) leads
  have ran := fresh.run deep b.sound
  have unhit := ran.evolves.unhit b.calm'
  have read : t.read (m.view service.store) path = r := read_outcome s _ inner path o
  refine ⟨?_, ran.evolves.sound, ran.settled unhit b.sees b.settled,
    ran.evolves.core.trans b.core, b.calm, ?_, fun x => ?_⟩
  · rw [ran.result_eq unhit b.sees]
    exact congrArg Reading.result read
  · exact List.length_eq_zero_iff.mp (unhit.trans (by rw [b.calm']; rfl))
  · have lookups : t.lookups (m.view service.store) = r.lookups := congrArg Reading.lookups read
    rw [ran.kept?_eq b.sound unhit b.sees b.settled x, b.kept, lookups, Memory.keep]
    cases known : m x with
    | some answer => simp
    | none => simp [Memory.view, known]

/-- A field carries out its writes before any of its loads, so they are all in the first pass. -/
theorem RootField.run_work {s : Setup} {depth : Nat} {f : RootField} (named : f.name ≠ "__typename")
    (w : World) : (f.work s).run depth w = Work.run depth
      (.ofOutcome (schema s) (Work.ofSelections (schema s) f.inner)
        ((Mutation.field s f.name f.arguments).run.carryOut w.service).1)
      { w with service := ((Mutation.field s f.name f.arguments).run.carryOut w.service).2 } := by
  have plan : (Mutation.field s f.name f.arguments).run.Within _ _ 0 :=
    mutation_within f.name f.arguments
  simp only [RootField.work, named, if_false, Work.run, plan.pass_ofPlan]

theorem Between.field {s : Setup} {depth : Nat} {f : RootField} {w : World} {service : Service}
    {m : Memory} (b : Between w service m) (named : f.name ≠ "__typename")
    (deep : Selection.depthAll f.inner ≤ depth) :
    let out := (Mutation.field s f.name f.arguments).run.carryOut service
    let r := Reading.ofOutcome (schema s)
      (Reading.ofSelections (schema s) (m.view out.2.store) f.inner) [.key f.key] out.1
    ((f.work s).run depth w).1.result [.key f.key] = r.result ∧
      Between ((f.work s).run depth w).2 out.2 (m.keep out.2.store r.lookups) := by
  intro out r
  have plan : (Mutation.field s f.name f.arguments).run.Within _ _ 0 :=
    mutation_within f.name f.arguments
  have same := (b.carryOut_eq (Mutation.field s f.name f.arguments).run).1
  have written := (b.write (Mutation.field s f.name f.arguments).run).outcome (s := s) deep
    [.key f.key] (plan.carryOut service)
  rw [RootField.run_work named, same]
  exact written

theorem Between.runInTurn {s : Setup} {depth : Nat} {fs : List RootField} {w : World}
    {service : Service} {m : Memory} (b : Between w service m)
    (deep : ∀ f ∈ fs, Selection.depthAll f.inner ≤ depth) :
    (fs.map fun f => Segment.key f.key).zipWith (fun step t => t.result ([] ++ [step]))
        (runInTurn depth (fs.map (·.work s)) w).1 =
      (turns s .keep fs service m).map (·.2.result) := by
  induction fs generalizing w service m with
  | nil => rfl
  | cons f fs ih =>
    have deepRest := fun f mem => deep f (List.mem_cons_of_mem _ mem)
    by_cases named : f.name = "__typename"
    · have rest := ih b deepRest
      have work : f.work s = .value (.text Node.mutation.typeName) := by simp [RootField.work, named]
      simp only [turns, named, if_true, List.map_cons, InfraGraph.Api.runInTurn, work, run_value,
        List.zipWith_cons_cons, rest]
      rfl
    · obtain ⟨result, after⟩ := b.field (s := s) named (deep f (by simp))
      have rest := ih after deepRest
      simp only [turns, named, if_false, List.map_cons, InfraGraph.Api.runInTurn, List.nil_append,
        List.zipWith_cons_cons] at rest ⊢
      rw [result, rest]

theorem turns_keys (s : Setup) (remember : Memory → Store → List Lookup → Memory)
    (fs : List RootField) (service : Service) (m : Memory) :
    (turns s remember fs service m).map (·.1) = fs.map (·.key) := by
  induction fs generalizing service m with
  | nil => rfl
  | cons f fs ih =>
    simp only [turns]
    split <;> simp [ih]

theorem between_new (loaders : LoaderSettings) (service : Service) (calm : service.armed = []) :
    Between (World.new loaders service) service .none where
  sound := World.sound_new loaders service
  settled x h := by
    have known := h.1
    simp [World.ticket?, World.loader_new, Loader.new, Loader.ticket?] at known
  core := rfl
  calm := calm
  calm' := calm
  kept x := World.kept?_new loaders service x

/-- A mutation answers as its fields do in turn: below each payload the store is shown as the writes up
to it have left it, but for what an earlier field of the request has looked up. -/
theorem mutation_eq_inTurn (s : Setup) (loaders : LoaderSettings) (sels : List Selection)
    (service : Service) (calm : service.armed = []) :
    (mutation s loaders sels service).1 = inTurn s .keep sels service := by
  have fields : Work.ofRoot (schema s) sels .mutation = (rootFields sels).map fun f => (f.key, f.work s) :=
    ofSelections_mutation s sels
  have results := (between_new loaders service calm).runInTurn (s := s) (depth_rootFields sels)
  simp only [mutation, inTurn, fields, Work.result, Work.results_eq, Work.segments, List.map_map,
    Reading.object, Reading.assemble, turns_keys, Function.comp_def] at results ⊢
  rw [results]

def touches : List Selection :=
  let touch (key : String) : Selection :=
    .field key "updateWorkspace" [("input", .record [("workspacePath", .text "ops/api")])]
      [.field "workspace" "workspace" [] [.field "group" "group" []
        [.field "description" "description" [] []]]]
  [touch "first",
    .field "update" "updateGroup"
      [("input", .record [("groupPath", .text "ops"), ("description", .text "new")])]
      [.field "group" "group" [] [.field "description" "description" [] []]],
    touch "last"]

theorem mutation_eq_inTurn_touches :
    (Service.new smallStore).armed = [] ∧
    (mutation (.complete .standard) ⟨1, 100⟩ touches (.new smallStore)).1 =
      inTurn (.complete .standard) .keep touches (.new smallStore) :=
  ⟨rfl, mutation_eq_inTurn _ _ _ _ rfl⟩

/-- The last field shows the group as the first has found it, not as the update between has left it. -/
theorem mutation_shows_older_group :
    textAt ["last", "workspace", "group", "description"]
        (mutation (.complete .standard) ⟨1, 100⟩ touches (.new smallStore)).1.data = some "old" ∧
    textAt ["last", "workspace", "group", "description"]
        (inTurn (.complete .standard) .forget touches (.new smallStore)).data = some "new" ∧
    (mutation (.complete .standard) ⟨1, 100⟩ (touches.take 2) (.new smallStore)).2.store.groups.map
        (·.description) = ["new"] := by
  decide +kernel

end InfraGraph.Api
