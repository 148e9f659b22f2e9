import InfraGraph.Api.Operation
import InfraGraph.Proofs.Graph.Conduct

/-!
What clients read. The payload of a mutation, its problems and the events of runs hold their fields themselves,
and an entity its identifier. A response made of such fields is there at once, in every world.
-/

namespace InfraGraph

namespace Graph

namespace Value

theorem addAll_of_nodup {os ms : List (String × Value)} (distinct : ((os ++ ms).map (·.1)).Nodup) :
    addAll os ms = os ++ ms := by
  induction ms generalizing os with
  | nil => simp [addAll]
  | cons m ms ih =>
    obtain ⟨key, v⟩ := m
    rw [List.append_cons] at distinct ⊢
    have new : os.any (·.1 = key) = false := by
      simp only [List.map_append, List.map_cons, List.map_nil] at distinct
      have apart := (List.nodup_append.mp (List.nodup_append.mp distinct).1).2.2
      simp only [List.any_eq_false, decide_eq_true_eq]
      exact fun o mem same => apart _ (List.mem_map_of_mem mem) key (by simp) same
    rw [addAll, new, if_neg Bool.false_ne_true, ih distinct]

end Value

namespace Work

/-- Finished work that has met no faults, with the value that is read off it. -/
structure Shows (t : Work) (v : Value) : Prop where
  finished : t.isFinished
  result : ∀ path, t.result path = ⟨some v, []⟩
  tidy : v.tidy = v

theorem shows_value {v : Value} (tidy : v.tidy = v) : (value v).Shows v :=
  ⟨rfl, fun _ => rfl, tidy⟩

theorem results_of_shows {ι : Type} {items : List ι} {work : ι → Work} {shown : ι → Value}
    (each : ∀ i ∈ items, (work i).Shows (shown i)) (path steps : List Segment)
    (same : steps.length = items.length) :
    results path steps (items.map work) = items.map fun i => ⟨some (shown i), []⟩ := by
  induction items generalizing steps with
  | nil => cases steps <;> rfl
  | cons i items ih =>
    obtain ⟨step, steps, rfl⟩ := List.exists_cons_of_length_eq_add_one same
    obtain ⟨first, rest⟩ := List.forall_mem_cons.mp each
    rw [List.map_cons, results, first.result, ih rest _ (Nat.succ.inj same), List.map_cons]

theorem shows_list {ι : Type} {items : List ι} {work : ι → Work} {shown : ι → Value}
    (each : ∀ i ∈ items, (work i).Shows (shown i)) :
    (parts .list (items.map work)).Shows (.list (items.map shown)) where
  finished := areFinished_iff.mpr (List.forall_mem_map.mpr fun i mem => (each i mem).finished)
  result path := by
    have all := results_of_shows each path (segments (items.map work) .list) (by simp [segments])
    simp [result, all, assemble, Function.comp_def]
  tidy := by
    have all : Value.tidyItems (items.map shown) = items.map shown := by
      induction items with
      | nil => rfl
      | cons i items ih =>
        obtain ⟨first, rest⟩ := List.forall_mem_cons.mp each
        rw [List.map_cons, Value.tidyItems, first.tidy, ih rest]
    rw [Value.tidy, all]

theorem shows_object {fields : List (String × Work × Value)} (each : ∀ f ∈ fields, f.2.1.Shows f.2.2)
    (distinct : (fields.map (·.1)).Nodup) (inhabited : fields ≠ []) :
    (object (fields.map fun f => (f.1, f.2.1))).Shows (.object (fields.map fun f => (f.1, f.2.2))) where
  finished := finished_object (List.forall_mem_map.mpr fun f mem => (each f mem).finished)
  result path := by
    have all := results_of_shows each path
      (segments (fields.map (·.2.1)) (.object (fields.map (·.1)))) (by simp [segments])
    -- no key comes twice, so no member is merged into another
    have added : Value.addAll [] (fields.map fun f => (f.1, f.2.2)) = fields.map fun f => (f.1, f.2.2) :=
      Value.addAll_of_nodup (by simpa [Function.comp_def] using distinct)
    simp only [object, result, List.map_map, Function.comp_def, all, assemble]
    simp [List.zip_map', List.filterMap_map, List.flatMap_map, added]
  tidy := by
    have all : Value.tidyMembers (fields.map fun f => (f.1, f.2.2)) = fields.map fun f => (f.1, f.2.2) := by
      clear distinct inhabited
      induction fields with
      | nil => rfl
      | cons f fields ih =>
        obtain ⟨first, rest⟩ := List.forall_mem_cons.mp each
        rw [List.map_cons, Value.tidyMembers, first.tidy, ih rest]
    cases fields with
    | nil => exact absurd rfl inhabited
    | cons f fields => exact congrArg Value.object all

end Work

end Graph

namespace Api

open InfraGraph.Graph

/-- The response of a field that comes to an outcome, with what is asked of the outcome below it. -/
def respond (s : Setup) (loaders : LoaderSettings) (key : String) (inner : List Selection) :
    Except Fault (Outcome Node) × Service → Response × Service
  | (o, service) =>
      let t := Work.ofOutcome (schema s) (Work.ofSelections (schema s) inner) o
      let (t, w) := t.run (Selection.depthAll inner + 1) (World.new loaders service)
      (.ofResult ((Work.object [(key, t)]).result []), w.service)

theorem ofResult_failed (key : String) (f : Fault) :
    Response.ofResult ((Work.object [(key, .failed f)]).result []) = .ofFault [.key key] f := by
  simp [Work.object, Work.result, Work.results, Work.segments, Work.assemble, Response.ofResult,
    Response.ofFault, Value.addAll, Value.tidy]

theorem respond_error (s : Setup) (loaders : LoaderSettings) (key : String) (inner : List Selection)
    (f : Fault) (service : Service) :
    respond s loaders key inner (.error f, service) = (.ofFault [.key key] f, service) := by
  have finished : (Work.failed f).isFinished := rfl
  simp only [respond, Work.ofOutcome, Work.run_of_finished finished, World.service_new, ofResult_failed]

theorem shows_field {t : Work} {v : Value} (shows : t.Shows v) (key : String) :
    (Work.object [(key, t)]).Shows (.object [(key, v)]) := by
  have each : ∀ f ∈ [(key, t, v)], f.2.1.Shows f.2.2 := by simpa using shows
  exact Work.shows_object each (by simp) (by simp)

theorem ofResult_shows {t : Work} {v : Value} (shows : t.Shows v) :
    Response.ofResult (t.result []) = ⟨v, []⟩ := by
  simp [Response.ofResult, shows.result, shows.tidy]

theorem respond_shows (s : Setup) (loaders : LoaderSettings) (key : String) {inner : List Selection}
    {o : Except Fault (Outcome Node)} {v : Value}
    (shows : (Work.ofOutcome (schema s) (Work.ofSelections (schema s) inner) o).Shows v)
    (service : Service) :
    respond s loaders key inner (o, service) = (⟨.object [(key, v)], []⟩, service) := by
  simp only [respond, Work.run_of_finished shows.finished, World.service_new,
    ofResult_shows (shows_field shows key)]

def problemFields : List Selection :=
  [.field "type" "type" [] [], .field "message" "message" [] [], .field "field" "field" [] []]

/-- All that there is to ask of a payload, with the identifier of its result. -/
def payloadFields (result : String) : List Selection :=
  [.field "clientMutationId" "clientMutationId" [] [], .field "problems" "problems" [] problemFields,
    .field result result [] [.field "id" "id" [] []]]

def runEventFields : List Selection :=
  [.field "action" "action" [] [], .field "run" "run" [] [.field "id" "id" [] []]]

/-- A field of a node that is there at once, and shows a value under a key. -/
def ShowsField (s : Setup) (position : String) (n : Node) (sel : Selection) (member : String × Value) :
    Prop :=
  ∃ t : Work, Work.ofSelection (schema s) sel position n = [(member.1, t)] ∧ t.Shows member.2

section Held

variable {s : Setup} {position : String} {n : Node} {key name : String} {args : Arguments}
  {inner : List Selection}

theorem showsField_of_held {o : Outcome Node} {v : Value} (held : resolve s n name args = pure o)
    (ordinary : name ≠ "__typename")
    (shows : (Work.ofOutcome (schema s) (Work.ofSelections (schema s) inner) (.ok o)).Shows v) :
    ShowsField s position n (.field key name args inner) (key, v) := by
  refine ⟨_, ?_, shows⟩
  simp only [Work.ofSelection, ordinary, if_false, schema, held]
  rfl

theorem showsField_value {v : Value} (held : resolve s n name args = pure (.value v))
    (ordinary : name ≠ "__typename") (tidy : v.tidy = v) :
    ShowsField s position n (.field key name args inner) (key, v) :=
  showsField_of_held held ordinary (Work.shows_value tidy)

theorem shows_node {sels : List Selection} {members : List (String × Value)}
    (each : List.Forall₂ (ShowsField s position n) sels members)
    (distinct : (members.map (·.1)).Nodup) (inhabited : members ≠ []) :
    (Work.object (Work.ofSelections (schema s) sels position n)).Shows (.object members) := by
  have found : ∃ fields : List (String × Work × Value),
      Work.ofSelections (schema s) sels position n = fields.map (fun f => (f.1, f.2.1)) ∧
        members = fields.map (fun f => (f.1, f.2.2)) ∧ ∀ f ∈ fields, f.2.1.Shows f.2.2 := by
    clear distinct inhabited
    induction each with
    | nil => exact ⟨[], rfl, rfl, by simp⟩
    | @cons sel member sels members first _ ih =>
      obtain ⟨t, work, shows⟩ := first
      obtain ⟨fields, works, rfl, all⟩ := ih
      exact ⟨(member.1, t, member.2) :: fields, by rw [Work.ofSelections, work, works]; rfl, rfl,
        List.forall_mem_cons.mpr ⟨shows, all⟩⟩
  obtain ⟨fields, works, rfl, all⟩ := found
  rw [works]
  exact Work.shows_object all (by simpa [Function.comp_def] using distinct) (by simpa using inhabited)

theorem shows_id {id : String} (held : resolve s n "id" [] = pure (.value (.text id))) :
    (Work.object (Work.ofSelections (schema s) [.field "id" "id" [] []] position n)).Shows
      (.object [("id", .text id)]) :=
  shows_node (.cons (showsField_value held (by decide) rfl) .nil) (by simp) (by simp)

theorem shows_problem (p : Problem) :
    (Work.object (Work.ofSelections (schema s) problemFields position (.problem p))).Shows
      (.object [("type", .text p.kind.label), ("message", .text p.message),
        ("field", p.field.elim .null fun f => .list [.text f])]) := by
  have field : resolve s (.problem p) "field" [] =
      pure (.value (p.field.elim .null fun f => .list [.text f])) := by
    cases given : p.field <;> simp [resolve, orNull, Problem.field?, given, Value.texts]
  have tidy : (p.field.elim .null fun f => Value.list [.text f]).tidy =
      p.field.elim .null fun f => .list [.text f] := by
    cases p.field <;> rfl
  exact shows_node (.cons (showsField_value rfl (by decide) rfl)
    (.cons (showsField_value rfl (by decide) rfl)
      (.cons (showsField_value field (by decide) tidy) .nil))) (by simp) (by simp)

theorem resultField_new (kind : Kind) : Payload.resultField kind ≠ "clientMutationId" ∧
    Payload.resultField kind ≠ "problems" ∧ Payload.resultField kind ≠ "__typename" := by
  cases kind <;> decide

theorem showsField_clientMutationId (p : Payload) : ShowsField s position (.payload p)
    (.field "clientMutationId" "clientMutationId" [] [])
    ("clientMutationId", p.clientMutationId.elim .null .text) := by
  have held : resolve s (.payload p) "clientMutationId" [] =
      pure (.value (p.clientMutationId.elim .null .text)) := by
    cases given : p.clientMutationId <;> simp [resolve, payloadField, given, Value.optional]
  refine showsField_value held (by decide) ?_
  cases p.clientMutationId <;> rfl

theorem showsField_problems (p : Payload) : ShowsField s position (.payload p)
    (.field "problems" "problems" [] problemFields) ("problems", .list (p.problems.map fun q =>
      .object [("type", .text q.kind.label), ("message", .text q.message),
        ("field", q.field.elim .null fun f => .list [.text f])])) := by
  have held : resolve s (.payload p) "problems" [] = pure (.nodes (p.problems.map .problem)) := by
    simp [resolve, payloadField]
  refine showsField_of_held held (by decide) ?_
  rw [Work.ofOutcome, List.map_map]
  exact Work.shows_list fun q _ => shows_problem q

theorem showsField_result (p : Payload) : ShowsField s position (.payload p)
    (.field (Payload.resultField p.kind) (Payload.resultField p.kind) [] [.field "id" "id" [] []])
    (Payload.resultField p.kind, p.result.elim .null fun e =>
      .object [("id", .text (GlobalId.encode ⟨e.kind, e.id⟩))]) := by
  obtain ⟨apart, apart', ordinary⟩ := resultField_new p.kind
  cases given : p.result with
  | none =>
    have held : resolve s (.payload p) (Payload.resultField p.kind) [] = pure (.value .null) := by
      simp [resolve, payloadField, apart, apart', given, nothing]
    exact showsField_value held ordinary rfl
  | some e =>
    have held : resolve s (.payload p) (Payload.resultField p.kind) [] = pure (.node (.entity e)) := by
      simp [resolve, payloadField, apart, apart', given]
    exact showsField_of_held held ordinary (shows_id rfl)

/-- A payload shows the identifier that the client has given to the mutation, each of its problems, and the
entity that is its result. -/
theorem shows_payload (s : Setup) (p : Payload) :
    (Work.ofOutcome (schema s) (Work.ofSelections (schema s) (payloadFields (Payload.resultField p.kind)))
      (.ok (.node (.payload p)))).Shows (.object [
        ("clientMutationId", p.clientMutationId.elim .null .text),
        ("problems", .list (p.problems.map fun q => .object [("type", .text q.kind.label),
          ("message", .text q.message), ("field", q.field.elim .null fun f => .list [.text f])])),
        (Payload.resultField p.kind, p.result.elim .null fun e =>
          .object [("id", .text (GlobalId.encode ⟨e.kind, e.id⟩))])]) := by
  obtain ⟨apart, apart', -⟩ := resultField_new p.kind
  exact shows_node (.cons (showsField_clientMutationId p) (.cons (showsField_problems p)
    (.cons (showsField_result p) .nil))) (by simp [apart.symm, apart'.symm]) (by simp)

/-- An event shows what has happened, and the run that it has happened to. -/
theorem shows_runEvent (s : Setup) (e : RunEvent) :
    (Work.object (Work.ofRoot (schema s) runEventFields (.runEvent e))).Shows (.object [
      ("action", .text e.action),
      ("run", .object [("id", .text (GlobalId.encode ⟨.run, e.run.id⟩))])]) := by
  have run : resolve s (.runEvent e) "run" [] = pure (.node (.eventRun e.run)) := rfl
  exact shows_node (.cons (showsField_value rfl (by decide) rfl)
    (.cons (showsField_of_held run (by decide) (shows_id rfl)) .nil)) (by simp) (by simp)

end Held

end Api

end InfraGraph
