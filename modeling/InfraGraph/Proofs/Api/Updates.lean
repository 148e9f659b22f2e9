import InfraGraph.Proofs.Api.Arguments
import InfraGraph.Proofs.Api.Conflicts

/-!
Runs of mutations on one store, by any number of clients and in any order. Each mutation is one step, which
changes one entity or none. A step that expects a version and succeeds leaves the entity past that version or
gone, and every later step leaves it so; no second one can succeed with the same version.
-/

namespace InfraGraph.Api.Mutation

open InfraGraph.Graph

/-- A mutation that a client asks for, and the service that it meets. The mutations of one request count one by
one. -/
structure Attempt where
  act : Act
  name : String
  known : act? name = some act
  arguments : Arguments
  loaders : LoaderSettings
  key : String
  inner : List Selection
  before : Service

namespace Attempt

def input (a : Attempt) : Arguments :=
  a.arguments.record "input"

def version (a : Attempt) : Option Int :=
  a.input.int? "version"

def outcome (s : Setup) (a : Attempt) : Except Fault (Outcome Node) :=
  ((field s a.name a.arguments).run.carryOut a.before).1

def after (s : Setup) (a : Attempt) : Service :=
  (mutation s a.loaders [.field a.key a.name a.arguments a.inner] a.before).2

def told (s : Setup) (a : Attempt) (key : String) : Response :=
  (mutation s a.loaders [.field key a.name a.arguments (payloadFields (resultName a.name))] a.before).1

/-- A successful update, cancel or delete of an entity, with the version that it carried. -/
def Wrote (s : Setup) (a : Attempt) (kind : Kind) (id : String) (v : Int) : Prop :=
  a.act.edit ≠ .append ∧ a.act.kind = kind ∧ a.version = some v ∧
    ∃ e, resultOf (a.outcome s) = some e ∧ e.id = id

def NewTo (s : Setup) (a : Attempt) (st : Store) : Prop :=
  a.act.edit = .append → ∀ e, resultOf (a.outcome s) = some e →
    ∀ x ∈ st.entities a.act.kind, x.id ≠ e.id

/-- What an attempt that answers with an entity has done to the store. -/
def Done (a : Attempt) (e : Entity) (st : Store) : Prop :=
  a.act.Effect (target? a.name a.input a.before.store) e a.before.store st ∧
    (a.act.edit ≠ .append → a.before.store.Met a.act.kind a.act.edit.leave a.version e)

inductive Does (s : Setup) (a : Attempt) : Prop
  | nothing (missed : resultOf (a.outcome s) = none) (same : (a.after s).store = a.before.store)
  | amended (e : Entity) (edit : a.act.edit = .amend) (result : resultOf (a.outcome s) = some e)
      (met : a.before.store.Met a.act.kind Metadata.bump a.version e)
      (amends : a.before.store.Amends a.act.kind e (a.after s).store)
  | removed (e : Entity) (edit : a.act.edit = .remove) (result : resultOf (a.outcome s) = some e)
      (met : a.before.store.Met a.act.kind (fun m => m) a.version e)
      (removes : a.before.store.Removes a.act.kind e (a.after s).store)
  | appended (e : Entity) (edit : a.act.edit = .append) (result : resultOf (a.outcome s) = some e)
      (appends : a.before.store.Appends a.act.kind e (a.after s).store)

section Step

variable {s : Setup} {a : Attempt} {kind : Kind} {id : String} {v : Int}

theorem after_store (s : Setup) (a : Attempt) :
    (a.after s).store = ((field s a.name a.arguments).run.carryOut a.before).2.store := by
  have plan : (field s a.name a.arguments).run.Within _ _ 0 := mutation_within a.name a.arguments
  rw [after, mutation_field s a.loaders a.known]
  exact respond_store s a.loaders a.key a.inner (plan.carryOut a.before) _

theorem left (distinct : a.before.store.Distinct) :
    Left a.before.store a.Done (a.outcome s, (a.after s).store) := by
  obtain ⟨α, wrap, write, h, same⟩ := makes a.known a.arguments
  have done : write.Atomic a.before.store fun b st => a.Done (wrap b) st := by
    by_cases appends : a.act.edit = .append
    · exact (h.atomic distinct).imp fun b st effect => ⟨effect, fun other => absurd appends other⟩
    · exact ((h.atomic distinct).and (h.met appends _)).imp fun b st both => ⟨both.1, fun _ => both.2⟩
  rw [after_store, outcome, same]
  exact left_perform done

theorem does (distinct : a.before.store.Distinct) : a.Does s := by
  have left := a.left (s := s) distinct
  unfold Left at left
  cases result : resultOf (a.outcome s) with
  | none =>
    rw [result] at left
    exact .nothing result left
  | some e =>
    rw [result] at left
    obtain ⟨effect, met⟩ := left
    unfold Act.Effect at effect
    cases edit : a.act.edit with
    | amend =>
      rw [edit] at effect met
      exact .amended e edit result (met (by simp)) effect.2
    | remove =>
      rw [edit] at effect met
      exact .removed e edit result (met (by simp)) effect.2
    | append =>
      rw [edit] at effect
      exact .appended e edit result effect

theorem Does.distinct (h : a.Does s) (distinct : a.before.store.Distinct)
    (new : a.NewTo s a.before.store) : (a.after s).store.Distinct := by
  intro k
  cases h with
  | nothing _ same => exact same ▸ distinct k
  | amended e _ _ _ amends => exact (amends.ids k).symm ▸ distinct k
  | removed e _ _ _ removes => exact (distinct k).sublist ((removes.sublist k).map Entity.id)
  | appended e edit result appends => exact appends.unique (new edit e result) (distinct k)

theorem Does.past (h : a.Does s) (bounded : a.before.store.Bounded)
    (past : a.before.store.Past kind id v)
    (other : a.act.edit = .append → a.act.kind = kind → ∀ e, resultOf (a.outcome s) = some e → e.id ≠ id) :
    (a.after s).store.Past kind id v := by
  cases h with
  | nothing _ same => exact same ▸ past
  | amended e _ _ met amends => exact past.amends bounded met amends
  | removed e _ _ _ removes => exact past.removes removes
  | appended e edit result appends => exact past.appends appends fun same => other edit same.symm e result

theorem Does.wrote (h : a.Does s) (distinct : a.before.store.Distinct) (bounded : a.before.store.Bounded)
    (wrote : a.Wrote s kind id v) :
    (∃ e ∈ a.before.store.entities kind, e.id = id ∧ e.metadata.version = v) ∧
      (a.after s).store.Past kind id v := by
  obtain ⟨changes, rfl, carried, e', result', rfl⟩ := wrote
  cases h with
  | nothing missed _ => simp [missed] at result'
  | appended e edit _ _ => exact absurd edit changes
  | amended e _ result met amends =>
    obtain rfl : e = e' := Option.some.inj (result.symm.trans result')
    rw [carried] at met
    have past := amends.past bounded (distinct a.act.kind) met
    obtain ⟨old, mem, same, expected, _⟩ := met
    exact ⟨⟨old, mem, same, (expected v rfl).symm⟩, past⟩
  | removed e _ result met removes =>
    obtain rfl : e = e' := Option.some.inj (result.symm.trans result')
    obtain ⟨old, mem, same, expected, _⟩ := met
    exact ⟨⟨old, mem, same, (expected v carried).symm⟩, removes.past (distinct a.act.kind)⟩

theorem Does.raised (h : a.Does s) (distinct : a.before.store.Distinct) (bounded : a.before.store.Bounded)
    (edit : a.act.edit = .amend) {e : Entity} (result : resultOf (a.outcome s) = some e) :
    ∃ v, a.before.store.version? a.act.kind e.id = some v ∧
      (a.after s).store.version? a.act.kind e.id = some (v + 1) := by
  cases h with
  | nothing missed _ => simp [missed] at result
  | removed _ edit' _ _ _ => simp [edit'] at edit
  | appended _ edit' _ _ => simp [edit'] at edit
  | amended e' _ result' met amends =>
    obtain rfl : e' = e := Option.some.inj (result'.symm.trans result)
    obtain ⟨old, mem, same, -, raised⟩ := met.raised bounded
    have distinct' : (a.after s).store.Distinct := fun k => (amends.ids k).symm ▸ distinct k
    exact ⟨old.metadata.version, (Store.version?_eq_some_iff distinct).mpr ⟨old, mem, same, rfl⟩,
      (Store.version?_eq_some_iff distinct').mpr ⟨e', amends.mem, rfl, raised⟩⟩

theorem conflicts (distinct : a.before.store.Distinct) (here : s.catalog) (calm : a.before.armed = [])
    (changes : a.act.edit ≠ .append) {i : String} (resolves : Resolves a.name a.input a.before.store i)
    {current : Int} (found : a.before.store.version? a.act.kind i = some current)
    (carried : a.version = some v) (stale : v ≠ current) :
    a.outcome s = .ok (.node (.payload ⟨a.act.kind, a.input.text? "clientMutationId", none,
      [⟨.conflict, "resource version does not match the specified version", none⟩]⟩)) ∧
      (a.after s).core = a.before.core := by
  obtain ⟨α, wrap, write, h, same⟩ := makes a.known a.arguments
  obtain ⟨e, there, rfl⟩ := Option.map_eq_some_iff.mp found
  rw [Store.entity?, findRev?_eq_find? (distinct a.act.kind)] at there
  obtain ⟨came, core⟩ := h.stale changes resolves there carried stale a.before rfl calm
  have performed : (perform s a.act.kind wrap a.input write).run.carryOut a.before = _ :=
    carryOut_perform here a.before
  rw [came] at performed
  have answer : (field s a.name a.arguments).run.carryOut a.before = _ := (same s ▸ performed)
  refine ⟨congrArg Prod.fst answer, ?_⟩
  rw [after, mutation_field s a.loaders a.known, answer]
  exact (congrArg Service.core (respond_bare s a.loaders a.key a.inner rfl _)).trans core

end Step

end Attempt

/-- Attempts one after another on one store. Between two of them the service may do anything that leaves its
store alone. -/
inductive Runs (s : Setup) : Store → List Attempt → Prop
  | done (st : Store) : Runs s st []
  | next {st : Store} {a : Attempt} {rest : List Attempt} (met : a.before.store = st)
      (later : Runs s (a.after s).store rest) : Runs s st (a :: rest)

/-- Identifiers that are made are in use neither then nor before. -/
structure Fresh (s : Setup) (run : List Attempt) : Prop where
  now : ∀ a ∈ run, a.NewTo s a.before.store
  ever : run.Pairwise fun a b => b.NewTo s a.before.store

section Run

variable {s : Setup} {st : Store} {run : List Attempt}

theorem Runs.distinct (runs : Runs s st run) (distinct : st.Distinct)
    (new : ∀ a ∈ run, a.NewTo s a.before.store) : ∀ a ∈ run, a.before.store.Distinct := by
  induction runs with
  | done => exact List.forall_mem_nil _
  | @next st a rest met later ih =>
    subst met
    have after := (a.does distinct).distinct distinct (new a (by simp))
    have others := ih after fun b mem => new b (List.mem_cons_of_mem _ mem)
    exact List.forall_mem_cons.mpr ⟨distinct, others⟩

theorem Runs.past (runs : Runs s st run) (distinct : ∀ a ∈ run, a.before.store.Distinct)
    (bounded : ∀ a ∈ run, a.before.store.Bounded) {kind : Kind} {id : String} {v : Int}
    (past : st.Past kind id v)
    (other : ∀ a ∈ run, a.act.edit = .append → a.act.kind = kind →
      ∀ e, resultOf (a.outcome s) = some e → e.id ≠ id) :
    ∀ a ∈ run, a.before.store.Past kind id v := by
  induction runs with
  | done => exact List.forall_mem_nil _
  | @next st a rest met later ih =>
    subst met
    obtain ⟨distinctHere, distinctLater⟩ := List.forall_mem_cons.mp distinct
    obtain ⟨boundedHere, boundedLater⟩ := List.forall_mem_cons.mp bounded
    obtain ⟨otherHere, otherLater⟩ := List.forall_mem_cons.mp other
    have after := (a.does distinctHere).past boundedHere past otherHere
    exact List.forall_mem_cons.mpr ⟨past, ih distinctLater boundedLater after otherLater⟩

/-- No two attempts of a run succeed with the same version of one entity. -/
theorem Runs.once (runs : Runs s st run) (distinct : ∀ a ∈ run, a.before.store.Distinct)
    (bounded : ∀ a ∈ run, a.before.store.Bounded) (ever : run.Pairwise fun a b => b.NewTo s a.before.store)
    (kind : Kind) (id : String) (v : Int) :
    run.Pairwise fun a b => ¬ (a.Wrote s kind id v ∧ b.Wrote s kind id v) := by
  induction runs with
  | done => exact .nil
  | @next st a rest met later ih =>
    obtain ⟨distinctHere, distinctLater⟩ := List.forall_mem_cons.mp distinct
    obtain ⟨boundedHere, boundedLater⟩ := List.forall_mem_cons.mp bounded
    obtain ⟨newHere, newLater⟩ := List.pairwise_cons.mp ever
    refine List.pairwise_cons.mpr ⟨fun b mem both => ?_, ih distinctLater boundedLater newLater⟩
    obtain ⟨⟨x, known, same, -⟩, after⟩ := (a.does distinctHere).wrote distinctHere boundedHere both.1
    have past := later.past distinctLater boundedLater after fun c mem edit kinds e made here =>
      newHere c mem edit e made x (kinds.symm ▸ known) (same.trans here.symm)
    obtain ⟨⟨old, there, same, version⟩, -⟩ :=
      (b.does (distinctLater b mem)).wrote (distinctLater b mem) (boundedLater b mem) both.2
    have beyond := past b mem old there same
    omega

end Run

/-- In a run of mutations by any number of clients no update is lost. Of those that carry one version of one
entity at most one succeeds, whether update, cancel or delete; every update or cancel that succeeds raises
the version by one; and whoever expects a version that the entity does not have is told of the conflict, and
nothing is changed. -/
theorem no_lost_update {s : Setup} {st : Store} {run : List Attempt} (runs : Runs s st run)
    (distinct : st.Distinct) (fresh : Fresh s run) (bounded : ∀ a ∈ run, a.before.store.Bounded) :
    (∀ kind id v, run.Pairwise fun a b => ¬ (a.Wrote s kind id v ∧ b.Wrote s kind id v)) ∧
    (∀ a ∈ run, a.act.edit = .amend → ∀ e, resultOf (a.outcome s) = some e →
      ∃ v, a.before.store.version? a.act.kind e.id = some v ∧
        (a.after s).store.version? a.act.kind e.id = some (v + 1)) ∧
    ∀ a ∈ run, a.act.edit ≠ .append → s.catalog → a.before.armed = [] →
      ∀ i current v, Resolves a.name a.input a.before.store i →
        a.before.store.version? a.act.kind i = some current → a.version = some v → v ≠ current →
        a.outcome s = .ok (.node (.payload ⟨a.act.kind, a.input.text? "clientMutationId", none,
          [⟨.conflict, "resource version does not match the specified version", none⟩]⟩)) ∧
        (a.after s).core = a.before.core ∧
        ∀ key, a.told s key = ⟨.object [(key, .object [
          ("clientMutationId", (a.input.text? "clientMutationId").elim .null .text),
          ("problems", .list [.object [("type", .text "CONFLICT"),
            ("message", .text "resource version does not match the specified version"), ("field", .null)]]),
          (resultName a.name, .null)])], []⟩ := by
  have each := runs.distinct distinct fresh.now
  refine ⟨runs.once each bounded fresh.ever, fun a mem edit e result => ?_,
    fun a mem changes here calm i current v resolves found carried stale => ?_⟩
  · exact (a.does (each a mem)).raised (each a mem) (bounded a mem) edit result
  · obtain ⟨answer, core⟩ := a.conflicts (each a mem) here calm changes resolves found carried stale
    refine ⟨answer, core, fun key => ?_⟩
    rw [Attempt.told, mutation_told a.known answer]
    rfl

def describe (service : Service) : Attempt where
  act := ⟨.amend, .group⟩
  name := "updateGroup"
  known := rfl
  arguments := [("input", .record
    [("groupPath", .text "ops"), ("version", .int 1), ("description", .text "new")])]
  loaders := .standard
  key := "updateGroup"
  inner := []
  before := service

/-- Of two such clients the second is told of the first. -/
theorem no_lost_update_twice :
    let s := Setup.complete .standard
    let first := describe (.new smallStore)
    let second := describe (first.after s)
    Runs s smallStore [first, second] ∧ smallStore.Distinct ∧ Fresh s [first, second] ∧
    (∀ a ∈ [first, second], a.before.store.Bounded) ∧
    first.Wrote s .group "g" 1 ∧ ¬ second.Wrote s .group "g" 1 ∧
    (∃ v, smallStore.version? .group "g" = some v ∧
      (first.after s).store.version? .group "g" = some (v + 1)) ∧
    second.outcome s = .ok (.node (.payload ⟨.group, none, none,
      [⟨.conflict, "resource version does not match the specified version", none⟩]⟩)) ∧
    (second.after s).core = second.before.core ∧
    second.told s "again" = ⟨.object [("again", .object [("clientMutationId", .null),
      ("problems", .list [.object [("type", .text "CONFLICT"),
        ("message", .text "resource version does not match the specified version"), ("field", .null)]]),
      ("group", .null)])], []⟩ := by
  intro s first second
  have runs : Runs s smallStore [first, second] := .next rfl (.next rfl (.done _))
  have updates : ∀ a ∈ [first, second], a.act.edit ≠ .append := by simp [first, second, describe]
  have fresh : Fresh s [first, second] :=
    ⟨fun a mem edit => absurd edit (updates a mem), List.pairwise_cons.mpr
      ⟨fun b mem edit => absurd edit (updates b (List.mem_cons_of_mem _ mem)), List.pairwise_singleton _ _⟩⟩
  have stored : (first.after s).store = { smallStore with
      groups := [⟨"g", "ops", "new", "ops", none, "admin", Metadata.fresh.bump⟩] } := by
    rw [first.after_store]
    rfl
  have version : (first.after s).store.version? .group "g" = some 2 := by
    rw [stored]
    rfl
  have bounded : ∀ a ∈ [first, second], a.before.store.Bounded := by
    have before : smallStore.Bounded := fun kind => by cases kind <;> decide
    have after : (first.after s).store.Bounded := by
      rw [stored]
      exact fun kind => by cases kind <;> decide
    exact List.forall_mem_cons.mpr ⟨before, List.forall_mem_singleton.mpr after⟩
  obtain ⟨once, raised, conflicts⟩ := no_lost_update runs smallStore_distinct fresh bounded
  have wrote : first.Wrote s .group "g" 1 := ⟨updates first (by simp), rfl, rfl, _, rfl, rfl⟩
  have alone := (List.pairwise_cons.mp (once .group "g" 1)).1 second (by simp)
  have ⟨_, _, _, e, result, here⟩ := wrote
  obtain ⟨v, before, after⟩ := raised first (by simp) rfl e result
  rw [here] at before after
  have resolves : Resolves second.name second.input second.before.store "g" :=
    ⟨rfl, by show target? _ _ (first.after s).store = _; rw [stored]; rfl, by simp [second, describe]⟩
  have told := conflicts second (by simp) (by simp [second, describe]) rfl (by decide +kernel) "g" 2 1
    resolves version rfl (by decide)
  exact ⟨runs, smallStore_distinct, fresh, bounded, wrote, fun again => alone ⟨wrote, again⟩,
    ⟨v, before, after⟩, told.1, told.2.1, told.2.2 "again"⟩

end InfraGraph.Api.Mutation
