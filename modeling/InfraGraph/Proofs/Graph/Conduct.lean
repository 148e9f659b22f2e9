import InfraGraph.Proofs.Graph.Passes

/-!
How plans and resolvers conduct themselves: which requests they may make, how many entities they load
one after another, and what they come to. The work of a plan is as fresh as the plan allows.
-/

namespace InfraGraph.Graph

variable {α β : Type} {allowed : Request → Prop}

/-- A plan that makes allowed requests only, loads at most so many entities one after another, and comes
to something good. -/
def Plan.Within (allowed : Request → Prop) (good : α → Prop) : Nat → Plan α → Prop
  | _, .done a => good a
  | n, .ask q next => allowed q ∧ ∀ r, (next r).Within allowed good n
  | 0, .load _ _ _ _ _ => False
  | n + 1, .load _ kind type _ next => Loadable kind type ∧ ∀ r, (next r).Within allowed good n

namespace Plan

theorem Within.mono {good good' : α → Prop} {n m : Nat} {p : Plan α} (h : p.Within allowed good n)
    (good_le : ∀ a, good a → good' a) (le : n ≤ m) : p.Within allowed good' m := by
  induction p generalizing n m with
  | done a => exact good_le a (by simpa [Within] using h)
  | ask q next ih =>
    simp only [Within] at h ⊢
    exact ⟨h.1, fun r => ih r (h.2 r) le⟩
  | load scope kind type id next ih =>
    obtain ⟨m, rfl⟩ : ∃ m', m = m' + 1 := by
      cases n with
      | zero => simp [Within] at h
      | succ n => exact Nat.exists_eq_add_of_le' (Nat.le_of_add_left_le le)
    cases n with
    | zero => simp [Within] at h
    | succ n =>
      simp only [Within] at h ⊢
      exact ⟨h.1, fun r => ih r (h.2 r) (Nat.le_of_succ_le_succ le)⟩

theorem Within.bind {good : α → Prop} {good' : β → Prop} {n m : Nat} {p : Plan α} {f : α → Plan β}
    (h : p.Within allowed good n) (rest : ∀ a, good a → (f a).Within allowed good' m) :
    (p.bind f).Within allowed good' (n + m) := by
  induction p generalizing n with
  | done a => exact (rest a (by simpa [Within] using h)).mono (fun _ => id) (Nat.le_add_left m n)
  | ask q next ih =>
    simp only [Within] at h
    simp only [Plan.bind, Within]
    exact ⟨h.1, fun r => ih r (h.2 r)⟩
  | load scope kind type id next ih =>
    cases n with
    | zero => simp [Within] at h
    | succ n =>
      simp only [Within] at h
      rw [Nat.succ_add]
      simp only [Plan.bind, Within]
      exact ⟨h.1, fun r => ih r (h.2 r)⟩

end Plan

/-- Carries out a plan against the service, with no loader in between. -/
def Plan.carryOut : Plan α → Service → α × Service
  | .done a, s => (a, s)
  | .ask q next, s => (next (s.answer q).1).carryOut (s.answer q).2
  | .load _ kind _ id next, s => (next (.ok (s.store.entity? kind id))).carryOut s

namespace Plan

variable {good : α → Prop} {p : Plan α}

theorem Within.carryOut (h : p.Within allowed good 0) (s : Service) : good (p.carryOut s).1 := by
  induction p generalizing s with
  | done a => simpa [Within, Plan.carryOut] using h
  | ask q next ih =>
    simp only [Within] at h
    exact ih _ (h.2 _) _
  | load scope kind type id next => simp [Within] at h

theorem carryOut_armed_le (p : Plan α) (s : Service) :
    (p.carryOut s).2.armed.length ≤ s.armed.length := by
  induction p generalizing s with
  | done a => exact Nat.le_refl _
  | ask q next ih => exact (ih _ _).trans (Service.armed_answer_le s q)
  | load scope kind type id next ih => exact ih _ _

theorem carryOut_eq (p : Plan α) {s s' : Service} (core : s'.core = s.core)
    (unhit : (p.carryOut s).2.armed.length = s.armed.length)
    (unhit' : (p.carryOut s').2.armed.length = s'.armed.length) :
    (p.carryOut s').1 = (p.carryOut s).1 ∧ (p.carryOut s').2.core = (p.carryOut s).2.core := by
  induction p generalizing s s' with
  | done a => exact ⟨rfl, core⟩
  | ask q next ih =>
    simp only [carryOut] at unhit unhit' ⊢
    have le := Service.armed_answer_le s q
    have le' := Service.armed_answer_le s' q
    have rest := carryOut_armed_le (next (s.answer q).1) (s.answer q).2
    have rest' := carryOut_armed_le (next (s'.answer q).1) (s'.answer q).2
    have first : (s.answer q).2.armed.length = s.armed.length := by omega
    have first' : (s'.answer q).2.armed.length = s'.armed.length := by omega
    obtain ⟨reply, after⟩ := Service.answer_eq first
    obtain ⟨reply', after'⟩ := Service.answer_eq first'
    have same : (s'.answer q).1 = (s.answer q).1 := by rw [reply, reply', core]
    rw [same] at unhit' ⊢
    exact ih _ (by rw [after, after', core]) (unhit.trans first.symm) (unhit'.trans first'.symm)
  | load scope kind type id next ih =>
    have store := Service.store_eq_of_core core
    simp only [carryOut, store] at unhit unhit' ⊢
    exact ih _ core unhit unhit'

theorem carryOut_calm (p : Plan α) {s : Service} (calm : s.armed = []) :
    (p.carryOut s).2.armed = [] := by
  have le := p.carryOut_armed_le s
  rw [calm] at le
  exact List.length_eq_zero_iff.mp (Nat.le_zero.mp le)

theorem Within.perform_eq (h : p.Within allowed good 0) (w : World) :
    w.perform p = ((p.carryOut w.service).1, { w with service := (p.carryOut w.service).2 }) := by
  induction p generalizing w with
  | done a => rfl
  | ask q next ih =>
    simp only [Within] at h
    exact ih _ (h.2 _) _
  | load scope kind type id next => simp [Within] at h

theorem Within.pass_ofPlan (h : p.Within allowed good 0) (next : α → Work) (w : World) :
    (Work.ofPlan next p).pass w =
      (next (p.carryOut w.service).1).pass { w with service := (p.carryOut w.service).2 } := by
  induction p generalizing w with
  | done a => rfl
  | ask q k ih =>
    simp only [Within] at h
    exact ih _ (h.2 _) _
  | load scope kind type id next => simp [Within] at h

end Plan

theorem Work.Fresh.ofPlan {good : α → Prop} {n m : Nat} {next : α → Work} {p : Plan α}
    (h : p.Within (·.isRead) good n) (rest : ∀ a, good a → Fresh m (next a)) :
    Fresh (n + m) (ofPlan next p) := by
  induction p generalizing n with
  | done a => exact (rest a (by simpa [Plan.Within] using h)).mono (Nat.le_add_left m n)
  | ask q k ih =>
    simp only [Plan.Within] at h
    exact .ask h.1 fun r => ih r (h.2 r)
  | load scope kind type id k ih =>
    cases n with
    | zero => simp [Plan.Within] at h
    | succ n =>
      simp only [Plan.Within] at h
      rw [Nat.succ_add]
      exact .load h.1 fun r => ih r (h.2 r)

namespace Resolver

def Within (allowed : Request → Prop) (good : α → Prop) (n : Nat) (r : Resolver α) : Prop :=
  Plan.Within allowed (fun o => ∀ a, o = .ok a → good a) n r.run

variable {good : α → Prop} {good' : β → Prop} {n : Nat}

theorem Within.bind {m : Nat} {r : Resolver α} {f : α → Resolver β} (h : r.Within allowed good n)
    (rest : ∀ a, good a → (f a).Within allowed good' m) : (r >>= f).Within allowed good' (n + m) := by
  refine Plan.Within.bind h fun o ok => ?_
  cases o with
  | error f => exact fun a same => by simp at same
  | ok a => exact rest a (ok a rfl)

theorem Within.map {r : Resolver α} (h : r.Within allowed good n) (f : α → β)
    (good_map : ∀ a, good a → good' (f a)) : (f <$> r).Within allowed good' n := by
  refine Plan.Within.bind (m := 0) h fun o ok => ?_
  cases o with
  | error f => exact fun _ same => by cases same
  | ok a => exact fun _ same => by cases same; exact good_map a (ok a rfl)

theorem Within.attempt {r : Resolver α} (h : r.Within allowed good n) :
    r.attempt.Within allowed (fun _ => True) n :=
  Plan.Within.bind (m := 0) h fun _ _ _ _ => trivial

@[simp] theorem within_pure {a : α} : (pure a : Resolver α).Within allowed good n ↔ good a :=
  ⟨fun h => h a rfl, fun h b same => by cases same; exact h⟩

@[simp] theorem within_throw {f : Fault} : (throw f : Resolver α).Within allowed good n :=
  fun a same => by cases same

@[simp] theorem within_ofExcept {e : Except Fault α} :
    (ofExcept e).Within allowed good n ↔ ∀ a, e = .ok a → good a :=
  .rfl

@[simp] theorem within_ask {q : Request} {good : q.Reply → Prop} :
    (ask q).Within allowed good n ↔ allowed q ∧ ∀ r, good r :=
  ⟨fun h => ⟨h.1, fun r => h.2 (.ok r) r rfl⟩, fun h => ⟨h.1, fun _ a _ => h.2 a⟩⟩

@[simp] theorem within_ask_bind {q : Request} {f : q.Reply → Resolver β} :
    (ask q >>= f).Within allowed good' n ↔ allowed q ∧ ∀ r, (f r).Within allowed good' n := by
  refine ⟨fun h => ⟨h.1, fun r => h.2 (.ok r)⟩, fun h => ⟨h.1, fun o => ?_⟩⟩
  cases o with
  | error f => exact fun a same => by cases same
  | ok r => exact h.2 r

@[simp] theorem within_ofExcept_bind {e : Except Fault α} {f : α → Resolver β} :
    (ofExcept e >>= f).Within allowed good' n ↔ ∀ a, e = .ok a → (f a).Within allowed good' n := by
  cases e with
  | error f => exact ⟨fun _ _ same => (by cases same), fun _ => within_throw⟩
  | ok a => exact ⟨fun h b same => by cases same; exact h, fun h => h a rfl⟩

@[simp] theorem within_load_bind {scope : Scope} {kind : Kind} {type : EntityType} {id : String}
    {f : Option Entity → Resolver β} : (load scope kind type id >>= f).Within allowed good' 1 ↔
      Loadable kind type ∧ ∀ e, (f e).Within allowed good' 0 := by
  refine ⟨fun h => ⟨h.1, fun e => h.2 (.ok e)⟩, fun h => ⟨h.1, fun o => ?_⟩⟩
  cases o with
  | error f => exact fun a same => by cases same
  | ok e => exact h.2 e

theorem Within.require {scope : Scope} {kind : Kind} {type : EntityType} (id : String) (h : Loadable kind type) :
    (require scope kind type id).Within allowed (fun _ => True) 1 := by
  unfold Resolver.require
  rw [within_load_bind]
  refine ⟨h, fun e => ?_⟩
  cases e <;> simp

@[simp] theorem within_require_bind {scope : Scope} {kind : Kind} {type : EntityType} {id : String}
    {f : Entity → Resolver β} : (require scope kind type id >>= f).Within allowed good' 1 ↔
      Loadable kind type ∧ ∀ e, (f e).Within allowed good' 0 := by
  refine ⟨fun h => ⟨h.1, fun e => h.2 (.ok (some e))⟩, fun h => ?_⟩
  exact (Within.require id h.1).bind fun e _ => h.2 e

end Resolver

variable {ν : Type}

def Outcome.Leads (P : ν → Prop) : Outcome ν → Prop
  | value _ => True
  | node n => P n
  | oneOf _ n => P n
  | nodes ns => ∀ n ∈ ns, P n

/-- Every field of a node of some sort only reads, loads one entity at most, and leads to nodes of the
same sort. -/
def Schema.Reads (s : Schema ν) (P : ν → Prop) : Prop :=
  ∀ n, P n → ∀ name args, (s.resolve n name args).Within (·.isRead) (Outcome.Leads P) 1

/-- Every field of a node of some sort is there without asking or loading anything, and leads to nodes of
the same sort. -/
def Schema.Holds (s : Schema ν) (P : ν → Prop) : Prop :=
  ∀ n, P n → ∀ name args, (s.resolve n name args).Within (fun _ => False) (Outcome.Leads P) 0

namespace Work

variable {s : Schema ν} {P : ν → Prop}

theorem Fresh.object {n : Nat} {fields : List (String × Work)} (h : ∀ f ∈ fields, Fresh n f.2) :
    Fresh n (object fields) :=
  .parts fun t mem => by
    obtain ⟨f, here, rfl⟩ := List.mem_map.mp mem
    exact h f here

theorem Fresh.ofOutcome {n : Nat} {inner : String → ν → List (String × Work)}
    (h : ∀ position m, P m → ∀ f ∈ inner position m, Fresh n f.2) {o : Except Fault (Outcome ν)}
    (leads : ∀ a, o = .ok a → a.Leads P) : Fresh n (ofOutcome s inner o) := by
  match o with
  | .error f => exact .failed n f
  | .ok (.value v) => exact .value n v
  | .ok (.node m) => exact .object (h _ m (leads _ rfl))
  | .ok (.oneOf _ m) => exact .object (h _ m (leads _ rfl))
  | .ok (.nodes ms) =>
    refine .parts fun t mem => ?_
    obtain ⟨m, here, rfl⟩ := List.mem_map.mp mem
    exact .object (h _ m (leads _ rfl m here))

mutual

/-- A selection asked of a node loads at most as many entities one after another as it is deep. -/
theorem fresh_ofSelection (reads : s.Reads P) : ∀ (sel : Selection) (position : String) (n : ν), P n →
    ∀ f ∈ ofSelection s sel position n, Fresh sel.depth f.2
  | .field key name args inner, position, n, good, f, mem => by
    unfold ofSelection at mem
    split at mem
    · obtain rfl := List.mem_singleton.mp mem
      exact .value _ _
    · obtain rfl := List.mem_singleton.mp mem
      rw [Selection.depth, Nat.add_comm]
      exact .ofPlan (reads n good name args) fun o leads =>
        .ofOutcome (fresh_ofSelections reads inner) leads
  | .fragment type inner, position, n, good, f, mem => by
    unfold ofSelection at mem
    rw [Selection.depth]
    split at mem
    · exact fresh_ofSelections reads inner type n good f mem
    · split at mem
      · exact fresh_ofSelections reads inner position n good f mem
      · simp at mem

theorem fresh_ofSelections (reads : s.Reads P) : ∀ (sels : List Selection) (position : String) (n : ν),
    P n → ∀ f ∈ ofSelections s sels position n, Fresh (Selection.depthAll sels) f.2
  | [], _, _, _, f, mem => by simp [ofSelections] at mem
  | sel :: sels, position, n, good, f, mem => by
    unfold ofSelections at mem
    rw [Selection.depthAll]
    rcases List.mem_append.mp mem with mem | mem
    · exact (fresh_ofSelection reads sel position n good f mem).mono (Nat.le_max_left _ _)
    · exact (fresh_ofSelections reads sels position n good f mem).mono (Nat.le_max_right _ _)

end

section Finished

theorem pass_of_finished {t : Work} (h : t.isFinished) (w : World) : t.pass w = (t, w) := by
  induction t using Work.induction with
  | value _ => rfl
  | failed _ => rfl
  | parts assembly works ih =>
    have each := areFinished_iff.mp h
    have all : passAll works w = (works, w) := by
      clear h
      induction works with
      | nil => rfl
      | cons t ts rest =>
        have first := ih t (by simp) (each t (by simp))
        have others := rest (fun t mem => ih t (List.mem_cons_of_mem _ mem))
          fun t mem => each t (List.mem_cons_of_mem _ mem)
        simp only [passAll, first, others]
    rw [pass, all]
  | _ => simp [isFinished] at h

theorem run_of_finished {t : Work} (h : t.isFinished) (depth : Nat) (w : World) :
    t.run depth w = (t, w) := by
  rw [run, pass_of_finished h]
  cases depth with
  | zero => rfl
  | succ n => simp [finish, h]

theorem finished_object {fields : List (String × Work)} (h : ∀ f ∈ fields, f.2.isFinished) :
    (object fields).isFinished :=
  areFinished_iff.mpr fun t mem => by
    obtain ⟨f, here, rfl⟩ := List.mem_map.mp mem
    exact h f here

theorem finished_ofPlan {good : α → Prop} {next : α → Work} {p : Plan α}
    (h : p.Within (fun _ => False) good 0) (rest : ∀ a, good a → (next a).isFinished) :
    (ofPlan next p).isFinished := by
  cases p with
  | done a => exact rest a (by simpa [Plan.Within] using h)
  | ask q k => simp [Plan.Within] at h
  | load scope kind type id k => simp [Plan.Within] at h

theorem finished_ofOutcome {inner : String → ν → List (String × Work)}
    (h : ∀ position m, P m → ∀ f ∈ inner position m, f.2.isFinished) {o : Except Fault (Outcome ν)}
    (leads : ∀ a, o = .ok a → a.Leads P) : (ofOutcome s inner o).isFinished := by
  match o with
  | .error f => rfl
  | .ok (.value v) => rfl
  | .ok (.node m) => exact finished_object (h _ m (leads _ rfl))
  | .ok (.oneOf _ m) => exact finished_object (h _ m (leads _ rfl))
  | .ok (.nodes ms) =>
    refine areFinished_iff.mpr fun t mem => ?_
    obtain ⟨m, here, rfl⟩ := List.mem_map.mp mem
    exact finished_object (h _ m (leads _ rfl m here))

mutual

theorem finished_ofSelection (holds : s.Holds P) : ∀ (sel : Selection) (position : String) (n : ν), P n →
    ∀ f ∈ ofSelection s sel position n, f.2.isFinished
  | .field key name args inner, position, n, good, f, mem => by
    unfold ofSelection at mem
    split at mem
    · obtain rfl := List.mem_singleton.mp mem
      rfl
    · obtain rfl := List.mem_singleton.mp mem
      exact finished_ofPlan (holds n good name args) fun o leads =>
        finished_ofOutcome (finished_ofSelections holds inner) leads
  | .fragment type inner, position, n, good, f, mem => by
    unfold ofSelection at mem
    split at mem
    · exact finished_ofSelections holds inner type n good f mem
    · split at mem
      · exact finished_ofSelections holds inner position n good f mem
      · simp at mem

theorem finished_ofSelections (holds : s.Holds P) : ∀ (sels : List Selection) (position : String) (n : ν),
    P n → ∀ f ∈ ofSelections s sels position n, f.2.isFinished
  | [], _, _, _, f, mem => by simp [ofSelections] at mem
  | sel :: sels, position, n, good, f, mem => by
    unfold ofSelections at mem
    rcases List.mem_append.mp mem with mem | mem
    · exact finished_ofSelection holds sel position n good f mem
    · exact finished_ofSelections holds sels position n good f mem

end

end Finished

end Work

end InfraGraph.Graph
