import InfraGraph.Proofs.Graph.Exchanges

/-!
The courses that a plan can take. Each request is answered by a service in any state and each load brings
anything at all, so these are the courses with whatever goes on beside the plan and whatever the loaders
keep. A plan that is carried out against one service takes one of them.
-/

namespace InfraGraph.Graph

variable {α β : Type}

namespace Plan

inductive Takes : Plan α → List Exchange → α → Prop
  | done (a : α) : Takes (.done a) [] a
  | ask {q : Request} {next : Except Fault q.Reply → Plan α} {xs : List Exchange} {a : α} (s : Service)
      (rest : Takes (next (s.answer q).1) xs a) : Takes (.ask q next) (⟨q, (s.answer q).1⟩ :: xs) a
  | load {scope : Scope} {kind : Kind} {type : EntityType} {id : String}
      {next : Except Fault (Option Entity) → Plan α} {xs : List Exchange} {a : α} (e : Except Fault (Option Entity)) (rest : Takes (next e) xs a) :
      Takes (.load scope kind type id next) xs a

theorem takes_carryOut (p : Plan α) (s : Service) : p.Takes (p.exchanges s) (p.carryOut s).1 := by
  induction p generalizing s with
  | done a => exact .done a
  | ask q next ih => exact .ask s (ih _ _)
  | load scope kind type id next ih => exact .load _ (ih _ s)

theorem Takes.of_bind {p : Plan α} {f : α → Plan β} {xs : List Exchange} {b : β}
    (h : (p.bind f).Takes xs b) :
    ∃ ys zs a, xs = ys ++ zs ∧ p.Takes ys a ∧ (f a).Takes zs b := by
  induction p generalizing xs with
  | done a => exact ⟨[], xs, a, rfl, .done a, h⟩
  | ask q next ih =>
    cases h with
    | ask s rest =>
      obtain ⟨ys, zs, a, rfl, first, last⟩ := ih _ rest
      exact ⟨_ :: ys, zs, a, rfl, .ask s first, last⟩
  | load scope kind type id next ih =>
    cases h with
    | load e rest =>
      obtain ⟨ys, zs, a, rfl, first, last⟩ := ih _ rest
      exact ⟨ys, zs, a, rfl, .load e first, last⟩

end Plan

namespace Resolver

/-- Whatever course it takes, a resolver makes allowed requests only, and comes to something good unless
it fails. -/
def Sends (allowed : Request → Prop) (good : α → Prop) (r : Resolver α) : Prop :=
  ∀ xs out, r.run.Takes xs out → (∀ x ∈ xs, allowed x.request) ∧ ∀ a, out = .ok a → good a

variable {allowed : Request → Prop} {good : α → Prop} {good' : β → Prop}

theorem sends_ofExcept {e : Except Fault α} (h : ∀ a, e = .ok a → good a) :
    (ofExcept e).Sends allowed good := by
  intro xs out course
  cases course
  exact ⟨List.forall_mem_nil _, h⟩

theorem sends_pure {a : α} (h : good a) : (pure a : Resolver α).Sends allowed good :=
  sends_ofExcept (e := .ok a) fun _ same => Except.ok.inj same ▸ h

theorem sends_throw {f : Fault} : (throw f : Resolver α).Sends allowed good :=
  sends_ofExcept (e := .error f) nofun

theorem sends_ask {q : Request} {good : q.Reply → Prop} (ok : allowed q)
    (h : ∀ (s : Service) (a : q.Reply), (s.answer q).1 = .ok a → good a) :
    (ask q).Sends allowed good := by
  intro xs out course
  cases course with
  | ask s rest =>
    cases rest
    exact ⟨fun x mem => List.mem_singleton.mp mem ▸ ok, h s⟩

theorem sends_load {scope : Scope} {kind : Kind} {type : EntityType} {id : String} :
    (load scope kind type id).Sends allowed fun _ => True := by
  intro xs out course
  cases course with
  | load e rest =>
    cases rest
    exact ⟨List.forall_mem_nil _, fun _ _ => trivial⟩

theorem Sends.bind {r : Resolver α} {f : α → Resolver β} (h : r.Sends allowed good)
    (rest : ∀ a, good a → (f a).Sends allowed good') : (r >>= f).Sends allowed good' := by
  intro xs out course
  obtain ⟨ys, zs, o, rfl, first, last⟩ := Plan.Takes.of_bind course
  obtain ⟨asked, come⟩ := h ys o first
  cases o with
  | error g =>
    cases last
    rw [List.append_nil]
    exact ⟨asked, nofun⟩
  | ok a =>
    obtain ⟨asked', come'⟩ := rest a (come a rfl) zs out last
    exact ⟨fun x mem => (List.mem_append.mp mem).elim (asked x) (asked' x), come'⟩

theorem Sends.attempt {r : Resolver α} (h : r.Sends allowed good) :
    r.attempt.Sends allowed fun e => ∀ a, e = .ok a → good a := by
  intro xs out course
  obtain ⟨ys, zs, o, rfl, first, last⟩ := Plan.Takes.of_bind course
  obtain ⟨asked, come⟩ := h ys o first
  cases last
  rw [List.append_nil]
  exact ⟨asked, fun e same => Except.ok.inj same ▸ come⟩

theorem sends_require {scope : Scope} {kind : Kind} {type : EntityType} {id : String} :
    (require scope kind type id).Sends allowed fun _ => True := by
  refine sends_load.bind fun e _ => ?_
  cases e with
  | none => exact sends_throw
  | some e => exact sends_pure trivial

end Resolver

end InfraGraph.Graph
