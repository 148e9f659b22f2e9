import InfraGraph.Proofs.Fault
import InfraGraph.Proofs.Graph.Conduct
import InfraGraph.Proofs.Graph.Reading

/-!
Work on terms. The terms say which codes a field may fail with, which codes the service may answer with,
and what is known of every entity that comes back. If the world keeps to them whenever it is asked
something, and resolvers keep to them as long as the world does, then whole runs keep to them: their
results have no other errors, and what is kept by single moves is kept throughout.
-/

namespace InfraGraph

namespace Graph

structure Terms where
  /-- Codes that a field may fail with. -/
  fails : FaultCode → Prop
  /-- Codes that a request may be refused with. -/
  refuses : FaultCode → Prop
  /-- What is known of entities. -/
  fine : Entity → Prop

namespace Terms

/-- What may come back from a request. A read is refused only as a field may fail. -/
def Answered (t : Terms) (q : Request) (r : Except Fault q.Reply) : Prop :=
  Ends (fun c => t.refuses c ∧ (q.isRead → t.fails c)) (fun a => ∀ e ∈ q.shown a, t.fine e) r

def Found (t : Terms) (r : Except Fault (Option Entity)) : Prop :=
  Ends t.fails (fun found => ∀ e ∈ found, t.fine e) r

def Holds (t : Terms) (ticket : Ticket Entity) : Prop :=
  ∀ e, ticket = .primed e → t.fine e

/-- What is kept by every move, while all that comes back keeps to the terms. -/
structure Upheld (t : Terms) (inv : World → Prop) : Prop where
  ask : ∀ {w : World}, inv w → ∀ q, inv (w.ask q).2 ∧ t.Answered q (w.ask q).1
  enqueue : ∀ {w : World} {kind : Kind} {type : EntityType}, inv w → Loadable kind type → ∀ id,
    ∃ ticket w', w.enqueue .request kind type id = .ok (ticket, w') ∧ inv w' ∧ t.Holds ticket
  await : ∀ {w : World} {kind : Kind} {type : EntityType} {ticket : Ticket Entity}, inv w →
    Loadable kind type → t.Holds ticket → ∀ id, inv (w.await .request kind type id ticket).2 ∧
      ∀ r, (w.await .request kind type id ticket).1 = some r → t.Found r
  tick : ∀ {w : World}, inv w → inv w.tick

end Terms

variable {t : Terms}

/-- A plan that comes to something good, and loads from the registry of the request only, as long as what
comes back keeps to the terms. -/
def Plan.Meets {α : Type} (t : Terms) (good : α → Prop) : Plan α → Prop
  | .done a => good a
  | .ask q next => ∀ r, t.Answered q r → (next r).Meets t good
  | .load scope kind type _ next =>
      scope = .request ∧ Loadable kind type ∧ ∀ r, t.Found r → (next r).Meets t good

namespace Plan

variable {α β : Type} {good : α → Prop} {good' : β → Prop}

theorem Meets.bind {p : Plan α} {f : α → Plan β} (h : p.Meets t good)
    (rest : ∀ a, good a → (f a).Meets t good') : (p.bind f).Meets t good' := by
  induction p with
  | done a => exact rest a h
  | ask q next ih => exact fun r answered => ih r (h r answered)
  | load scope kind type id next ih => exact ⟨h.1, h.2.1, fun r found => ih r (h.2.2 r found)⟩

theorem Meets.carryOut {inv : World → Prop} (upheld : t.Upheld inv) {allowed : Request → Prop}
    {leads : α → Prop} {p : Plan α} (h : p.Meets t good) (plain : p.Within allowed leads 0) {w : World}
    (now : inv w) : good (p.carryOut w.service).1 ∧ inv { w with service := (p.carryOut w.service).2 } := by
  induction p generalizing w with
  | done a => exact ⟨h, now⟩
  | ask q next ih =>
    obtain ⟨next, answered⟩ := upheld.ask now q
    exact ih _ (h _ answered) (plain.2 _) next
  | load scope kind type id next ih => exact absurd plain (by simp [Plan.Within])

end Plan

namespace Resolver

variable {α β : Type} {codes : FaultCode → Prop} {good : α → Prop} {good' : β → Prop}

def Meets (t : Terms) (codes : FaultCode → Prop) (good : α → Prop) (r : Resolver α) : Prop :=
  Plan.Meets t (Ends codes good) r.run

theorem meets_ofExcept {e : Except Fault α} (h : Ends codes good e) : (ofExcept e).Meets t codes good :=
  h

theorem meets_pure {a : α} (h : good a) : (pure a : Resolver α).Meets t codes good :=
  h

theorem meets_throw {f : Fault} (h : codes f.code) : (throw f : Resolver α).Meets t codes good :=
  h

theorem Meets.bind {r : Resolver α} {f : α → Resolver β} (h : r.Meets t codes good)
    (rest : ∀ a, good a → (f a).Meets t codes good') : (r >>= f).Meets t codes good' := by
  refine Plan.Meets.bind h fun o ends => ?_
  cases o with
  | error f => exact ends
  | ok a => exact rest a ends

theorem Meets.attempt {codes' : FaultCode → Prop} {r : Resolver α} (h : r.Meets t codes good) :
    r.attempt.Meets t codes' (Ends codes good) :=
  Plan.Meets.bind h fun _ ends => ends

theorem meets_ask (q : Request) : (ask q).Meets t t.refuses fun a => ∀ e ∈ q.shown a, t.fine e := by
  intro r answered
  cases r with
  | error f => exact answered.1
  | ok a => exact answered

theorem meets_read {q : Request} (read : q.isRead) :
    (ask q).Meets t t.fails fun a => ∀ e ∈ q.shown a, t.fine e := by
  intro r answered
  cases r with
  | error f => exact answered.2 read
  | ok a => exact answered

theorem meets_load {kind : Kind} {type : EntityType} (id : String) (loadable : Loadable kind type) :
    (load .request kind type id).Meets t t.fails fun found => ∀ e ∈ found, t.fine e :=
  ⟨rfl, loadable, fun _ found => found⟩

theorem meets_require {kind : Kind} {type : EntityType} (id : String) (loadable : Loadable kind type)
    (missing : t.fails .notFound) : (require .request kind type id).Meets t t.fails t.fine := by
  refine (meets_load id loadable).bind fun found fine => ?_
  cases found with
  | none => exact meets_throw missing
  | some e => exact meets_pure (fine e rfl)

end Resolver

def Schema.Meets {ν : Type} (s : Schema ν) (t : Terms) (P : ν → Prop) : Prop :=
  ∀ n, P n → ∀ name args, (s.resolve n name args).Meets t t.fails (Outcome.Leads P)

inductive Work.Meets (t : Terms) : Work → Prop
  | value (v : Value) : Work.Meets t (.value v)
  | failed {f : Fault} (code : t.fails f.code) : Work.Meets t (.failed f)
  | ask {q : Request} {next : Except Fault q.Reply → Work}
      (goes : ∀ r, t.Answered q r → Work.Meets t (next r)) : Work.Meets t (.ask q next)
  | load {kind : Kind} {type : EntityType} {id : String} {next : Except Fault (Option Entity) → Work}
      (loadable : Loadable kind type) (goes : ∀ r, t.Found r → Work.Meets t (next r)) :
      Work.Meets t (.load .request kind type id next)
  | waiting {kind : Kind} {type : EntityType} {id : String} {ticket : Ticket Entity}
      {next : Except Fault (Option Entity) → Work} (loadable : Loadable kind type)
      (holds : t.Holds ticket) (goes : ∀ r, t.Found r → Work.Meets t (next r)) :
      Work.Meets t (.waiting .request kind type id ticket next)
  | parts {assembly : Assembly} {works : List Work} (each : ∀ u ∈ works, Work.Meets t u) :
      Work.Meets t (.parts assembly works)

namespace Work

theorem Meets.ofPlan {α : Type} {good : α → Prop} {next : α → Work} {p : Plan α} (h : p.Meets t good)
    (rest : ∀ a, good a → (next a).Meets t) : (ofPlan next p).Meets t := by
  induction p with
  | done a => exact rest a h
  | ask q k ih => exact .ask fun r answered => ih r (h r answered)
  | load scope kind type id k ih =>
    obtain ⟨rfl, loadable, h⟩ := h
    exact .load loadable fun r found => ih r (h r found)

theorem Meets.object {fields : List (String × Work)} (h : ∀ f ∈ fields, f.2.Meets t) :
    (object fields).Meets t :=
  .parts fun u mem => by
    obtain ⟨f, here, rfl⟩ := List.mem_map.mp mem
    exact h f here

section Selections

variable {ν : Type} {s : Schema ν} {P : ν → Prop}

theorem Meets.ofOutcome {inner : String → ν → List (String × Work)}
    (h : ∀ position m, P m → ∀ f ∈ inner position m, f.2.Meets t) {o : Except Fault (Outcome ν)}
    (leads : Ends t.fails (Outcome.Leads P) o) : (ofOutcome s inner o).Meets t := by
  match o with
  | .error f => exact .failed leads
  | .ok (.value v) => exact .value v
  | .ok (.node m) => exact .object (h _ m leads)
  | .ok (.oneOf _ m) => exact .object (h _ m leads)
  | .ok (.nodes ms) =>
    refine .parts fun u mem => ?_
    obtain ⟨m, here, rfl⟩ := List.mem_map.mp mem
    exact .object (h _ m (leads m here))

mutual

theorem meets_ofSelection (meets : s.Meets t P) : ∀ (sel : Selection) (position : String) (n : ν), P n →
    ∀ f ∈ ofSelection s sel position n, f.2.Meets t
  | .field key name args inner, position, n, good, f, mem => by
    unfold ofSelection at mem
    split at mem
    · obtain rfl := List.mem_singleton.mp mem
      exact .value _
    · obtain rfl := List.mem_singleton.mp mem
      exact .ofPlan (meets n good name args) fun o leads => .ofOutcome (meets_ofSelections meets inner) leads
  | .fragment type inner, position, n, good, f, mem => by
    unfold ofSelection at mem
    split at mem
    · exact meets_ofSelections meets inner type n good f mem
    · split at mem
      · exact meets_ofSelections meets inner position n good f mem
      · simp at mem

theorem meets_ofSelections (meets : s.Meets t P) : ∀ (sels : List Selection) (position : String) (n : ν),
    P n → ∀ f ∈ ofSelections s sels position n, f.2.Meets t
  | [], _, _, _, f, mem => by simp [ofSelections] at mem
  | sel :: sels, position, n, good, f, mem => by
    unfold ofSelections at mem
    rcases List.mem_append.mp mem with mem | mem
    · exact meets_ofSelection meets sel position n good f mem
    · exact meets_ofSelections meets sels position n good f mem

end

end Selections

section Runs

variable {inv : World → Prop}

theorem passAll_meets {us : List Work}
    (pass : ∀ u ∈ us, ∀ {w : World}, inv w → (u.pass w).1.Meets t ∧ inv (u.pass w).2) {w : World}
    (now : inv w) : (∀ u ∈ (passAll us w).1, u.Meets t) ∧ inv (passAll us w).2 := by
  induction us generalizing w with
  | nil => exact ⟨by simp [passAll], now⟩
  | cons u us ih =>
    obtain ⟨first, next⟩ := pass u (by simp) now
    obtain ⟨rest, last⟩ := ih (fun u mem => pass u (List.mem_cons_of_mem _ mem)) next
    simp only [passAll]
    exact ⟨by simpa using ⟨first, rest⟩, last⟩

theorem pass_await (upheld : t.Upheld inv) {kind : Kind} (id : String) {ticket : Ticket Entity}
    {next : Except Fault (Option Entity) → Work} (loadable : Loadable kind type)
    (holds : t.Holds ticket) (goes : ∀ r, t.Found r → (next r).Meets t)
    (ih : ∀ r, (next r).Meets t → ∀ {w : World}, inv w →
      ((next r).pass w).1.Meets t ∧ inv ((next r).pass w).2) {w : World} (now : inv w) :
    ((waiting .request kind type id ticket next).pass w).1.Meets t ∧
      inv ((waiting .request kind type id ticket next).pass w).2 := by
  obtain ⟨later, found⟩ := upheld.await now loadable holds id
  simp only [pass]
  generalize w.await .request kind type id ticket = out at later found
  obtain ⟨result, w'⟩ := out
  cases result with
  | none => exact ⟨.waiting loadable holds goes, later⟩
  | some r => exact ih r (goes r (found r rfl)) later

theorem Meets.pass (upheld : t.Upheld inv) {u : Work} (h : u.Meets t) {w : World} (now : inv w) :
    (u.pass w).1.Meets t ∧ inv (u.pass w).2 := by
  induction u using Work.induction generalizing w with
  | value _ => exact ⟨h, now⟩
  | failed _ => exact ⟨h, now⟩
  | ask q next ih =>
    cases h with
    | ask goes =>
      obtain ⟨later, answered⟩ := upheld.ask now q
      exact ih _ (goes _ answered) later
  | load scope kind type id next ih =>
    cases h with
    | load loadable goes =>
      obtain ⟨ticket, w', run, later, holds⟩ := upheld.enqueue now loadable id
      have awaited := pass_await upheld id loadable holds goes (fun r m => ih r m) later
      simpa only [Work.pass, run] using awaited
  | waiting scope kind type id ticket next ih =>
    cases h with
    | waiting loadable holds goes => exact pass_await upheld id loadable holds goes (fun r m => ih r m) now
  | parts assembly works ih =>
    cases h with
    | parts each =>
      obtain ⟨all, later⟩ := passAll_meets (fun u mem => ih u mem (each u mem)) now
      exact ⟨.parts all, later⟩

theorem Meets.finish (upheld : t.Upheld inv) (fuel : Nat) {u : Work} (h : u.Meets t) {w : World}
    (now : inv w) : (u.finish fuel w).1.Meets t ∧ inv (u.finish fuel w).2 := by
  induction fuel generalizing u w with
  | zero => exact ⟨h, now⟩
  | succ fuel ih =>
    unfold Work.finish
    split
    · exact ⟨h, now⟩
    · obtain ⟨first, later⟩ := h.pass upheld (upheld.tick now)
      exact ih first later

theorem Meets.run (upheld : t.Upheld inv) (depth : Nat) {u : Work} (h : u.Meets t) {w : World}
    (now : inv w) : (u.run depth w).1.Meets t ∧ inv (u.run depth w).2 := by
  obtain ⟨first, later⟩ := h.pass upheld now
  exact first.finish upheld depth later

end Runs

theorem mem_results {P : FieldError → Prop} {us : List Work}
    (each : ∀ u ∈ us, ∀ path, ∀ e ∈ (u.result path).errors, P e) (path steps : List Segment) :
    ∀ r ∈ results path steps us, ∀ e ∈ r.errors, P e := by
  induction us generalizing steps with
  | nil => cases steps <;> simp [results]
  | cons u us ih =>
    cases steps with
    | nil => simp [results]
    | cons step steps =>
      intro r mem
      rcases List.mem_cons.mp mem with rfl | later
      · exact each u (by simp) _
      · exact ih (fun u mem => each u (List.mem_cons_of_mem _ mem)) steps r later

theorem Meets.result {u : Work} (h : u.Meets t) (path : List Segment) :
    ∀ e ∈ (u.result path).errors, t.fails e.fault.code := by
  induction u using Work.induction generalizing path with
  | failed f =>
    cases h with
    | failed code => simpa [Work.result] using code
  | parts assembly works ih =>
    cases h with
    | parts each =>
      have all := mem_results (fun u mem path => ih u mem (each u mem) path) path
        (segments works assembly)
      cases assembly <;> simpa [Work.result, assemble] using fun e r mem => all r mem e
  | _ => simp [Work.result]

end Work

end Graph

end InfraGraph
