import InfraGraph.Proofs.Graph.Reading

/-!
One pass over work as a row of moves. Work that only reads, and that has at most so many loads one after
another, waits for the first of them after a pass; when its batches are due, the next pass gets it to
the second. So with as many passes as loads the work is finished.
-/

namespace InfraGraph.Graph

open Loader (Begun Ripe)
open World (Awaited Enqueued Evolves)

namespace Work

/-- Work that has not begun, only reads, and loads at most so many entities one after another. -/
inductive Fresh : Nat → Work → Prop
  | value (n : Nat) (v : Value) : Fresh n (value v)
  | failed (n : Nat) (f : Fault) : Fresh n (failed f)
  | ask {n : Nat} {q : Request} {next : Except Fault q.Reply → Work} (read : q.isRead)
      (more : ∀ r, Fresh n (next r)) : Fresh n (ask q next)
  | load {n : Nat} {scope : Scope} {kind : Kind} {type : EntityType} {id : String}
      {next : Except Fault (Option Entity) → Work} (loadable : Loadable kind type)
      (more : ∀ r, Fresh n (next r)) : Fresh (n + 1) (load scope kind type id next)
  | parts {n : Nat} {assembly : Assembly} {works : List Work} (each : ∀ t ∈ works, Fresh n t) :
      Fresh n (parts assembly works)

theorem Fresh.mono {n m : Nat} {t : Work} (h : Fresh n t) (le : n ≤ m) : Fresh m t := by
  induction h generalizing m with
  | value _ v => exact .value m v
  | failed _ f => exact .failed m f
  | ask read _ ih => exact .ask read fun r => ih r le
  | load loadable _ ih =>
    obtain ⟨m, rfl⟩ := Nat.exists_eq_add_of_le' (Nat.le_of_add_left_le le)
    exact .load loadable fun r => ih r (Nat.le_of_add_le_add_right le)
  | parts _ ih => exact .parts fun t mem => ih t mem le

/-- Work that stands still until a batch is answered that has begun. -/
inductive Paused (w : World) : Nat → Work → Prop
  | value (n : Nat) (v : Value) : Paused w n (value v)
  | failed (n : Nat) (f : Fault) : Paused w n (failed f)
  | waiting {n : Nat} {scope : Scope} {kind : Kind} {type : EntityType} {id : String} {i : Nat}
      {next : Except Fault (Option Entity) → Work} (loadable : Loadable kind type)
      (held : w.ticket? ⟨scope, kind, id⟩ = some (.batch i)) (begun : Begun (w.loader scope kind) i)
      (more : ∀ r, Fresh n (next r)) : Paused w (n + 1) (waiting scope kind type id (.batch i) next)
  | parts {n : Nat} {assembly : Assembly} {works : List Work} (each : ∀ t ∈ works, Paused w n t) :
      Paused w n (parts assembly works)

/-- Work that can go on: it is fresh, or the batches that it waits for are due. -/
inductive Ready (w : World) : Nat → Work → Prop
  | fresh {n : Nat} {t : Work} (h : Fresh n t) : Ready w n t
  | waiting {n : Nat} {scope : Scope} {kind : Kind} {type : EntityType} {id : String} {i : Nat}
      {next : Except Fault (Option Entity) → Work} (loadable : Loadable kind type)
      (held : w.ticket? ⟨scope, kind, id⟩ = some (.batch i)) (ripe : Ripe w.now (w.loader scope kind) i)
      (more : ∀ r, Fresh n (next r)) : Ready w n (waiting scope kind type id (.batch i) next)
  | parts {n : Nat} {assembly : Assembly} {works : List Work} (each : ∀ t ∈ works, Ready w n t) :
      Ready w n (parts assembly works)

theorem Paused.evolve {w w' : World} {n : Nat} {t : Work} (h : Paused w n t) (e : Evolves w w') :
    Paused w' n t := by
  induction h with
  | value n v => exact .value n v
  | failed n f => exact .failed n f
  | waiting loadable held begun more =>
    exact .waiting loadable (e.ticket _ _ held) ((e.later _ _).begun begun) more
  | parts _ ih => exact .parts ih

theorem Paused.mono {w : World} {n m : Nat} {t : Work} (h : Paused w n t) (le : n ≤ m) :
    Paused w m t := by
  induction h generalizing m with
  | value _ v => exact .value m v
  | failed _ f => exact .failed m f
  | waiting loadable held begun more =>
    obtain ⟨m, rfl⟩ := Nat.exists_eq_add_of_le' (Nat.le_of_add_left_le le)
    exact .waiting loadable held begun fun r => (more r).mono (Nat.le_of_add_le_add_right le)
  | parts _ ih => exact .parts fun t mem => ih t mem le

theorem Paused.ready {w : World} {n : Nat} {t : Work} (sound : w.Sound) (h : Paused w (n + 1) t) :
    Ready w.tick n t := by
  generalize same : n + 1 = m at h
  induction h with
  | value _ v => exact .fresh (.value n v)
  | failed _ f => exact .fresh (.failed n f)
  | waiting loadable held begun more =>
    obtain rfl := Nat.succ.inj same
    exact .waiting loadable held ((sound.timely _ _).ripe begun) more
  | parts _ ih => exact .parts fun t mem => ih t mem same

theorem Paused.isFinished {w : World} {t : Work} (h : Paused w 0 t) : t.isFinished := by
  generalize same : 0 = m at h
  induction h with
  | value _ v => rfl
  | failed _ f => rfl
  | waiting _ _ _ _ => simp at same
  | parts _ ih => exact areFinished_iff.mpr fun t mem => ih t mem same

/-- What one pass does, move by move. -/
inductive Passes : List Work → World → List Work → World → Prop
  | nil (w : World) : Passes [] w [] w
  | cons {t t' : Work} {ts ts' : List Work} {w w₁ w' : World} (first : Passes [t] w [t'] w₁)
      (rest : Passes ts w₁ ts' w') : Passes (t :: ts) w (t' :: ts') w'
  | value (v : Value) (w : World) : Passes [value v] w [value v] w
  | failed (f : Fault) (w : World) : Passes [failed f] w [failed f] w
  | ask {q : Request} {next : Except Fault q.Reply → Work} {us : List Work} {w w' : World}
      (read : q.isRead) (rest : Passes [next (w.ask q).1] (w.ask q).2 us w') :
      Passes [ask q next] w us w'
  | load {scope : Scope} {kind : Kind} {type : EntityType} {id : String} {ticket : Ticket Entity}
      {next : Except Fault (Option Entity) → Work} {us : List Work} {w w₁ w' : World}
      (enqueued : Enqueued w ⟨scope, kind, id⟩ type ticket w₁)
      (rest : Passes [waiting scope kind type id ticket next] w₁ us w') :
      Passes [load scope kind type id next] w us w'
  | wait {scope : Scope} {kind : Kind} {type : EntityType} {id : String} {ticket : Ticket Entity}
      {next : Except Fault (Option Entity) → Work} {w w' : World}
      (awaited : Awaited w ⟨scope, kind, id⟩ type ticket none w') :
      Passes [waiting scope kind type id ticket next] w [waiting scope kind type id ticket next] w'
  | take {scope : Scope} {kind : Kind} {type : EntityType} {id : String} {ticket : Ticket Entity}
      {answer : Except Fault (Option Entity)} {next : Except Fault (Option Entity) → Work}
      {us : List Work} {w w₁ w' : World} (held : w.ticket? ⟨scope, kind, id⟩ = some ticket)
      (awaited : Awaited w ⟨scope, kind, id⟩ type ticket (some answer) w₁)
      (rest : Passes [next answer] w₁ us w') :
      Passes [waiting scope kind type id ticket next] w us w'
  | parts {assembly : Assembly} {works works' : List Work} {w w' : World}
      (inside : Passes works w works' w') :
      Passes [parts assembly works] w [parts assembly works'] w'

theorem Passes.evolves {ts ts' : List Work} {w w' : World} (p : Passes ts w ts' w')
    (sound : w.Sound) : Evolves w w' := by
  induction p with
  | nil _ => exact .refl sound
  | cons _ _ ih ih' =>
    have first := ih sound
    exact first.trans (ih' first.sound)
  | value _ _ => exact .refl sound
  | failed _ _ => exact .refl sound
  | ask read _ ih =>
    have first := sound.evolves_ask read
    exact first.trans (ih first.sound)
  | load enqueued _ ih => exact enqueued.evolves.trans (ih enqueued.evolves.sound)
  | wait awaited => exact awaited.evolves
  | take _ awaited _ ih => exact awaited.evolves.trans (ih awaited.evolves.sound)
  | parts _ ih => exact ih sound

structure Passed (n : Nat) (t : Work) (w : World) : Prop where
  passes : Passes [t] w [(t.pass w).1] (t.pass w).2
  paused : Paused (t.pass w).2 n (t.pass w).1

theorem passAll_passes {n : Nat} {works : List Work} {w : World} (sound : w.Sound)
    (each : ∀ t ∈ works, ∀ w', Evolves w w' → Passed n t w') :
    Passes works w (passAll works w).1 (passAll works w).2 ∧
      ∀ t ∈ (passAll works w).1, Paused (passAll works w).2 n t := by
  induction works generalizing w with
  | nil => exact ⟨.nil w, by simp [passAll]⟩
  | cons t ts ih =>
    have first := each t (by simp) w (.refl sound)
    have past := first.passes.evolves sound
    obtain ⟨rest, paused⟩ := ih past.sound fun t mem w' e =>
      each t (List.mem_cons_of_mem _ mem) w' (past.trans e)
    simp only [passAll]
    refine ⟨.cons first.passes rest, fun u mem => ?_⟩
    rcases List.mem_cons.mp mem with rfl | mem
    · exact first.paused.evolve (rest.evolves past.sound)
    · exact paused u mem

theorem passed_parts {n : Nat} {assembly : Assembly} {works : List Work} {w : World} (sound : w.Sound)
    (each : ∀ t ∈ works, ∀ w', Evolves w w' → Passed n t w') : Passed n (parts assembly works) w := by
  obtain ⟨passes, paused⟩ := passAll_passes sound each
  exact ⟨by simpa only [pass] using Passes.parts passes, by simpa only [pass] using Paused.parts paused⟩

theorem Fresh.passed {n : Nat} {t : Work} (h : Fresh n t) {w : World} (sound : w.Sound) :
    Passed n t w := by
  induction h generalizing w with
  | value n v => exact ⟨.value v w, .value n v⟩
  | failed n f => exact ⟨.failed f w, .failed n f⟩
  | ask read _ ih =>
    have next := ih (w.ask _).1 (sound.evolves_ask read).sound
    exact ⟨.ask read next.passes, next.paused⟩
  | @load n scope kind type id next loadable more ih =>
    obtain ⟨ticket, w₁, enqueued⟩ := sound.enqueued (x := ⟨scope, kind, id⟩) loadable
    obtain ⟨result, w₂, awaited⟩ := enqueued.evolves.sound.awaited loadable enqueued.held
    have enqueue := enqueued.run
    have await := awaited.run
    dsimp only at enqueue await
    cases result with
    | none =>
      obtain ⟨i, rfl, begun, -⟩ := awaited.waits rfl
      have held := awaited.evolves.ticket _ _ enqueued.held
      constructor
      · simpa only [pass, enqueue, await] using Passes.load enqueued (.wait awaited)
      · simpa only [pass, enqueue, await] using Paused.waiting loadable held begun more
    | some answer =>
      have rest := ih answer awaited.evolves.sound
      constructor
      · simpa only [pass, enqueue, await] using
          Passes.load enqueued (.take enqueued.held awaited rest.passes)
      · simpa only [pass, enqueue, await] using rest.paused.mono (Nat.le_succ n)
  | parts _ ih => exact passed_parts sound fun t mem w' e => ih t mem e.sound

theorem Ready.passed {n : Nat} {t : Work} {w : World} (h : Ready w n t) {w' : World}
    (e : Evolves w w') : Passed n t w' := by
  induction h generalizing w' with
  | fresh h => exact h.passed e.sound
  | @waiting scope kind type id i next loadable held ripe more =>
    have held' := e.ticket _ _ held
    have ripe' : Ripe w'.now (w'.loader scope kind) i := ((e.later _ _).ripe ripe).mono e.now_le
    obtain ⟨result, w₁, awaited⟩ := e.sound.awaited loadable held'
    have await := awaited.run
    dsimp only at await
    cases result with
    | none =>
      obtain ⟨j, same, -, raw⟩ := awaited.waits rfl
      obtain rfl := Ticket.batch.inj same
      exact absurd ripe' raw
    | some answer =>
      have rest := (more answer).passed awaited.evolves.sound
      constructor
      · simpa only [pass, await] using Passes.take held' awaited rest.passes
      · simpa only [pass, await] using rest.paused
  | parts _ ih => exact passed_parts e.sound fun t mem w₁ e₁ => ih t mem (e.trans e₁)

end Work

end InfraGraph.Graph
