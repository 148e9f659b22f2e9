import InfraGraph.Proofs.Loader.Assignment
import InfraGraph.Proofs.Loader.Interleaving

/-!
Calls to the backend in a history of a loader. A batch is called for once, when it is closed, with all
its keys, and what an operation takes from a batch comes after its call. Since a key belongs to one batch
only, no key is ever sent twice.
-/

namespace InfraGraph.Loader

variable {κ ν : Type}

/-- The keys that the backend was called with for a batch, if it was. -/
def callAt (l : Loader κ ν) (i : Nat) : Option (List κ) :=
  l.batches[i]?.bind fun b => if b.isGathering then none else some b.keys

theorem callAt_of_gathering {l : Loader κ ν} {i : Nat} {keys : List κ} {due : Option Nat}
    (h : l.batches[i]? = some ⟨keys, .gathering due⟩) : l.callAt i = none := by
  simp [callAt, h, Batch.isGathering]

theorem callAt_eq_some {l : Loader κ ν} {i : Nat} {keys : List κ} (h : l.callAt i = some keys) :
    ∃ b, l.batches[i]? = some b ∧ b.keys = keys := by
  obtain ⟨b, hb, hk⟩ := Option.bind_eq_some_iff.mp h
  split at hk
  · simp at hk
  · exact ⟨b, hb, by simpa using hk⟩

theorem Enters.callAt_eq {l l' : Loader κ ν} {k : κ} {i : Nat} {t : Ticket ν}
    (e : Enters l k i t l') (j : Nat) : l'.callAt j = l.callAt j := by
  by_cases hj : j = i
  · subst hj
    obtain ⟨due, hi, before⟩ := e.here
    rw [callAt_of_gathering hi]
    rcases before with ⟨none, _⟩ | ⟨some, _⟩
    · simp [callAt, none]
    · exact (callAt_of_gathering some).symm
  · simp only [callAt, e.other j hj]

theorem setStage_callAt {l : Loader κ ν} {i : Nat} {b : Batch κ ν} (stage : Batch.Stage κ ν)
    (h : l.batches[i]? = some b) (j : Nat) :
    (l.setStage i stage).callAt j =
      if j = i then (if Batch.isGathering ⟨b.keys, stage⟩ then none else some b.keys)
      else l.callAt j := by
  split
  · next eq => subst eq; simp [callAt, setStage_here stage h]
  · next ne => simp [callAt, setStage_getElem?, Ne.symm ne]

def Running.tickets : Running κ ν → List (κ × Ticket ν)
  | finished _ => []
  | loading key ticket => [(key, ticket)]
  | gathering rest _ => rest

def Phase.tickets : Phase κ ν → List (κ × Ticket ν)
  | enqueuing drawn _ => drawn
  | running r => r.tickets

theorem Running.next?_mem {r : Running κ ν} {p : κ × Ticket ν} (h : r.next? = some p) :
    p ∈ r.tickets := by
  cases r with
  | finished _ => simp [next?] at h
  | loading k t => simpa [next?, tickets, eq_comm] using h
  | gathering rest found => exact List.mem_of_head? h

theorem Running.take_tickets (r : Running κ ν) (answer : Except Fault (Option ν)) :
    ∀ p ∈ (r.take answer).tickets, p ∈ r.tickets := by
  intro p hp
  cases r with
  | finished _ => exact hp
  | loading k t => simp [take, tickets] at hp
  | gathering rest found =>
    cases rest with
    | nil => exact hp
    | cons head rest =>
      rcases answer with f | _ | v
      · simp [take, tickets] at hp
      · exact List.mem_cons_of_mem _ hp
      · exact List.mem_cons_of_mem _ hp

section Steps

variable [DecidableEq κ]

namespace Change

variable {l l' : Loader κ ν} {e : Event κ ν}

theorem assigned (c : Change l e l') (a : Assigned l) : Assigned l' := by
  cases c with
  | quiet _ => exact a
  | enqueue _ k => exact a.enqueue k
  | prime k v => exact a.prime k v
  | start _ _ => exact a.setStage _ _
  | send _ => exact a.setStage _ _
  | answer _ _ => exact a.setStage _ _

theorem capacity (c : Change l e l') : l'.capacity = l.capacity := by
  cases c with
  | enqueue _ k =>
    exact enqueue_induction (P := fun l' => l'.capacity = l.capacity) rfl fun _ _ _ _ e => e.capacity
  | _ => rfl

theorem delay (c : Change l e l') : l'.delay = l.delay := by
  cases c with
  | enqueue _ k => exact enqueue_induction (P := fun l' => l'.delay = l.delay) rfl fun _ _ _ _ e => e.delay
  | _ => rfl

theorem keysAt_mono (c : Change l e l') {i : Nat} {k : κ} (h : k ∈ l.keysAt i) : k ∈ l'.keysAt i := by
  cases c with
  | quiet _ => exact h
  | enqueue _ x =>
    exact enqueue_induction (P := fun l' => k ∈ l'.keysAt i) h fun _ _ _ _ e => e.mem_keysAt.mpr (.inl h)
  | prime _ _ => exact h
  | start _ _ => simpa using h
  | send _ => simpa using h
  | answer _ _ => simpa using h

/-- Only a call changes what was called for, and it is the first of its batch. -/
theorem callAt_eq (c : Change l e l') (j : Nat) :
    l'.callAt j = match e with
      | .sent i keys => if j = i then some keys else l.callAt j
      | _ => l.callAt j := by
  cases c with
  | quiet h =>
    cases e with
    | sent _ _ => simp [Event.isQuiet] at h
    | _ => rfl
  | enqueue _ k =>
    exact enqueue_induction (P := fun l' => l'.callAt j = l.callAt j) rfl fun _ _ _ _ e => e.callAt_eq j
  | prime _ _ => rfl
  | start now h =>
    rw [setStage_callAt _ h]
    split
    · next eq => rw [eq, callAt_of_gathering h]; rfl
    · rfl
  | send h => rw [setStage_callAt _ h]; rfl
  | answer _ h =>
    rw [setStage_callAt _ h]
    split
    · next eq => simp [eq, callAt, h, Batch.isGathering]
    · rfl

theorem callAt_of_sent {i : Nat} {keys : List κ} (c : Change l (.sent i keys) l') :
    l.callAt i = none := by
  cases c with
  | quiet h => simp [Event.isQuiet] at h
  | send h => exact callAt_of_gathering h

theorem primed_of_ticket? (c : Change l e l') {k : κ} {v : ν}
    (h : l'.ticket? k = some (.primed v)) : l.ticket? k = some (.primed v) ∨ e = .primed k v := by
  cases c with
  | quiet _ => exact .inl h
  | enqueue _ x =>
    cases hx : l.ticket? x with
    | some t => rw [enqueue_of_ticket hx] at h; exact .inl h
    | none =>
      obtain ⟨i, en⟩ := enqueue_enters hx
      rw [en.ticket?_eq] at h
      split at h
      · simp at h
      · exact .inl h
  | prime x u =>
    rw [prime_ticket?] at h
    split at h
    · next eq =>
      subst eq
      simp only [Option.some.injEq, Ticket.primed.injEq] at h
      exact .inr (by rw [h])
    · exact .inl h
  | start _ _ => exact .inl h
  | send _ => exact .inl h
  | answer _ _ => exact .inl h

end Change

/-- A ticket that was given out for a key: a value that the key was primed with, or a batch that holds
the key. -/
def Drawn (h : List (Event κ ν)) (l : Loader κ ν) (k : κ) : Ticket ν → Prop
  | .primed v => .primed k v ∈ h
  | .batch i => k ∈ l.keysAt i

theorem Drawn.after {h : List (Event κ ν)} {l l' : Loader κ ν} {k : κ} {t : Ticket ν} {e : Event κ ν}
    (d : Drawn h l k t) (c : Change l e l') : Drawn (h ++ [e]) l' k t := by
  cases t with
  | primed v => exact List.mem_append_left _ d
  | batch i => exact c.keysAt_mono d

omit [DecidableEq κ] in
theorem callAt_of_read {l : Loader κ ν} {k : κ} {i : Nat} {answer : Except Fault (Option ν)}
    (h : l.read k (.batch i) = some answer) : ∃ keys, l.callAt i = some keys := by
  simp only [read] at h
  split at h
  · next keys _ hb => exact ⟨keys, by simp [callAt, hb, Batch.isGathering]⟩
  · simp at h

theorem Step.tickets {w w' : Traffic κ ν} {e : Event κ ν} (step : Step w e w') {i : Nat}
    {task : Task κ ν} (here : w'.tasks[i]? = some task) {p : κ × Ticket ν}
    (hp : p ∈ task.phase.tickets) :
    (∃ task, w.tasks[i]? = some task ∧ p ∈ task.phase.tickets) ∨ e = .drew i p.1 p.2 := by
  rcases step.progress here with ⟨old, _⟩ | progress
  · exact .inl ⟨task, old, hp⟩
  · generalize before : w.tasks[i]? = earlier at progress
    cases progress with
    | load k _ =>
      obtain rfl := List.mem_singleton.mp hp
      exact .inr rfl
    | loadMany _ => simp [Phase.tickets] at hp
    | enqueue =>
      rcases List.mem_append.mp hp with old | new
      · exact .inl ⟨_, rfl, old⟩
      · obtain rfl := List.mem_singleton.mp new
        exact .inr rfl
    | await => exact .inl ⟨_, rfl, hp⟩
    | take _ _ => exact .inl ⟨_, rfl, Running.take_tickets _ _ p hp⟩
    | finish => simp [Phase.tickets, Running.tickets] at hp
    | drop => simp [Phase.tickets, Running.tickets] at hp
    | prime _ _ => simp [Phase.tickets, Running.tickets] at hp

theorem Step.drew {w w' : Traffic κ ν} {i : Nat} {k : κ} {t : Ticket ν}
    (step : Step w (.drew i k t) w') : w'.loader.ticket? k = some t := by
  cases step with
  | load _ _ => exact enqueue_ticket? _ _
  | enqueue _ => exact enqueue_ticket? _ _

theorem Step.took {w w' : Traffic κ ν} {i : Nat} {k : κ} {t : Ticket ν}
    {answer : Except Fault (Option ν)} (step : Step w (.took i k t answer) w') :
    (∃ task, w.tasks[i]? = some task ∧ (k, t) ∈ task.phase.tickets) ∧
      w'.loader.read k t = some answer := by
  cases step with
  | take here next read => exact ⟨⟨_, here, Running.next?_mem next⟩, read⟩

def Task.Traced (h : List (Event κ ν)) (i : Nat) : Task κ ν → Prop
  | ⟨o, .running (.loading k _)⟩ => o = .load k ∨ o = .abandon k
  | ⟨o, .running (.finished (.loaded answer))⟩ =>
      ∃ k t, (o = .load k ∨ o = .abandon k) ∧ .took i k t answer ∈ h
  | _ => True

omit [DecidableEq κ] in
theorem Task.Traced.after {h : List (Event κ ν)} {i : Nat} {task : Task κ ν} (t : task.Traced h i)
    (e : Event κ ν) : task.Traced (h ++ [e]) i := by
  unfold Traced at t ⊢
  split
  · exact t
  · obtain ⟨k, ticket, single, mem⟩ := t
    exact ⟨k, ticket, single, List.mem_append_left _ mem⟩
  · trivial

theorem Progress.traced {l : Loader κ ν} {i : Nat} {e : Event κ ν} {before : Option (Task κ ν)}
    {task : Task κ ν} (p : Progress l i e before task) {h : List (Event κ ν)}
    (old : ∀ earlier, before = some earlier → earlier.Traced h i) : task.Traced (h ++ [e]) i := by
  cases p with
  | load k single => exact single
  | @take o r k t answer next read =>
    have traced := old _ rfl
    cases r with
    | finished _ => simp [Running.next?] at next
    | loading k' t' =>
      obtain ⟨rfl, rfl⟩ : k' = k ∧ t' = t := by simpa [Running.next?] using next
      exact ⟨k', t', traced, by simp⟩
    | gathering rest found =>
      cases rest with
      | nil => simp [Running.next?] at next
      | cons p rest => rcases answer with f | _ | v <;> trivial
  | _ => trivial

structure Dispatched (h : List (Event κ ν)) (w : Traffic κ ν) : Prop where
  assigned : Assigned w.loader
  called : ∀ i keys, (i, keys) ∈ calls h ↔ w.loader.callAt i = some keys
  once : ((calls h).map Prod.fst).Nodup
  cached : ∀ k v, w.loader.ticket? k = some (.primed v) → .primed k v ∈ h
  held : ∀ task ∈ w.tasks, ∀ p ∈ task.phase.tickets, Drawn h w.loader p.1 p.2
  taken : ∀ i k t answer, .took i k t answer ∈ h → Drawn h w.loader k t ∧
    (∀ v, t = .primed v → answer = .ok (some v)) ∧
    (∀ b, t = .batch b → ∃ keys, w.loader.callAt b = some keys)

namespace Dispatched

theorem new (s : LoaderSettings) : Dispatched [] (⟨Loader.new s, []⟩ : Traffic κ ν) where
  assigned := assigned_new s
  called i keys := by simp [calls, callAt, Loader.new]
  once := List.nodup_nil
  cached k v := by simp [ticket?, Loader.new]
  held := by simp
  taken := by simp

variable {w w' : Traffic κ ν} {h : List (Event κ ν)} {e : Event κ ν}

theorem called_step (d : Dispatched h w) (step : Step w e w') (i : Nat) (keys : List κ) :
    (i, keys) ∈ calls (h ++ [e]) ↔ w'.loader.callAt i = some keys := by
  rw [calls_append, List.mem_append, d.called, step.change.callAt_eq]
  cases e with
  | sent j js =>
    have fresh : w.loader.callAt j = none := step.change.callAt_of_sent
    by_cases hi : i = j
    · subst hi; simp [calls, fresh, eq_comm]
    · simp [calls, hi]
  | _ => simp [calls]

theorem once_step (d : Dispatched h w) (step : Step w e w') :
    ((calls (h ++ [e])).map Prod.fst).Nodup := by
  rw [calls_append, List.map_append]
  cases e with
  | sent j js =>
    have fresh : w.loader.callAt j = none := step.change.callAt_of_sent
    refine List.nodup_append.mpr ⟨d.once, by simp [calls], ?_⟩
    rintro a ha b hb rfl
    obtain ⟨⟨i, keys⟩, hc, rfl⟩ := List.mem_map.mp ha
    have called := (d.called i keys).mp hc
    simp only [calls, List.map_cons, List.map_nil, List.mem_singleton] at hb
    rw [hb, fresh] at called
    exact absurd called (by simp)
  | _ => simpa [calls] using d.once

theorem cached_step (d : Dispatched h w) (step : Step w e w') (k : κ) (v : ν)
    (hk : w'.loader.ticket? k = some (.primed v)) : .primed k v ∈ h ++ [e] := by
  rcases step.change.primed_of_ticket? hk with old | rfl
  · exact List.mem_append_left _ (d.cached k v old)
  · simp

theorem held_step (d : Dispatched h w) (step : Step w e w') :
    ∀ task ∈ w'.tasks, ∀ p ∈ task.phase.tickets, Drawn (h ++ [e]) w'.loader p.1 p.2 := by
  intro task mem p hp
  obtain ⟨i, here⟩ := List.mem_iff_getElem?.mp mem
  rcases step.tickets here hp with ⟨old, before, hp'⟩ | rfl
  · exact (d.held old (List.mem_of_getElem? before) p hp').after step.change
  · obtain ⟨k, t⟩ := p
    have ticket := step.drew
    cases t with
    | primed v => exact d.cached_step step k v ticket
    | batch b => exact (step.change.assigned d.assigned).holds b k ticket

theorem taken_step (d : Dispatched h w) (step : Step w e w') (i : Nat) (k : κ) (t : Ticket ν)
    (answer : Except Fault (Option ν)) (mem : .took i k t answer ∈ h ++ [e]) :
    Drawn (h ++ [e]) w'.loader k t ∧ (∀ v, t = .primed v → answer = .ok (some v)) ∧
      (∀ b, t = .batch b → ∃ keys, w'.loader.callAt b = some keys) := by
  rcases List.mem_append.mp mem with old | new
  · obtain ⟨drawn, value, called⟩ := d.taken i k t answer old
    refine ⟨drawn.after step.change, value, fun b hb => ?_⟩
    obtain ⟨keys, hk⟩ := called b hb
    exact ⟨keys, (d.called_step step b keys).mp
      (by rw [calls_append]; exact List.mem_append_left _ ((d.called b keys).mpr hk))⟩
  · obtain rfl := List.mem_singleton.mp new
    obtain ⟨⟨task, before, hp⟩, hr⟩ := step.took
    refine ⟨(d.held task (List.mem_of_getElem? before) _ hp).after step.change, ?_, ?_⟩
    · rintro v rfl
      simpa [read, eq_comm] using hr
    · rintro b rfl
      exact callAt_of_read hr

theorem step (d : Dispatched h w) (step : Step w e w') : Dispatched (h ++ [e]) w' where
  assigned := step.change.assigned d.assigned
  called := d.called_step step
  once := d.once_step step
  cached := d.cached_step step
  held := d.held_step step
  taken := d.taken_step step

end Dispatched

theorem History.dispatched {s : LoaderSettings} {h : List (Event κ ν)} {w : Traffic κ ν}
    (run : History ⟨Loader.new s, []⟩ h w) : Dispatched h w := by
  induction run with
  | nil => exact .new s
  | snoc _ step ih => exact ih.step step

theorem History.capacity {w w' : Traffic κ ν} {h : List (Event κ ν)} (run : History w h w') :
    w'.loader.capacity = w.loader.capacity := by
  induction run with
  | nil => rfl
  | snoc _ step ih => rw [step.change.capacity, ih]

theorem History.delay {w w' : Traffic κ ν} {h : List (Event κ ν)} (run : History w h w') :
    w'.loader.delay = w.loader.delay := by
  induction run with
  | nil => rfl
  | snoc _ step ih => rw [step.change.delay, ih]

namespace Dispatched

variable {h : List (Event κ ν)} {w : Traffic κ ν}

theorem keysAt_of_call (d : Dispatched h w) {c : Nat × List κ} (hc : c ∈ calls h) :
    w.loader.keysAt c.1 = c.2 := by
  obtain ⟨b, hb, hk⟩ := callAt_eq_some ((d.called c.1 c.2).mp hc)
  rw [keysAt_of_getElem? hb, hk]

theorem call_unique (d : Dispatched h w) {c c' : Nat × List κ} (hc : c ∈ calls h)
    (hc' : c' ∈ calls h) {k : κ} (hk : k ∈ c.2) (hk' : k ∈ c'.2) : c = c' := by
  have same : c.1 = c'.1 :=
    d.assigned.unique _ _ k (by rwa [d.keysAt_of_call hc]) (by rwa [d.keysAt_of_call hc'])
  have keys : c.2 = c'.2 := by rw [← d.keysAt_of_call hc, ← d.keysAt_of_call hc', same]
  exact Prod.ext same keys

theorem calls_nodup (d : Dispatched h w) : (calls h).Nodup :=
  d.once.of_map

theorem keys_nodup (d : Dispatched h w) : ((calls h).flatMap Prod.snd).Nodup := by
  refine List.nodup_flatMap.mpr ⟨fun c hc => ?_, ?_⟩
  · rw [← d.keysAt_of_call hc]
    exact d.assigned.nodup _
  · refine d.calls_nodup.imp_of_mem ?_
    intro c c' hc hc' ne k hk hk'
    exact ne (d.call_unique hc hc' hk hk')

theorem filter_calls (d : Dispatched h w) {c : Nat × List κ} (hc : c ∈ calls h) {k : κ}
    (hk : k ∈ c.2) : (calls h).filter (k ∈ ·.2) = [c] := by
  have same : ∀ c' ∈ calls h, decide (k ∈ c'.2) = (c' == c) := by
    intro c' hc'
    rw [Bool.eq_iff_iff, decide_eq_true_iff, beq_iff_eq]
    exact ⟨fun hk' => d.call_unique hc' hc hk' hk, fun eq => eq ▸ hk⟩
  rw [List.filter_congr same, List.filter_beq, List.count_eq_one_of_mem d.calls_nodup hc]
  rfl

end Dispatched

theorem History.traced {s : LoaderSettings} {h : List (Event κ ν)} {w : Traffic κ ν}
    (run : History ⟨Loader.new s, []⟩ h w) :
    ∀ (i : Nat) (task : Task κ ν), w.tasks[i]? = some task → task.Traced h i := by
  induction run with
  | nil => simp
  | snoc _ step ih =>
    intro i task hi
    rcases step.progress hi with ⟨old, _⟩ | progress
    · exact (ih i task old).after _
    · exact progress.traced fun earlier before => ih i earlier before

/-- Where an answer for a key came from: from priming the key, or from the batch that was awaited. In the
second case the key was in one call only, the call of that batch. -/
def Sourced (h : List (Event κ ν)) (k : κ) (t : Ticket ν) (answer : Except Fault (Option ν)) : Prop :=
  (∃ v, t = .primed v ∧ .primed k v ∈ h ∧ answer = .ok (some v)) ∨
    ∃ b keys, t = .batch b ∧ k ∈ keys ∧ (calls h).filter (k ∈ ·.2) = [(b, keys)]

theorem Dispatched.sourced {h : List (Event κ ν)} {w : Traffic κ ν} (d : Dispatched h w) {i : Nat}
    {k : κ} {t : Ticket ν} {answer : Except Fault (Option ν)} (mem : .took i k t answer ∈ h) :
    Sourced h k t answer := by
  obtain ⟨drawn, value, called⟩ := d.taken i k t answer mem
  cases t with
  | primed v => exact .inl ⟨v, rfl, drawn, value v rfl⟩
  | batch b =>
    obtain ⟨keys, hb⟩ := called b rfl
    have call := (d.called b keys).mpr hb
    have same : w.loader.keysAt b = keys := d.keysAt_of_call call
    have hk : k ∈ keys := same ▸ drawn
    exact .inr ⟨b, keys, rfl, hk, d.filter_calls call hk⟩

/-- Through every interleaving no key is sent twice. Every answer that an operation takes, and so every
answer that a lookup ends with, was primed or comes from the one call that its key was in. A call has at
least one key and at most as many as the settings allow. -/
theorem exactly_once_dispatch (s : LoaderSettings) {h : List (Event κ ν)} {w : Traffic κ ν}
    (run : History ⟨new s, []⟩ h w) :
    ((calls h).flatMap Prod.snd).Nodup ∧
    (∀ i k t answer, .took i k t answer ∈ h → Sourced h k t answer) ∧
    (∀ (i : Nat) k answer, w.tasks[i]? = some ⟨.load k, .running (.finished (.loaded answer))⟩ →
      ∃ t, .took i k t answer ∈ h ∧ Sourced h k t answer) ∧
    ∀ c ∈ calls h, 1 ≤ c.2.length ∧ c.2.length ≤ max 1 s.maxBatch := by
  have d := run.dispatched
  refine ⟨d.keys_nodup, fun i k t answer => d.sourced, fun i k answer done => ?_, fun c hc => ?_⟩
  · obtain ⟨k', t, single, mem⟩ := run.traced i _ done
    obtain rfl : k = k' := by simpa using single
    exact ⟨t, mem, d.sourced mem⟩
  · obtain ⟨b, hb, hk⟩ := callAt_eq_some ((d.called c.1 c.2).mp hc)
    have size := d.assigned.size_le c.1
    rw [d.keysAt_of_call hc, run.capacity] at size
    exact ⟨List.length_pos_iff.mpr (hk ▸ d.assigned.nonempty _ b hb), size⟩

end Steps

/-- Two lookups fill a batch and a third goes to the next; a key is primed while its batch gathers; the
first batch fails. -/
def fullBatch : List (Event Nat Nat) :=
  [.drew 0 1 (.batch 0), .drew 1 2 (.batch 0), .drew 2 3 (.batch 1), .primed 1 9,
    .drew 4 1 (.primed 9), .sent 0 [1, 2], .answered 0 [1, 2] (.error (.internal "down")),
    .took 0 1 (.batch 0) (.error (.internal "down"))]

theorem exactly_once_dispatch_full_batch :
    ((calls fullBatch).flatMap Prod.snd).Nodup ∧
    Sourced fullBatch 1 (.batch 0) (.error (.internal "down")) ∧
    (∃ t, .took 0 1 t (.error (.internal "down")) ∈ fullBatch ∧
      Sourced fullBatch 1 t (.error (.internal "down"))) ∧
    ∀ c ∈ calls fullBatch, 1 ≤ c.2.length ∧ c.2.length ≤ 2 := by
  have drew := (((((History.nil (w := ⟨new ⟨1, 2⟩, []⟩)).snoc (.load 1 (.inl rfl))).snoc
    (.load 2 (.inl rfl))).snoc (.load 3 (.inl rfl))).snoc (.prime 1 9)).snoc (.load 1 (.inr rfl))
  have sent := drew.snoc (.send (i := 0) (close_eq_some.mpr ⟨none, rfl, rfl⟩))
  have failed := sent.snoc
    (.answer (i := 0) (.error (.internal "down")) rfl (settle_eq_some.mpr ⟨[1, 2], rfl, rfl⟩))
  have run : History _ fullBatch _ :=
    failed.snoc (.take (i := 0) (o := .load 1) (r := .loading 1 (.batch 0)) rfl rfl rfl)
  obtain ⟨once, taken, loads, sizes⟩ := exactly_once_dispatch ⟨1, 2⟩ run
  exact ⟨once, taken 0 1 _ _ (by simp [fullBatch]), loads 0 1 _ rfl, sizes⟩

end InfraGraph.Loader
