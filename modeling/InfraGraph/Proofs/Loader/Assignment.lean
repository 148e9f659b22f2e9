import InfraGraph.Loader.Basic
import Mathlib.Data.List.Nodup

/-!
Which batch a key belongs to. A key enters at most one batch, once, and only when it has no ticket; from
then on it has one, so it never enters another. Batches are neither empty nor larger than the loader
allows, and stages change nothing of this.
-/

namespace InfraGraph.Loader

variable {κ ν : Type}

def keysAt (l : Loader κ ν) (i : Nat) : List κ :=
  (l.batches[i]?.map Batch.keys).getD []

theorem keysAt_of_getElem? {l : Loader κ ν} {i : Nat} {b : Batch κ ν} (h : l.batches[i]? = some b) :
    l.keysAt i = b.keys := by
  simp [keysAt, h]

theorem exists_batch_of_mem_keysAt {l : Loader κ ν} {i : Nat} {k : κ} (h : k ∈ l.keysAt i) :
    ∃ b, l.batches[i]? = some b ∧ b.keys = l.keysAt i := by
  cases hb : l.batches[i]? with
  | none => simp [keysAt, hb] at h
  | some b => exact ⟨b, rfl, (keysAt_of_getElem? hb).symm⟩

theorem setStage_getElem? (l : Loader κ ν) (i j : Nat) (stage : Batch.Stage κ ν) :
    (l.setStage i stage).batches[j]? =
      if i = j then l.batches[j]?.map fun b => { b with stage := stage } else l.batches[j]? := by
  simp only [setStage, List.getElem?_modify]
  split <;> simp

theorem setStage_here {l : Loader κ ν} {i : Nat} {b : Batch κ ν} (stage : Batch.Stage κ ν)
    (h : l.batches[i]? = some b) :
    (l.setStage i stage).batches[i]? = some ⟨b.keys, stage⟩ := by
  simp [setStage_getElem?, h]

@[simp] theorem setStage_keysAt (l : Loader κ ν) (i j : Nat) (stage : Batch.Stage κ ν) :
    (l.setStage i stage).keysAt j = l.keysAt j := by
  simp only [keysAt, setStage_getElem?]
  split
  · cases l.batches[j]? <;> simp
  · rfl

@[simp] theorem setStage_length (l : Loader κ ν) (i : Nat) (stage : Batch.Stage κ ν) :
    (l.setStage i stage).batches.length = l.batches.length := by
  simp [setStage]

theorem start_eq (l : Loader κ ν) (i now : Nat) :
    l.start i now = l.setStage i (.gathering (some (now + l.delay))) := rfl

theorem close_eq_some {l l' : Loader κ ν} {i : Nat} {keys : List κ} :
    l.close i = some (keys, l') ↔
      ∃ due, l.batches[i]? = some ⟨keys, .gathering due⟩ ∧ l' = l.setStage i .sent := by
  unfold close
  split
  · next keys' due h =>
    simp only [h, Option.some.injEq, Prod.mk.injEq, Batch.mk.injEq]
    constructor
    · rintro ⟨rfl, rfl⟩
      exact ⟨due, ⟨rfl, rfl⟩, rfl⟩
    · rintro ⟨due', ⟨rfl, _⟩, rfl⟩
      exact ⟨rfl, rfl⟩
  · next none =>
    simp only [reduceCtorEq, false_iff, not_exists, not_and]
    intro due h
    exact absurd h (none keys due)

theorem settle_eq_some {l l' : Loader κ ν} {i : Nat} {answer : Answer κ ν} :
    l.settle i answer = some l' ↔
      ∃ keys, l.batches[i]? = some ⟨keys, .sent⟩ ∧ l' = l.setStage i (.answered answer) := by
  unfold settle
  split
  · next keys h =>
    simp only [h, Option.some.injEq, Batch.mk.injEq, and_true]
    constructor
    · rintro rfl
      exact ⟨keys, rfl, rfl⟩
    · rintro ⟨_, _, rfl⟩
      rfl
  · next none =>
    simp only [reduceCtorEq, false_iff, not_exists, not_and]
    intro keys h
    exact absurd h (none keys)

theorem isGathering_iff {b : Batch κ ν} : b.isGathering ↔ ∃ due, b.stage = .gathering due := by
  unfold Batch.isGathering
  split <;> simp_all

theorem getElem?_concat_of_ne {α : Type} (xs : List α) (a : α) {j : Nat} (h : j ≠ xs.length) :
    (xs ++ [a])[j]? = xs[j]? := by
  rcases Nat.lt_or_gt_of_ne h with lt | gt
  · exact List.getElem?_append_left lt
  · rw [List.getElem?_append_right (Nat.le_of_lt gt), List.getElem?_eq_none (Nat.le_of_lt gt)]
    exact List.getElem?_eq_none (by simp; omega)

/-- What enqueuing does to a key without a ticket: the key goes to the end of a batch that gathers and
has room, or of a batch that is new. -/
structure Enters (l : Loader κ ν) (k : κ) (i : Nat) (t : Ticket ν) (l' : Loader κ ν) : Prop where
  ticket : t = .batch i
  tickets : l'.tickets = (k, .batch i) :: l.tickets
  capacity : l'.capacity = l.capacity
  delay : l'.delay = l.delay
  other : ∀ j, j ≠ i → l'.batches[j]? = l.batches[j]?
  here : ∃ due, l'.batches[i]? = some ⟨l.keysAt i ++ [k], .gathering due⟩ ∧
    (l.batches[i]? = none ∧ i = l.batches.length ∨
      l.batches[i]? = some ⟨l.keysAt i, .gathering due⟩ ∧ (l.keysAt i).length < l.capacity)

namespace Enters

variable {l l' : Loader κ ν} {k : κ} {i : Nat} {t : Ticket ν}

theorem keysAt_eq (e : Enters l k i t l') (j : Nat) :
    l'.keysAt j = if j = i then l.keysAt i ++ [k] else l.keysAt j := by
  obtain ⟨due, hi, _⟩ := e.here
  split
  · next h => rw [h, keysAt_of_getElem? hi]
  · next h => simp only [keysAt, e.other j h]

theorem mem_keysAt (e : Enters l k i t l') {j : Nat} {x : κ} :
    x ∈ l'.keysAt j ↔ x ∈ l.keysAt j ∨ x = k ∧ j = i := by
  rw [e.keysAt_eq]
  split
  · next h => subst h; simp
  · next h => simp [h]

end Enters

theorem openBatch_enters (l : Loader κ ν) (k : κ) :
    Enters l k l.batches.length (l.openBatch k).1 (l.openBatch k).2 where
  ticket := rfl
  tickets := rfl
  capacity := rfl
  delay := rfl
  other j hj := getElem?_concat_of_ne _ _ hj
  here := ⟨none, by simp [openBatch, keysAt], .inl ⟨by simp, rfl⟩⟩

theorem join_enters (l : Loader κ ν) (k : κ) :
    ∃ i, Enters l k i (l.join k).1 (l.join k).2 := by
  unfold join newest
  cases hl : l.batches.getLast? with
  | none => exact ⟨_, openBatch_enters l k⟩
  | some b =>
    by_cases room : b.hasRoom l.capacity
    · obtain ⟨front, hf⟩ := List.getLast?_eq_some_iff.mp hl
      obtain ⟨⟨due, hs⟩, hlen⟩ : (∃ due, b.stage = .gathering due) ∧ b.keys.length < l.capacity := by
        simpa [Batch.hasRoom, isGathering_iff] using room
      have hb : l.batches[front.length]? = some b := by simp [hf]
      have hk : l.keysAt front.length = b.keys := keysAt_of_getElem? hb
      simp only [room, if_true]
      refine ⟨front.length, by simp [hf], by simp [hf], rfl, rfl, fun j hj => ?_,
        due, by simp [hf, hk, hs], .inr ⟨by rw [hb, hk, ← hs], by rw [hk]; exact hlen⟩⟩
      simp only [hf, List.dropLast_concat]
      rw [getElem?_concat_of_ne _ _ hj, getElem?_concat_of_ne _ _ hj]
    · simp only [room]
      exact ⟨_, openBatch_enters l k⟩

section Keys

variable [DecidableEq κ]

theorem ticket?_cons (l : Loader κ ν) (k x : κ) (t : Ticket ν) :
    ticket? { l with tickets := (k, t) :: l.tickets } x = if x = k then some t else l.ticket? x := by
  by_cases h : x = k
  · simp [ticket?, h]
  · have hb : (x == k) = false := by simpa using h
    simp [ticket?, List.lookup_cons, h, hb]

theorem prime_ticket? (l : Loader κ ν) (k x : κ) (v : ν) :
    (l.prime k v).ticket? x = if x = k then some (.primed v) else l.ticket? x :=
  ticket?_cons l k x (.primed v)

theorem Enters.ticket?_eq {l l' : Loader κ ν} {k : κ} {i : Nat} {t : Ticket ν}
    (e : Enters l k i t l') (x : κ) :
    l'.ticket? x = if x = k then some (.batch i) else l.ticket? x := by
  have h := ticket?_cons l k x (.batch i)
  simpa only [ticket?, e.tickets] using h

theorem enqueue_of_ticket {l : Loader κ ν} {k : κ} {t : Ticket ν} (h : l.ticket? k = some t) :
    l.enqueue k = (t, l) := by
  simp [enqueue, h]

theorem enqueue_of_unknown {l : Loader κ ν} {k : κ} (h : l.ticket? k = none) : l.enqueue k = l.join k := by
  simp [enqueue, h]

theorem enqueue_enters {l : Loader κ ν} {k : κ} (h : l.ticket? k = none) :
    ∃ i, Enters l k i (l.enqueue k).1 (l.enqueue k).2 := by
  rw [enqueue_of_unknown h]
  exact join_enters l k

theorem enqueue_induction {P : Loader κ ν → Prop} {l : Loader κ ν} {k : κ} (known : P l)
    (enters : ∀ i t l', l.ticket? k = none → Enters l k i t l' → P l') : P (l.enqueue k).2 := by
  cases h : l.ticket? k with
  | some t => rwa [enqueue_of_ticket h]
  | none =>
    obtain ⟨i, e⟩ := enqueue_enters h
    exact enters i _ _ h e

theorem enqueue_ticket? (l : Loader κ ν) (k : κ) :
    (l.enqueue k).2.ticket? k = some (l.enqueue k).1 := by
  cases h : l.ticket? k with
  | some t => simp [enqueue_of_ticket h, h]
  | none =>
    obtain ⟨i, e⟩ := enqueue_enters h
    rw [e.ticket?_eq, if_pos rfl, e.ticket]

structure Assigned (l : Loader κ ν) : Prop where
  capacity_pos : 1 ≤ l.capacity
  size_le : ∀ i, (l.keysAt i).length ≤ l.capacity
  nonempty : ∀ (i : Nat) (b : Batch κ ν), l.batches[i]? = some b → b.keys ≠ []
  nodup : ∀ i, (l.keysAt i).Nodup
  unique : ∀ i j k, k ∈ l.keysAt i → k ∈ l.keysAt j → i = j
  ticketed : ∀ i k, k ∈ l.keysAt i → l.ticket? k ≠ none
  holds : ∀ i k, l.ticket? k = some (.batch i) → k ∈ l.keysAt i

theorem assigned_new (s : LoaderSettings) : Assigned (new s : Loader κ ν) where
  capacity_pos := Nat.le_max_left 1 s.maxBatch
  size_le := by simp [new, keysAt]
  nonempty := by simp [new]
  nodup := by simp [new, keysAt]
  unique := by simp [new, keysAt]
  ticketed := by simp [new, keysAt]
  holds := by simp [new, ticket?]

theorem Assigned.prime {l : Loader κ ν} (a : Assigned l) (k : κ) (v : ν) : Assigned (l.prime k v) where
  capacity_pos := a.capacity_pos
  size_le := a.size_le
  nonempty := a.nonempty
  nodup := a.nodup
  unique := a.unique
  ticketed i x hx := by
    rw [prime_ticket?]
    split
    · simp
    · exact a.ticketed i x hx
  holds i x hx := by
    rw [prime_ticket?] at hx
    split at hx
    · simp at hx
    · exact a.holds i x hx

theorem Assigned.setStage {l : Loader κ ν} (a : Assigned l) (i : Nat) (stage : Batch.Stage κ ν) :
    Assigned (l.setStage i stage) where
  capacity_pos := a.capacity_pos
  size_le j := (setStage_keysAt l i j stage).symm ▸ a.size_le j
  nonempty j b hb := by
    rw [setStage_getElem?] at hb
    split at hb
    · obtain ⟨b', hb', rfl⟩ := Option.map_eq_some_iff.mp hb
      exact a.nonempty j b' hb'
    · exact a.nonempty j b hb
  nodup j := by simpa using a.nodup j
  unique j j' k := by simpa using a.unique j j' k
  ticketed j k hk := a.ticketed j k (by simpa using hk)
  holds j k hk := by simpa using a.holds j k hk

theorem Assigned.enters {l l' : Loader κ ν} {k : κ} {i : Nat} {t : Ticket ν} (a : Assigned l)
    (fresh : l.ticket? k = none) (e : Enters l k i t l') : Assigned l' := by
  -- a key without a ticket is in no batch yet, so adding it to one keeps all batches apart
  have absent : ∀ j, k ∉ l.keysAt j := fun j hj => a.ticketed j k hj fresh
  obtain ⟨due, hi, before⟩ := e.here
  constructor
  · rw [e.capacity]; exact a.capacity_pos
  · intro j
    rw [e.keysAt_eq, e.capacity]
    split
    · rcases before with ⟨none, _⟩ | ⟨_, room⟩
      · simpa [keysAt, none] using a.capacity_pos
      · simpa using Nat.succ_le_of_lt room
    · exact a.size_le j
  · intro j b hb
    by_cases hj : j = i
    · subst hj
      rw [hi, Option.some.injEq] at hb
      simp [← hb]
    · rw [e.other j hj] at hb
      exact a.nonempty j b hb
  · intro j
    rw [e.keysAt_eq]
    split
    · exact List.nodup_append.mpr ⟨a.nodup i, List.nodup_singleton k, by
        rintro x hx y hy rfl
        exact absent i (List.mem_singleton.mp hy ▸ hx)⟩
    · exact a.nodup j
  · intro j j' x hj hj'
    rw [e.mem_keysAt] at hj hj'
    rcases hj with hj | ⟨rfl, rfl⟩ <;> rcases hj' with hj' | ⟨hx, rfl⟩
    · exact a.unique j j' x hj hj'
    · exact absurd (hx ▸ hj) (absent j)
    · exact absurd hj' (absent j')
    · rfl
  · intro j x hx
    rw [e.ticket?_eq]
    split
    · simp
    · next ne => exact a.ticketed j x ((e.mem_keysAt.mp hx).resolve_right fun h => ne h.1)
  · intro j x hx
    rw [e.ticket?_eq] at hx
    rw [e.mem_keysAt]
    split at hx
    · next eq => simp only [Option.some.injEq, Ticket.batch.injEq] at hx; exact .inr ⟨eq, hx.symm⟩
    · exact .inl (a.holds j x hx)

theorem Assigned.enqueue {l : Loader κ ν} (a : Assigned l) (k : κ) : Assigned (l.enqueue k).2 :=
  enqueue_induction a fun _ _ _ fresh e => a.enters fresh e

end Keys

end InfraGraph.Loader
