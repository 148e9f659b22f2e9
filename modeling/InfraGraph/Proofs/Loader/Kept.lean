import InfraGraph.Proofs.Loader.Replay

/-!
What a loader keeps. A key whose batch was answered has the answer of that call for good. Enqueuing
changes none of this, and awaiting adds the answers of the batch that fires, if one does.
-/

namespace InfraGraph.Loader

variable {κ ν σ : Type}

section Keys

variable [DecidableEq κ]

def kept? (l : Loader κ ν) (k : κ) : Option (Except Fault (Option ν)) :=
  (l.ticket? k).bind (l.read k)

@[simp] theorem kept?_new (s : LoaderSettings) (k : κ) : (new s : Loader κ ν).kept? k = none := rfl

structure Orderly (l : Loader κ ν) : Prop where
  calm : Calm l
  assigned : Assigned l
  unprimed : ∀ k v, l.ticket? k ≠ some (.primed v)

theorem orderly_new (s : LoaderSettings) : Orderly (new s : Loader κ ν) where
  calm := by simp [Calm, new]
  assigned := assigned_new s
  unprimed := by simp [new, ticket?]

theorem Orderly.enqueue {l : Loader κ ν} (o : Orderly l) (k : κ) : Orderly (l.enqueue k).2 where
  calm := o.calm.enqueue k
  assigned := o.assigned.enqueue k
  unprimed := enqueue_induction (P := fun l' => ∀ x v, l'.ticket? x ≠ some (.primed v)) o.unprimed
    fun i t l' _ e x v h => by
      rw [e.ticket?_eq] at h
      split at h
      · simp at h
      · exact o.unprimed x v h

theorem ticket?_enqueue {l : Loader κ ν} {k x : κ} {t : Ticket ν} (h : l.ticket? x = some t) :
    (l.enqueue k).2.ticket? x = some t :=
  enqueue_induction (P := fun l' => l'.ticket? x = some t) h fun i t' l' fresh e => by
    have ne : x ≠ k := by
      rintro rfl
      simp [h] at fresh
    rw [e.ticket?_eq, if_neg ne, h]

theorem ticket?_enqueue_of_ne {l : Loader κ ν} {k x : κ} (ne : x ≠ k) :
    (l.enqueue k).2.ticket? x = l.ticket? x :=
  enqueue_induction (P := fun l' => l'.ticket? x = l.ticket? x) rfl fun i t l' _ e => by
    rw [e.ticket?_eq, if_neg ne]

theorem ticket?_enqueue_isSome (l : Loader κ ν) (k x : κ) :
    ((l.enqueue k).2.ticket? x).isSome ↔ x = k ∨ (l.ticket? x).isSome := by
  by_cases hx : x = k
  · simp [hx, enqueue_ticket?]
  · simp [hx, ticket?_enqueue_of_ne hx]

theorem kept?_enqueue {l : Loader κ ν} (o : Orderly l) (k x : κ) :
    (l.enqueue k).2.kept? x = l.kept? x := by
  refine enqueue_induction (P := fun l' => l'.kept? x = l.kept? x) rfl fun i t l' fresh e => ?_
  obtain ⟨due, here, before⟩ := e.here
  have unread : l.read x (.batch i) = none := by
    rcases before with ⟨none, -⟩ | ⟨gathers, -⟩
    · simp [read, none]
    · simp [read, gathers]
  simp only [kept?, e.ticket?_eq]
  by_cases hx : x = k
  · subst hx
    simp [fresh, read, here]
  · simp only [hx, if_false]
    cases hl : l.ticket? x with
    | none => rfl
    | some t' =>
      cases t' with
      | primed v => exact absurd hl (o.unprimed x v)
      | batch j =>
        by_cases hj : j = i
        · subst hj
          simp only [Option.bind_some, unread]
          simp [read, here]
        · simp [read, e.other j hj]

theorem Later.kept? {l l' : Loader κ ν} (later : Later l l') (o : Orderly l)
    (ticket : ∀ k t, l.ticket? k = some t → l'.ticket? k = some t) {k : κ}
    {answer : Except Fault (Option ν)} (h : l.kept? k = some answer) : l'.kept? k = some answer := by
  obtain ⟨t, held, got⟩ := Option.bind_eq_some_iff.mp h
  refine Option.bind_eq_some_iff.mpr ⟨t, ticket k t held, ?_⟩
  rcases t with v | i
  · exact absurd held (o.unprimed k v)
  · simp only [read] at got ⊢
    split at got
    · next keys a here =>
      obtain ⟨⟨keys', stage⟩, here', -, leads⟩ := later i _ here
      cases leads with
      | same _ => simpa [here'] using got
    · simp at got

theorem kept?_setStage {l : Loader κ ν} {i : Nat} {b : Batch κ ν} {stage : Batch.Stage κ ν}
    (here : l.batches[i]? = some b) (old : ∀ answer, b.stage ≠ .answered answer)
    (new : ∀ answer, stage ≠ .answered answer) (x : κ) : (l.setStage i stage).kept? x = l.kept? x := by
  have same : ∀ t, (l.setStage i stage).read x t = l.read x t := by
    rintro (v | j)
    · rfl
    · by_cases hj : i = j
      · subst hj
        obtain ⟨keys, before⟩ := b
        simp only [read, setStage_here stage here, here]
        cases stage <;> cases before <;> simp_all
      · simp [read, setStage_getElem?, hj]
  exact congrArg (Option.bind (l.ticket? x)) (funext same)

end Keys

/-- Batches whose delay has begun are due at a given time at the latest. -/
def Timely (latest : Nat) (l : Loader κ ν) : Prop :=
  ∀ (i : Nat) (keys : List κ) (due : Nat),
    l.batches[i]? = some ⟨keys, .gathering (some due)⟩ → due ≤ latest

theorem Timely.mono {l : Loader κ ν} {latest latest' : Nat} (h : Timely latest l)
    (le : latest ≤ latest') : Timely latest' l :=
  fun i keys due here => (h i keys due here).trans le

theorem Timely.ripe {l : Loader κ ν} {latest i : Nat} (h : Timely latest l) (begun : Begun l i) :
    Ripe latest l i := by
  obtain ⟨_, ⟨keys, stage⟩, here, past⟩ := begun
  cases past with
  | due _ => exact ⟨_, here, .due (h i keys _ here)⟩
  | answered answer => exact ⟨_, here, .answered answer⟩

theorem Over.mono {now now' : Nat} {stage : Batch.Stage κ ν} (h : Over now stage) (le : now ≤ now') :
    Over now' stage := by
  cases h with
  | due past => exact .due (past.trans le)
  | answered answer => exact .answered answer

theorem Ripe.mono {now now' i : Nat} {l : Loader κ ν} (h : Ripe now l i) (le : now ≤ now') :
    Ripe now' l i := by
  obtain ⟨b, here, past⟩ := h
  exact ⟨b, here, past.mono le⟩

theorem timely_setStage {l : Loader κ ν} {latest i : Nat} {stage : Batch.Stage κ ν}
    (h : Timely latest l) (new : ∀ due, stage = .gathering (some due) → due ≤ latest) :
    Timely latest (l.setStage i stage) := by
  intro j keys due here
  rw [setStage_getElem?] at here
  split at here
  · obtain ⟨b, _, same⟩ := Option.map_eq_some_iff.mp here
    exact new due (Batch.mk.inj same).2
  · exact h j keys due here

theorem openBatch_begun {l : Loader κ ν} {k : κ} {i due : Nat} {keys : List κ}
    (h : (l.openBatch k).2.batches[i]? = some ⟨keys, .gathering (some due)⟩) :
    l.batches[i]? = some ⟨keys, .gathering (some due)⟩ := by
  rcases concat_getElem? h with ⟨_, new⟩ | ⟨_, old⟩
  · simp at new
  · exact old

theorem join_begun {l : Loader κ ν} {k : κ} {i due : Nat} {keys : List κ}
    (h : (l.join k).2.batches[i]? = some ⟨keys, .gathering (some due)⟩) :
    ∃ keys', l.batches[i]? = some ⟨keys', .gathering (some due)⟩ := by
  unfold join newest at h
  cases hl : l.batches.getLast? with
  | none => exact ⟨keys, openBatch_begun (by simpa [hl] using h)⟩
  | some b =>
    by_cases room : b.hasRoom l.capacity
    · obtain ⟨front, hf⟩ := List.getLast?_eq_some_iff.mp hl
      simp only [hl, room, if_true] at h
      simp only [hf, List.dropLast_concat] at h
      rcases concat_getElem? h with ⟨rfl, new⟩ | ⟨_, old⟩
      · obtain ⟨-, stage⟩ := Batch.mk.inj new
        exact ⟨b.keys, by rw [hf, ← stage]; simp⟩
      · exact ⟨keys, by rw [hf, List.getElem?_append_left (List.getElem?_eq_some_iff.mp old).1, old]⟩
    · exact ⟨keys, openBatch_begun (by simpa [hl, room] using h)⟩

theorem enqueue_begun [DecidableEq κ] {l : Loader κ ν} {k : κ} {i due : Nat} {keys : List κ}
    (h : (l.enqueue k).2.batches[i]? = some ⟨keys, .gathering (some due)⟩) :
    ∃ keys', l.batches[i]? = some ⟨keys', .gathering (some due)⟩ := by
  cases known : l.ticket? k with
  | some t => exact ⟨keys, by rwa [enqueue_of_ticket known] at h⟩
  | none => exact join_begun (enqueue_of_unknown known ▸ h)

theorem Timely.enqueue [DecidableEq κ] {l : Loader κ ν} {latest : Nat} (h : Timely latest l) (k : κ) :
    Timely latest (l.enqueue k).2 := by
  intro i keys due here
  obtain ⟨keys', old⟩ := enqueue_begun here
  exact h i keys' due old

/-- A loader further on, with its batches due in time. -/
structure Grows [DecidableEq κ] (latest : Nat) (l l' : Loader κ ν) : Prop where
  orderly : Orderly l'
  delay : l'.delay = l.delay
  timely : Timely latest l'
  later : Later l l'
  ticket : ∀ k t, l.ticket? k = some t → l'.ticket? k = some t

theorem enqueue_grows [DecidableEq κ] {l : Loader κ ν} (o : Orderly l) {latest : Nat}
    (timely : Timely latest l) (k : κ) : Grows latest l (l.enqueue k).2 where
  orderly := o.enqueue k
  delay := enqueue_induction (P := fun l' => l'.delay = l.delay) rfl fun _ _ _ _ e => e.delay
  timely := timely.enqueue k
  later := enqueue_later l k
  ticket _ _ := ticket?_enqueue

section Awaiting

variable {backend : Backend κ ν σ} {now : Nat} {k : κ} {l l' : Loader κ ν} {s s' : σ} {t : Ticket ν}
  {result : Option (Except Fault (Option ν))}

namespace Awaits

theorem delay_eq (a : Awaits backend now k l s t result l' s') : l'.delay = l.delay :=
  a.of_setStage (P := fun l' => l'.delay = l.delay) (fun _ _ _ h => h) rfl

theorem timely (a : Awaits backend now k l s t result l' s') {latest : Nat} (h : Timely latest l)
    (next : now + l.delay ≤ latest) : Timely latest l' := by
  cases a with
  | primed _ => exact h
  | start _ => exact timely_setStage h (by rintro _ ⟨⟩; exact next)
  | wait _ _ => exact h
  | fire _ _ => exact timely_setStage h (by simp)
  | done _ => exact h

theorem backend_eq (a : Awaits backend now k l s t result l' s') :
    s' = s ∨ ∃ keys, s' = (backend keys s).2 := by
  cases a with
  | fire _ _ => exact .inr ⟨_, rfl⟩
  | _ => exact .inl rfl

theorem waits (a : Awaits backend now k l s t none l' s') :
    ∃ i, t = .batch i ∧ Begun l' i ∧ GatheringAt l' i ∧ ¬ Ripe now l i := by
  obtain ⟨i, hi, begun⟩ := (Polls.wait (r := .loading k t) rfl a).waits rfl
  exact ⟨i, hi, begun⟩

end Awaits

variable [DecidableEq κ]

namespace Awaits

theorem ticket?_eq (a : Awaits backend now k l s t result l' s') (x : κ) : l'.ticket? x = l.ticket? x :=
  a.of_setStage (P := fun l' => l'.ticket? x = l.ticket? x) (fun _ _ _ h => h) rfl

theorem orderly (a : Awaits backend now k l s t result l' s') (o : Orderly l) : Orderly l' where
  calm := a.calm o.calm
  assigned := a.of_setStage (P := Assigned) (fun _ _ _ h => h.setStage _ _) o.assigned
  unprimed x v := a.ticket?_eq x ▸ o.unprimed x v

theorem grows (a : Awaits backend now k l s t result l' s') (o : Orderly l) {latest : Nat}
    (timely : Timely latest l) (next : now + l.delay ≤ latest) : Grows latest l l' where
  orderly := a.orderly o
  delay := a.delay_eq
  timely := a.timely timely next
  later := a.later
  ticket x _ h := a.ticket?_eq x ▸ h

/-- Awaiting keeps what was kept; what is new is the answer that the backend gave to a batch. -/
theorem kept?_eq (a : Awaits backend now k l s t result l' s') (o : Orderly l) (x : κ) :
    l'.kept? x = l.kept? x ∨ l.kept? x = none ∧ ∃ keys, s' = (backend keys s).2 ∧
      l'.kept? x = some ((backend keys s).1.map (· x)) := by
  cases a with
  | primed _ => exact .inl rfl
  | start here => exact .inl (kept?_setStage here (by simp) (by simp) x)
  | wait _ _ => exact .inl rfl
  | @fire i keys due here _ =>
    by_cases hx : l.ticket? x = some (.batch i)
    · refine .inr ⟨by simp [kept?, hx, read, here], keys, rfl, ?_⟩
      change (l.ticket? x).bind _ = _
      simp [hx, read, setStage_here _ here]
    · refine .inl ?_
      change (l.ticket? x).bind _ = (l.ticket? x).bind _
      rcases hl : l.ticket? x with - | v | j
      · rfl
      · exact absurd hl (o.unprimed x v)
      · have hj : i ≠ j := fun same => hx (same ▸ hl)
        simp [read, setStage_getElem?, hj]
  | done _ => exact .inl rfl

theorem kept?_of_taken {answer : Except Fault (Option ν)}
    (a : Awaits backend now k l s t (some answer) l' s') (held : l.ticket? k = some t) :
    l'.kept? k = some answer := by
  simp [kept?, a.ticket?_eq, held, a.read_eq]

end Awaits

end Awaiting

end InfraGraph.Loader
