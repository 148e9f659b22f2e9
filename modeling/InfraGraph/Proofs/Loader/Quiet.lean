import InfraGraph.Proofs.Loader.Assignment
import InfraGraph.Loader.Schedule

/-!
One lookup at a time. When a lookup begins only after the one before it has ended, every batch has been
answered: the key of the lookup has an answer already, or it goes to the backend by itself. The clock has no
part in it.
-/

namespace InfraGraph.Loader

variable {κ ν σ : Type}

def withBatch (l : Loader κ ν) (key : κ) (stage : Batch.Stage κ ν) : Loader κ ν :=
  { l with
    batches := l.batches ++ [⟨[key], stage⟩]
    tickets := (key, .batch l.batches.length) :: l.tickets }

theorem withBatch_here (l : Loader κ ν) (key : κ) (stage : Batch.Stage κ ν) :
    (l.withBatch key stage).batches[l.batches.length]? = some ⟨[key], stage⟩ :=
  List.getElem?_concat_length

theorem withBatch_setStage (l : Loader κ ν) (key : κ) (stage stage' : Batch.Stage κ ν) :
    (l.withBatch key stage).setStage l.batches.length stage' = l.withBatch key stage' := by
  simp [withBatch, setStage, List.modify_eq_take_drop]

theorem withBatch_read (l : Loader κ ν) (key : κ) (answer : Answer κ ν) (x : κ) :
    (l.withBatch key (.answered answer)).read x (.batch l.batches.length) = some (answer.map (· x)) := by
  rw [read, withBatch_here]

theorem read_withBatch {l : Loader κ ν} {x : κ} {t : Ticket ν} {result : Except Fault (Option ν)}
    (before : l.read x t = some result) (key : κ) (stage : Batch.Stage κ ν) :
    (l.withBatch key stage).read x t = some result := by
  cases t with
  | primed v => exact before
  | batch i =>
    have inside : i < l.batches.length := by
      by_contra outside
      rw [read, List.getElem?_eq_none (Nat.le_of_not_lt outside)] at before
      cases before
    rw [read, withBatch, List.getElem?_append_left inside]
    exact before

section Await

variable {backend : Backend κ ν σ}

theorem await_of_read {l : Loader κ ν} {key : κ} {t : Ticket ν} {result : Except Fault (Option ν)}
    (read : l.read key t = some result) (now : Nat) (s : σ) :
    l.await backend now key t s = (some result, l, s) := by
  cases t with
  | primed v =>
    obtain rfl := Option.some.inj read
    rfl
  | batch i =>
    have here := read
    rw [Loader.read] at here
    split at here
    next keys answer batch =>
      rw [await]
      simp only [batch, read]
    next => cases here

theorem await_opened (l : Loader κ ν) (key : κ) (now : Nat) (s : σ) :
    (l.withBatch key (.gathering none)).await backend now key (.batch l.batches.length) s =
      (none, l.withBatch key (.gathering (some (now + l.delay))), s) := by
  rw [await]
  simp only [withBatch_here, start_eq, withBatch_setStage]
  rfl

theorem await_due (l : Loader κ ν) (key : κ) {due now : Nat} (late : due ≤ now) (s : σ) :
    (l.withBatch key (.gathering (some due))).await backend now key (.batch l.batches.length) s =
      (some ((backend [key] s).1.map (· key)), l.withBatch key (.answered (backend [key] s).1),
        (backend [key] s).2) := by
  rw [await]
  simp only [withBatch_here, if_pos late, dispatch, close, withBatch_setStage, settle, Option.getD_some,
    withBatch_read]

theorem finish_of_finished (fuel now : Nat) (l : Loader κ ν) (s : σ) (outcome : Outcome κ ν) :
    finish backend fuel now l s [.finished outcome] = ([.finished outcome], now, l, s) := by
  cases fuel <;> rfl

end Await

section Keys

variable [DecidableEq κ]

/-- Every batch was sent and has its answer, good or bad, and so every ticket can be read. -/
structure Quiet (l : Loader κ ν) : Prop where
  answered : ∀ b ∈ l.batches, b.isGathering = false
  known : ∀ key t, l.ticket? key = some t → ∃ result, l.read key t = some result

theorem quiet_new (s : LoaderSettings) : Quiet (new s : Loader κ ν) where
  answered _ mem := nomatch mem
  known _ _ known := nomatch known

theorem Quiet.prime {l : Loader κ ν} (quiet : Quiet l) (key : κ) (value : ν) :
    Quiet (l.prime key value) where
  answered := quiet.answered
  known x t known := by
    rw [prime_ticket?] at known
    split at known
    · obtain rfl := Option.some.inj known
      exact ⟨_, rfl⟩
    · exact quiet.known x t known

theorem Quiet.withBatch {l : Loader κ ν} (quiet : Quiet l) (key : κ) (answer : Answer κ ν) :
    Quiet (l.withBatch key (.answered answer)) where
  answered b mem := by
    rcases List.mem_append.mp mem with old | new
    · exact quiet.answered b old
    · rw [List.mem_singleton.mp new]
      rfl
  known x t known := by
    have tickets : (l.withBatch key (.answered answer)).ticket? x = _ := ticket?_cons l key x _
    rw [tickets] at known
    split at known
    · obtain rfl := Option.some.inj known
      exact ⟨_, withBatch_read l key answer x⟩
    · obtain ⟨result, before⟩ := quiet.known x t known
      exact ⟨result, read_withBatch before key _⟩

inductive Fetches (backend : Backend κ ν σ) (key : κ) :
    Loader κ ν → σ → Except Fault (Option ν) → Loader κ ν → σ → Prop
  | known {l : Loader κ ν} {s : σ} {t : Ticket ν} {result : Except Fault (Option ν)} :
      l.ticket? key = some t → l.read key t = some result → Fetches backend key l s result l s
  | fresh {l : Loader κ ν} {s : σ} : l.ticket? key = none →
      Fetches backend key l s ((backend [key] s).1.map (· key)) (l.withBatch key (.answered (backend [key] s).1))
        (backend [key] s).2

theorem Quiet.fetches {l : Loader κ ν} (quiet : Quiet l) (backend : Backend κ ν σ) (key : κ) (s : σ) :
    ∃ result l' s', Fetches backend key l s result l' s' := by
  cases ticket : l.ticket? key with
  | none => exact ⟨_, _, _, .fresh ticket⟩
  | some t =>
    obtain ⟨result, read⟩ := quiet.known key t ticket
    exact ⟨_, _, _, .known ticket read⟩

namespace Fetches

variable {backend : Backend κ ν σ} {key : κ} {l l' : Loader κ ν} {s s' : σ}
  {result : Except Fault (Option ν)}

theorem quiet (f : Fetches backend key l s result l' s') (before : Quiet l) : Quiet l' := by
  cases f with
  | known => exact before
  | fresh => exact before.withBatch _ _

end Fetches

theorem Quiet.enqueue_fresh {l : Loader κ ν} (quiet : Quiet l) {key : κ}
    (unknown : l.ticket? key = none) :
    l.enqueue key = (.batch l.batches.length, l.withBatch key (.gathering none)) := by
  rw [enqueue_of_unknown unknown, join, newest]
  cases last : l.batches.getLast? with
  | none => rfl
  | some b =>
    have closed := quiet.answered b (List.mem_of_getLast? last)
    simp only [Batch.hasRoom, closed, Bool.false_and]
    rfl

/-- The schedule of one lookup: it waits for a delay if it opened a batch, and sends that batch itself. -/
theorem Fetches.run {backend : Backend κ ν σ} {key : κ} {l l' : Loader κ ν} {s s' : σ}
    {result : Except Fault (Option ν)} (f : Fetches backend key l s result l' s') (quiet : Quiet l)
    (now : Nat) : ∃ now', l.run backend now s [.load key] = ([.loaded result], now', l', s') := by
  cases f with
  | known ticket read =>
    have enqueued := enqueue_of_ticket ticket
    have awaited : l.await backend now key _ s = (some result, l, s) := await_of_read read now s
    refine ⟨now, ?_⟩
    simp only [Loader.run, launchAll, launch, enqueued, Running.poll, awaited, finish_of_finished]
    rfl
  | fresh unknown =>
    have enqueued := quiet.enqueue_fresh unknown
    refine ⟨now + l.delay, ?_⟩
    have length : (l.withBatch key (.gathering (some (now + l.delay)))).batches.length = l.batches.length + 1 := by
      simp [withBatch]
    have next : (l.withBatch key (.gathering (some (now + l.delay)))).nextDue
        [Running.loading key (.batch l.batches.length)] = some (now + l.delay) := by
      simp [nextDue, Running.waitsFor, due?, withBatch_here]
    simp only [Loader.run, launchAll, launch, enqueued, Running.poll, await_opened, length, finish, next,
      Nat.max_eq_right (Nat.le_add_right now l.delay), Running.pollAll, await_due l key (Nat.le_refl _),
      finish_of_finished]
    rfl

end Keys

end InfraGraph.Loader
