import InfraGraph.Proofs.Loader.Invisible
import InfraGraph.Proofs.Loader.Provenance

/-!
One answer for each key. Lookups of a key that begin before it is primed share the answer of one batch,
good or bad, and that batch is called for once. Lookups that begin after it was primed get its last value,
and it enters no batch any more. So it is in every interleaving, and under a clock every lookup that is not
dropped has such an answer in the end.
-/

namespace InfraGraph.Loader

variable {κ ν σ : Type}

theorem tasksOf_operations {os : List (Operation κ ν)} {rs : List (Running κ ν)}
    (same : os.length = rs.length) : (tasksOf os rs).map Task.operation = os := by
  induction os generalizing rs with
  | nil => rfl
  | cons o os ih =>
    cases rs with
    | nil => simp at same
    | cons r rs => simpa [tasksOf] using ih (Nat.succ.inj same)

theorem tasksOf_phases {os : List (Operation κ ν)} {rs : List (Running κ ν)}
    (same : os.length = rs.length) (ended : ∀ r ∈ rs, ∃ outcome, r = .finished outcome) :
    (tasksOf os rs).map Task.phase = (rs.map Running.outcome).map fun out => .running (.finished out) := by
  induction os generalizing rs with
  | nil => simp [List.length_eq_zero_iff.mp same.symm, tasksOf]
  | cons o os ih =>
    cases rs with
    | nil => simp at same
    | cons r rs =>
      obtain ⟨outcome, rfl⟩ := ended r (by simp)
      simpa [tasksOf, Running.outcome] using
        ih (Nat.succ.inj same) fun r mem => ended r (List.mem_cons_of_mem _ mem)

section Keys

variable [DecidableEq κ]

/-- A task drew a ticket for a key and took its answer later, which is what the key got by then. -/
def Provided (h : List (Event κ ν)) (i : Nat) (k : κ) (t : Ticket ν)
    (answer : Except Fault (Option ν)) : Prop :=
  ∃ past later, h = past ++ .drew i k t :: later ∧ .took i k t answer ∈ later ∧ Gets h past k answer

structure Shared (h : List (Event κ ν)) (w : Traffic κ ν) : Prop where
  taken : ∀ i k t answer, .took i k t answer ∈ h → Provided h i k t answer
  /-- A single lookup waits, or ended with what its key got, or was dropped. -/
  lookup : ∀ (i : Nat) (o : Operation κ ν) (p : Phase κ ν) (k : κ), w.tasks[i]? = some ⟨o, p⟩ →
    o = .load k ∨ o = .abandon k → ∃ t past later, Looks h i k t past later ∧
      Looking k t (Gets h past k) (.dropped i ∈ h) p
  /-- A `loadMany` comes to what the answers of its keys come to, in their order. -/
  lookups : ∀ (i : Nat) (ks : List κ) (p : Phase κ ν), w.tasks[i]? = some ⟨.loadMany ks, p⟩ →
    Collecting (fun k answer => ∃ t, Provided h i k t answer) (.dropped i ∈ h) ks p
  /-- All lookups of a key that began before it was primed get the same. -/
  alike : ∀ k past past' answer answer', Gets h past k answer → Gets h past' k answer' →
    lastPrimed past k = none → lastPrimed past' k = none → answer = answer'
  failed : ∀ b keys f, .answered b keys (.error f) ∈ h → ∀ k ∈ keys, ∀ past answer,
    Gets h past k answer → lastPrimed past k = none → answer = .error f
  /-- A batch has one answer, also if it failed, and its keys are in no other call. -/
  once : ∀ b keys a, .answered b keys a ∈ h →
    (∀ keys' a', .answered b keys' a' ∈ h → keys = keys' ∧ a = a') ∧
    ∀ k ∈ keys, firstBatch k h = some b ∧ (calls h).filter (k ∈ ·.2) = [(b, keys)]
  /-- A key that was primed enters no batch, whatever became of the batch it was in. -/
  primed : ∀ k v, lastPrimed h k = some v → w.loader.enqueue k = (.primed v, w.loader)
  known : ∀ k b, lastPrimed h k = none → firstBatch k h = some b →
    w.loader.enqueue k = (.batch b, w.loader)
  /-- Whatever the backend answers from now on, an operation can be brought to its end. -/
  ends : ∀ reply i o p, w.tasks[i]? = some ⟨o, p⟩ → CanEnd reply i o w

theorem History.provided {s : LoaderSettings} {h : List (Event κ ν)} {w : Traffic κ ν}
    (run : History ⟨new s, []⟩ h w) {i : Nat} {k : κ} {t : Ticket ν}
    {answer : Except Fault (Option ν)} (mem : .took i k t answer ∈ h) : Provided h i k t answer := by
  obtain ⟨past, later, parts, took⟩ := run.took_after mem
  exact ⟨past, later, parts, took, run.gets parts mem⟩

theorem History.shared {s : LoaderSettings} {h : List (Event κ ν)} {w : Traffic κ ν}
    (run : History ⟨new s, []⟩ h w) : Shared h w where
  taken _ _ _ _ := run.provided
  lookup i o p k here single := by
    obtain ⟨t, past, later, looks, looking⟩ := run.looks here single
    have inside : ∀ e ∈ later, e ∈ h := fun e mem => by simp [looks.parts, mem]
    exact ⟨t, past, later, looks,
      looking.imp (fun answer took => run.gets looks.parts (inside _ took)) (inside _)⟩
  lookups _ _ _ here := (run.collects here).imp (fun _ _ ⟨t, mem⟩ => ⟨t, run.provided mem⟩) id
  alike _ _ _ _ _ := run.alike
  failed _ _ _ came _ mem _ _ := run.failed came mem
  once _ _ _ came := ⟨fun _ _ => run.answer_unique came, fun _ => run.answered_key came⟩
  primed _ _ last := run.enqueue_eq (ticketAfter_eq_primed.mpr last)
  known _ _ unprimed first := run.enqueue_eq (ticketAfter_eq_batch.mpr ⟨unprimed, first⟩)
  ends reply _ _ _ here := run.canEnd reply here

theorem LaunchesAll.dropped {backend : Backend κ ν σ} {l l' : Loader κ ν} {ts : List (Task κ ν)}
    {os : List (Operation κ ν)} {h : List (Event κ ν)} {rs : List (Running κ ν)}
    (a : LaunchesAll backend l ts os h rs l') {i : Nat} (mem : .dropped i ∈ h) :
    ∃ k, (ts.map Task.operation ++ os)[i]? = some (.abandon k) := by
  induction a with
  | nil _ _ => simp at mem
  | cons first _ ih =>
    rcases List.mem_append.mp mem with here | later
    · obtain ⟨rfl, ⟨k, rfl⟩, _⟩ := first.dropped i here
      exact ⟨k, by simp⟩
    · simpa using ih later

/-- Steps under a clock as a history: every operation of theirs ends, and only lookups that were meant to
be dropped are. -/
structure Concludes (backend : Backend κ ν σ) (w : Traffic κ ν) (os : List (Operation κ ν))
    (outs : List (Outcome κ ν)) (h : List (Event κ ν)) (w' : Traffic κ ν) : Prop where
  plays : Plays backend w h w'
  operations : w'.tasks.map Task.operation = w.tasks.map Task.operation ++ os
  phases : w'.tasks.map Task.phase =
    w.tasks.map Task.phase ++ outs.map fun out => .running (.finished out)
  dropped : ∀ i, .dropped i ∈ h → ∃ k, (w'.tasks.map Task.operation)[i]? = some (.abandon k)

theorem run_concludes (backend : Backend κ ν σ) {st : LoaderSettings} {h₀ : List (Event κ ν)}
    {l : Loader κ ν} {ts : List (Task κ ν)} (before : History ⟨new st, []⟩ h₀ ⟨l, ts⟩) (calm : Calm l)
    (now : Nat) (s : σ) (os : List (Operation κ ν)) :
    ∃ h ts', Concludes backend ⟨l, ts⟩ os (l.run backend now s os).1 h
      ⟨(l.run backend now s os).2.2.1, ts'⟩ ∧ Calm (l.run backend now s os).2.2.1 := by
  obtain ⟨h, rs, l₁, rs', launches, passes, ended, outcomes⟩ := run_phases backend before calm now s os
  obtain ⟨idle, plays, quiet⟩ := passes.idles
  have same : os.length = rs'.length := launches.length.trans passes.keeps.length_eq
  refine ⟨h ++ idle, ts ++ tasksOf os rs', ⟨launches.plays.append plays, ?_, ?_, fun i mem => ?_⟩,
    passes.calm⟩
  · simp [tasksOf_operations same]
  · simpa [outcomes] using tasksOf_phases same ended
  · rcases List.mem_append.mp mem with here | waiting
    · simpa [tasksOf_operations same] using launches.dropped here
    · exact absurd (quiet _ waiting) (by simp [Event.isIdle])

theorem runSteps_concludes (backend : Backend κ ν σ) {st : LoaderSettings}
    (steps : List (Nat × List (Operation κ ν))) {h₀ : List (Event κ ν)} {l : Loader κ ν}
    {ts : List (Task κ ν)} (before : History ⟨new st, []⟩ h₀ ⟨l, ts⟩) (calm : Calm l) (now : Nat)
    (s : σ) :
    ∃ h w, Concludes backend ⟨l, ts⟩ (steps.flatMap Prod.snd)
      (runSteps backend now l s steps).flatten h w := by
  induction steps generalizing h₀ l ts now s with
  | nil => exact ⟨[], _, .nil _, by simp, by simp [runSteps], by simp⟩
  | cons step steps ih =>
    obtain ⟨pause, os⟩ := step
    obtain ⟨h, ts', first, calm'⟩ := run_concludes backend before calm (now + pause) s os
    obtain ⟨h', w, rest⟩ := ih (before.append first.plays.history) calm'
      (l.run backend (now + pause) s os).2.1 (l.run backend (now + pause) s os).2.2.2
    refine ⟨h ++ h', w, first.plays.append rest.plays, ?_, ?_, fun i mem => ?_⟩
    · rw [rest.operations, first.operations]
      simp
    · rw [rest.phases, first.phases]
      simp [runSteps]
    · rcases List.mem_append.mp mem with here | later
      · obtain ⟨k, abandoned⟩ := first.dropped i here
        have inside := (List.getElem?_eq_some_iff.mp abandoned).1
        exact ⟨k, by rw [rest.operations, List.getElem?_append_left inside, abandoned]⟩
      · exact rest.dropped i later

/-- In every interleaving, whatever the backend answers, the lookups of a key that began before it was
primed share one answer, the one of the batch that it entered first; the keys of a failed batch share its
fault, and none is sent again. Lookups that began later get the value that the key was primed with last,
and the key enters no batch. Under a clock every single lookup that is not to be dropped is answered. -/
theorem one_answer_per_key (st : LoaderSettings) :
    (∀ (h : List (Event κ ν)) (w : Traffic κ ν), History ⟨new st, []⟩ h w → Shared h w) ∧
    ∀ (σ : Type) (backend : Backend κ ν σ) (now : Nat) (s : σ)
      (steps : List (Nat × List (Operation κ ν))), ∃ h w,
        Concludes backend ⟨new st, []⟩ (steps.flatMap Prod.snd)
          (runSteps backend now (new st) s steps).flatten h w ∧
        ∀ (i : Nat) (k : κ) (p : Phase κ ν), w.tasks[i]? = some ⟨.load k, p⟩ →
          ∃ answer, p = .running (.finished (.loaded answer)) := by
  refine ⟨fun h w run => run.shared, fun σ backend now s steps => ?_⟩
  have start : History ⟨new st, []⟩ [] (⟨new st, []⟩ : Traffic κ ν) := .nil
  obtain ⟨h, w, ends⟩ := runSteps_concludes backend steps start (by simp [Calm, new]) now s
  refine ⟨h, w, ends, fun i k p here => ?_⟩
  obtain ⟨t, past, later, _, looking⟩ := ends.plays.history.shared.lookup i _ p k here (.inl rfl)
  cases looking with
  | waiting =>
    have phase : .running (.loading k t) ∈ w.tasks.map Task.phase :=
      List.mem_map_of_mem (List.mem_of_getElem? here)
    simp [ends.phases] at phase
  | answered _ => exact ⟨_, rfl⟩
  | dropped gone =>
    obtain ⟨k', abandoned⟩ := ends.dropped i gone
    simp [here] at abandoned

end Keys

/-- Two lookups fill a batch, which fails; one of its keys is primed before it is sent, and the other is
looked up again afterwards. -/
def failedBatch : List (Event Nat Nat) :=
  [.drew 0 1 (.batch 0), .drew 1 2 (.batch 0), .primed 1 9, .drew 3 1 (.primed 9), .sent 0 [1, 2],
    .answered 0 [1, 2] (.error (.internal "down")),
    .took 0 1 (.batch 0) (.error (.internal "down")), .took 3 1 (.primed 9) (.ok (some 9)),
    .drew 4 2 (.batch 0), .took 4 2 (.batch 0) (.error (.internal "down"))]

def afterFailure : Traffic Nat Nat where
  loader := ⟨2, 1, [⟨[1, 2], .answered (.error (.internal "down"))⟩],
    [(1, .primed 9), (2, .batch 0), (1, .batch 0)]⟩
  tasks := [⟨.load 1, .running (.finished (.loaded (.error (.internal "down"))))⟩,
    ⟨.load 2, .running (.loading 2 (.batch 0))⟩, ⟨.prime 1 9, .running (.finished .primed)⟩,
    ⟨.load 1, .running (.finished (.loaded (.ok (some 9))))⟩,
    ⟨.load 2, .running (.finished (.loaded (.error (.internal "down"))))⟩]

theorem one_answer_per_key_failed_batch :
    Shared failedBatch afterFailure ∧
    ∃ h w, Concludes doubler ⟨new ⟨1, 2⟩, []⟩ [.load 1, .load 2]
        (runSteps doubler 0 (new ⟨1, 2⟩) [] [(0, [.load 1, .load 2])]).flatten h w ∧
      ∀ (i k : Nat) (p : Phase Nat Nat), w.tasks[i]? = some ⟨.load k, p⟩ →
        ∃ answer, p = .running (.finished (.loaded answer)) := by
  have drew := (((History.nil (w := ⟨new ⟨1, 2⟩, []⟩)).snoc (.load 1 (.inl rfl))).snoc
    (.load 2 (.inl rfl))).snoc (.prime 1 9) |>.snoc (.load 1 (.inl rfl))
  have sent := drew.snoc (.send (i := 0) (close_eq_some.mpr ⟨none, rfl, rfl⟩))
  have failed := sent.snoc
    (.answer (i := 0) (.error (.internal "down")) rfl (settle_eq_some.mpr ⟨[1, 2], rfl, rfl⟩))
  have took := (failed.snoc (.take (i := 0) (o := .load 1) (r := .loading 1 (.batch 0)) rfl rfl rfl)).snoc
    (.take (i := 3) (o := .load 1) (r := .loading 1 (.primed 9)) rfl rfl rfl)
  have run : History ⟨new ⟨1, 2⟩, []⟩ failedBatch afterFailure :=
    (took.snoc (.load 2 (.inl rfl))).snoc
      (.take (i := 4) (o := .load 2) (r := .loading 2 (.batch 0)) rfl rfl rfl)
  obtain ⟨interleaved, clocked⟩ := @one_answer_per_key Nat Nat _ ⟨1, 2⟩
  exact ⟨interleaved _ _ run, clocked _ doubler 0 [] [(0, [.load 1, .load 2])]⟩

end InfraGraph.Loader
