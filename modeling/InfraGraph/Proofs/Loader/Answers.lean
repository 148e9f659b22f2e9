import InfraGraph.Proofs.Loader.Dispatch
import InfraGraph.Proofs.Loader.PlainMap

/-!
Answers in a history of a loader whose backend never fails and answers by a function. Whatever happens in
between, an operation ends with what its keys stood for when it enqueued them, and every operation that
has begun can be brought to its end.
-/

namespace InfraGraph.Loader

variable {κ ν : Type}

/-- Every answer of the backend gives the keys of its call what the function gives; it may know more. -/
def FromFunction (f : κ → Option ν) (h : List (Event κ ν)) : Prop :=
  ∀ i keys answer, .answered i keys answer ∈ h → ∃ g, answer = .ok g ∧ ∀ k ∈ keys, g k = f k

theorem FromFunction.append {f : κ → Option ν} {h h' : List (Event κ ν)} (a : FromFunction f h)
    (b : FromFunction f h') : FromFunction f (h ++ h') := fun i keys answer mem =>
  (List.mem_append.mp mem).elim (a i keys answer) (b i keys answer)

theorem Drawn.holds {h : List (Event κ ν)} {l : Loader κ ν} {k : κ} {t : Ticket ν}
    (d : Drawn h l k t) : Holds l k t := by
  rintro i rfl
  exact d

theorem fromFunction_of_silent (f : κ → Option ν) {h : List (Event κ ν)}
    (silent : ∀ i keys answer, .answered i keys answer ∉ h) : FromFunction f h :=
  fun i keys answer mem => absurd mem (silent i keys answer)

/-- Every answer of the backend is the reply to the batch of that number with its keys. -/
def Replying (reply : Nat → List κ → Answer κ ν) (h : List (Event κ ν)) : Prop :=
  ∀ i keys answer, .answered i keys answer ∈ h → answer = reply i keys

theorem Replying.append {reply : Nat → List κ → Answer κ ν} {h h' : List (Event κ ν)}
    (a : Replying reply h) (b : Replying reply h') : Replying reply (h ++ h') :=
  fun i keys answer mem => (List.mem_append.mp mem).elim (a i keys answer) (b i keys answer)

theorem replying_of_silent (reply : Nat → List κ → Answer κ ν) {h : List (Event κ ν)}
    (silent : ∀ i keys answer, .answered i keys answer ∉ h) : Replying reply h :=
  fun i keys answer mem => absurd mem (silent i keys answer)

theorem replying_answered (reply : Nat → List κ → Answer κ ν) (i : Nat) (keys : List κ) :
    Replying reply [.answered i keys (reply i keys)] := by
  intro j keys' answer mem
  obtain ⟨rfl, rfl, rfl⟩ : j = i ∧ keys' = keys ∧ answer = reply i keys := by simpa using mem
  rfl

theorem Replying.fromFunction {f : κ → Option ν} {h : List (Event κ ν)}
    (a : Replying (fun _ _ => .ok f) h) : FromFunction f h :=
  fun i keys answer mem => ⟨f, a i keys answer mem, fun _ _ => rfl⟩

/-- How many steps of its own a task is from its end, at most. -/
def Phase.left : Phase κ ν → Nat
  | enqueuing drawn rest => 2 * rest.length + drawn.length + 2
  | running (.finished _) => 0
  | running (.loading _ _) => 1
  | running (.gathering rest _) => rest.length + 1

theorem Running.take_left {r : Running κ ν} {p : κ × Ticket ν} (next : r.next? = some p)
    (answer : Except Fault (Option ν)) :
    (Phase.running (r.take answer)).left < (Phase.running r).left := by
  cases r with
  | finished _ => simp [next?] at next
  | loading k t => simp [take, Phase.left]
  | gathering rest found =>
    cases rest with
    | nil => simp [next?] at next
    | cons head rest => rcases answer with f | _ | v <;> simp [take, Phase.left]

section Keys

variable [DecidableEq κ]

def mapAfter (m : κ → Option ν) : List (Event κ ν) → κ → Option ν
  | [] => m
  | .primed k v :: h => mapAfter (Function.update m k (some v)) h
  | _ :: h => mapAfter m h

def asked (i : Nat) (m : κ → Option ν) : List (Event κ ν) → List (κ × Option ν)
  | [] => []
  | .drew j k _ :: h => if j = i then (k, m k) :: asked i m h else asked i m h
  | .primed k v :: h => asked i (Function.update m k (some v)) h
  | _ :: h => asked i m h

theorem mapAfter_append (m : κ → Option ν) (h h' : List (Event κ ν)) :
    mapAfter m (h ++ h') = mapAfter (mapAfter m h) h' := by
  induction h generalizing m with
  | nil => rfl
  | cons e h ih => cases e <;> simp [mapAfter, ih]

theorem asked_append (i : Nat) (m : κ → Option ν) (h h' : List (Event κ ν)) :
    asked i m (h ++ h') = asked i m h ++ asked i (mapAfter m h) h' := by
  induction h generalizing m with
  | nil => rfl
  | cons e h ih =>
    cases e with
    | drew j k t =>
      by_cases hj : j = i
      · simp [asked, mapAfter, ih, hj]
      · simp [asked, mapAfter, ih, hj]
    | _ => simp [asked, mapAfter, ih]

theorem asked_single (i : Nat) (m : κ → Option ν) {e : Event κ ν} (h : ∀ k t, e ≠ .drew i k t) :
    asked i m [e] = [] := by
  cases e with
  | drew j k t =>
    have hj : j ≠ i := by rintro rfl; exact h k t rfl
    simp [asked, hj]
  | _ => rfl

theorem Change.truthful {f : κ → Option ν} {l l' : Loader κ ν} {e : Event κ ν} (c : Change l e l')
    (truthful : Truthful f l) (honest : FromFunction f [e]) : Truthful f l' := by
  cases c with
  | quiet _ => exact truthful
  | enqueue _ k => exact truthful.enqueue k
  | prime _ _ => exact truthful
  | start _ _ => exact truthful.setStage (by simp)
  | send _ => exact truthful.setStage (by simp)
  | answer a h =>
    refine truthful.setStage fun answer same => ?_
    obtain ⟨g, ha, hg⟩ := honest _ _ _ (List.mem_singleton.mpr rfl)
    obtain rfl : a = answer := by simpa using same
    exact ⟨g, ha, by simpa [keysAt_of_getElem? h] using hg⟩

theorem Change.view_eq (f : κ → Option ν) {l l' : Loader κ ν} {e : Event κ ν} (c : Change l e l') :
    view f l' = mapAfter (view f l) [e] := by
  cases c with
  | quiet h =>
    cases e with
    | primed _ _ => simp [Event.isQuiet] at h
    | _ => rfl
  | enqueue _ k => exact view_enqueue f l k
  | prime k v => exact view_prime f l k v
  | start _ _ => rfl
  | send _ => rfl
  | answer _ _ => rfl

theorem Step.absent {w w' : Traffic κ ν} {e : Event κ ν} (step : Step w e w') {i : Nat}
    (h : w'.tasks[i]? = none) :
    w.tasks[i]? = none ∧ (∀ k t, e ≠ .drew i k t) ∧ e ≠ .dropped i := by
  rw [List.getElem?_eq_none_iff] at h ⊢
  cases step with
  | load k _ =>
    simp only [List.length_append, List.length_singleton] at h
    exact ⟨by simp only; omega, by rintro _ _ ⟨⟩; omega, by simp⟩
  | loadMany _ =>
    simp only [List.length_append, List.length_singleton] at h
    exact ⟨by simp only; omega, by simp, by simp⟩
  | enqueue here =>
    rw [List.length_set] at h
    have inside := (List.getElem?_eq_some_iff.mp here).1
    exact ⟨h, by rintro _ _ ⟨⟩; omega, by simp⟩
  | drop here _ =>
    rw [List.length_set] at h
    have inside := (List.getElem?_eq_some_iff.mp here).1
    exact ⟨h, by simp, by rintro ⟨⟩; omega⟩
  | prime _ _ =>
    simp only [List.length_append, List.length_singleton] at h
    exact ⟨by simp only; omega, by simp, by simp⟩
  | await _ => exact ⟨by simpa using h, by simp, by simp⟩
  | take _ _ _ => exact ⟨by simpa using h, by simp, by simp⟩
  | finish _ => exact ⟨by simpa using h, by simp, by simp⟩
  | start _ _ => exact ⟨h, by simp, by simp⟩
  | send _ => exact ⟨h, by simp, by simp⟩
  | answer _ _ _ => exact ⟨h, by simp, by simp⟩

structure Answering (f : κ → Option ν) (h : List (Event κ ν)) (w : Traffic κ ν) : Prop where
  truthful : Truthful f w.loader
  map : view f w.loader = mapAfter f h
  keeps : ∀ (i : Nat) (task : Task κ ν), w.tasks[i]? = some task →
    .dropped i ∈ h ∨ Keeps f task (asked i f h)
  absent : ∀ i : Nat, w.tasks[i]? = none → asked i f h = [] ∧ .dropped i ∉ h

namespace Answering

variable {f : κ → Option ν} {h : List (Event κ ν)} {w w' : Traffic κ ν} {e : Event κ ν}

theorem keeps_step (a : Answering f h w) (d : Dispatched h w) (step : Step w e w') (i : Nat)
    (task : Task κ ν) (hi : w'.tasks[i]? = some task) :
    .dropped i ∈ h ++ [e] ∨ Keeps f task (asked i f (h ++ [e])) := by
  rw [asked_append]
  rcases step.progress hi with ⟨old, quiet⟩ | progress
  · rw [asked_single i _ quiet, List.append_nil]
    exact (a.keeps i task old).imp_left (List.mem_append_left _)
  · generalize before : w.tasks[i]? = earlier at progress
    have value := fun k => (enqueue_value f w.loader k).trans (congrFun a.map k)
    cases progress with
    | load k single =>
      rw [(a.absent i before).1]
      refine .inr ?_
      simpa [asked, ← value k] using Keeps.loading (f := f) k (w.loader.enqueue k).1 single
    | loadMany ks =>
      rw [(a.absent i before).1]
      exact .inr (.enqueuing [] ks)
    | @enqueue o drawn k ks =>
      refine (a.keeps i _ before).imp (List.mem_append_left _) fun keeps => ?_
      generalize asked i f h = answers at keeps ⊢
      cases keeps with
      | enqueuing _ _ =>
        simpa [asked, ← value k] using
          Keeps.enqueuing (f := f) (drawn ++ [(k, (w.loader.enqueue k).1)]) ks
    | await =>
      rw [asked_single i _ (by simp), List.append_nil]
      exact (a.keeps i _ before).imp (List.mem_append_left _) Keeps.await
    | @take o r k t answer next read =>
      rw [asked_single i _ (by simp), List.append_nil]
      refine (a.keeps i _ before).imp (List.mem_append_left _) fun keeps => ?_
      have drawn := d.held _ (List.mem_of_getElem? before) _ (Running.next?_mem next)
      rw [read_value a.truthful drawn.holds read]
      exact keeps.take next
    | finish =>
      rw [asked_single i _ (by simp), List.append_nil]
      exact (a.keeps i _ before).imp (List.mem_append_left _) Keeps.finish
    | drop => exact .inl (by simp)
    | prime k v =>
      rw [(a.absent i before).1]
      exact .inr (.finished (.prime k v))

theorem step (a : Answering f h w) (d : Dispatched h w) (step : Step w e w')
    (honest : FromFunction f [e]) : Answering f (h ++ [e]) w' where
  truthful := step.change.truthful a.truthful honest
  map := by rw [step.change.view_eq, a.map, mapAfter_append]
  keeps := a.keeps_step d step
  absent i none := by
    obtain ⟨none, quiet, kept⟩ := step.absent none
    obtain ⟨silent, past⟩ := a.absent i none
    rw [asked_append, silent, asked_single i _ quiet]
    exact ⟨rfl, by simp [past, kept.symm]⟩

end Answering

theorem History.answering {f : κ → Option ν} {s : LoaderSettings} {h : List (Event κ ν)}
    {w : Traffic κ ν} (run : History ⟨new s, []⟩ h w) (honest : FromFunction f h) :
    Answering f h w := by
  induction run with
  | nil => exact ⟨by simp [Truthful, new], rfl, by simp, fun _ _ => ⟨rfl, by simp⟩⟩
  | snoc before step ih =>
    have past := ih fun i keys answer mem => honest i keys answer (List.mem_append_left _ mem)
    exact past.step before.dispatched step fun i keys answer mem =>
      honest i keys answer (List.mem_append_right _ mem)

def CanEnd (reply : Nat → List κ → Answer κ ν) (i : Nat) (o : Operation κ ν) (w : Traffic κ ν) :
    Prop :=
  ∃ h w', History w h w' ∧ Replying reply h ∧ (∀ j, .dropped j ∉ h) ∧
    ∃ outcome, w'.tasks[i]? = some ⟨o, .running (.finished outcome)⟩

theorem CanEnd.after {reply : Nat → List κ → Answer κ ν} {i : Nat} {o : Operation κ ν}
    {w w' : Traffic κ ν} {h : List (Event κ ν)} (later : CanEnd reply i o w')
    (run : History w h w') (honest : Replying reply h) (kept : ∀ j, .dropped j ∉ h) :
    CanEnd reply i o w := by
  obtain ⟨h', w'', run', honest', kept', done⟩ := later
  refine ⟨h ++ h', w'', run.append run', honest.append honest', fun j mem => ?_, done⟩
  exact (List.mem_append.mp mem).elim (kept j) (kept' j)

theorem exists_answer (answer : Answer κ ν) {l : Loader κ ν} {i : Nat} {keys : List κ} (k : κ)
    (ts : List (Task κ ν)) (sent : l.batches[i]? = some ⟨keys, .sent⟩) :
    History ⟨l, ts⟩ [.answered i keys answer] ⟨l.setStage i (.answered answer), ts⟩ ∧
      (l.setStage i (.answered answer)).read k (.batch i) = some (answer.map (· k)) := by
  refine ⟨.single (.answer _ sent (settle_eq_some.mpr ⟨keys, sent, rfl⟩)), ?_⟩
  simp [read, setStage_here _ sent]

theorem exists_ready (reply : Nat → List κ → Answer κ ν) {l : Loader κ ν} {k : κ} {t : Ticket ν}
    (holds : Holds l k t) (ts : List (Task κ ν)) :
    ∃ h l', History ⟨l, ts⟩ h ⟨l', ts⟩ ∧ Replying reply h ∧ (∀ j, .dropped j ∉ h) ∧
      ∃ answer, l'.read k t = some answer := by
  cases t with
  | primed v =>
    exact ⟨[], l, .nil, replying_of_silent reply (by simp), by simp, .ok (some v), rfl⟩
  | batch i =>
    obtain ⟨⟨keys, stage⟩, here, -⟩ := exists_batch_of_mem_keysAt (holds i rfl)
    cases stage with
    | gathering due =>
      have send : Step ⟨l, ts⟩ (.sent i keys) ⟨l.setStage i .sent, ts⟩ :=
        .send (close_eq_some.mpr ⟨due, here, rfl⟩)
      obtain ⟨answer, read⟩ := exists_answer (reply i keys) k ts (setStage_here .sent here)
      have silent : Replying reply [.sent i keys] := replying_of_silent reply (by simp)
      exact ⟨_, _, (History.single send).append answer,
        silent.append (replying_answered reply i keys), by simp, _, read⟩
    | sent =>
      obtain ⟨answer, read⟩ := exists_answer (reply i keys) k ts here
      exact ⟨_, _, answer, replying_answered reply i keys, by simp, _, read⟩
    | answered a =>
      exact ⟨[], l, .nil, replying_of_silent reply (by simp), by simp, a.map (· k),
        by simp [read, here]⟩

theorem History.canEnd (reply : Nat → List κ → Answer κ ν) {s : LoaderSettings}
    {h : List (Event κ ν)} {w : Traffic κ ν} (run : History ⟨new s, []⟩ h w) {i : Nat}
    {o : Operation κ ν} {p : Phase κ ν} (here : w.tasks[i]? = some ⟨o, p⟩) : CanEnd reply i o w := by
  -- each step of the task itself brings it closer to its end
  induction hn : p.left using Nat.strongRecOn generalizing h w p with
  | ind n ih =>
  subst hn
  have inside := (List.getElem?_eq_some_iff.mp here).1
  have moves : ∀ {e : Event κ ν} {l' : Loader κ ν} {p' : Phase κ ν},
      Step w e ⟨l', w.tasks.set i ⟨o, p'⟩⟩ → p'.left < p.left →
        (∀ j keys answer, e ≠ .answered j keys answer) → (∀ j, e ≠ .dropped j) →
          CanEnd reply i o w := by
    intro e l' p' step less silent kept
    have later := ih p'.left less (run.snoc step) (p := p') (by simp [inside]) rfl
    have honest : Replying reply [e] := replying_of_silent reply fun j keys answer mem =>
      silent j keys answer (List.mem_singleton.mp mem).symm
    exact later.after (.single step) honest fun j mem => kept j (List.mem_singleton.mp mem).symm
  cases p with
  | enqueuing drawn rest =>
    cases rest with
    | nil => exact moves (.await here) (by simp [Phase.left]) (by simp) (by simp)
    | cons k ks =>
      exact moves (.enqueue here) (by simp [Phase.left]; omega) (by simp) (by simp)
  | running r =>
    cases hnext : r.next? with
    | some next =>
      obtain ⟨k, t⟩ := next
      have drawn := run.dispatched.held _ (List.mem_of_getElem? here) _ (Running.next?_mem hnext)
      obtain ⟨h', l', ready, honest, kept, answer, read⟩ := exists_ready reply drawn.holds w.tasks
      have step := Step.take here hnext read
      have later := ih _ (Running.take_left hnext answer) ((run.append ready).snoc step)
        (p := .running (r.take answer)) (by simp [inside]) rfl
      have silent : Replying reply [.took i k t answer] := replying_of_silent reply (by simp)
      refine later.after (ready.snoc step) (honest.append silent) fun j mem => ?_
      rcases List.mem_append.mp mem with old | new
      · exact kept j old
      · simp at new
    | none =>
      cases r with
      | finished outcome =>
        exact ⟨[], w, .nil, replying_of_silent reply (by simp), by simp, outcome, here⟩
      | loading k t => simp [Running.next?] at hnext
      | gathering rest found =>
        obtain rfl : rest = [] := by simpa [Running.next?] using hnext
        exact moves (.finish here) (by simp [Phase.left]) (by simp) (by simp)

/-- A task can be brought to its end without being dropped, by a backend that answers by the function. -/
def CanFinish (f : κ → Option ν) (i : Nat) (o : Operation κ ν) (w : Traffic κ ν) : Prop :=
  ∃ h w', History w h w' ∧ FromFunction f h ∧ (∀ j, .dropped j ∉ h) ∧
    ∃ outcome, w'.tasks[i]? = some ⟨o, .running (.finished outcome)⟩

theorem History.canFinish (f : κ → Option ν) {s : LoaderSettings} {h : List (Event κ ν)}
    {w : Traffic κ ν} (run : History ⟨new s, []⟩ h w) {i : Nat} {o : Operation κ ν} {p : Phase κ ν}
    (here : w.tasks[i]? = some ⟨o, p⟩) : CanFinish f i o w := by
  obtain ⟨h', w', run', honest, kept, done⟩ := run.canEnd (fun _ _ => .ok f) here
  exact ⟨h', w', run', honest.fromFunction, kept, done⟩

end Keys

end InfraGraph.Loader
