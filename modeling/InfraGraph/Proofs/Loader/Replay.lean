import InfraGraph.Proofs.Loader.Answers
import InfraGraph.Proofs.Loader.Completion

/-!
Runs under a clock are histories. Each poll is a row of steps of the operation that is polled and of the
batches that it awaits, and each launch is a row of steps of a new task. So what holds of every history
holds of the operations that run under a clock.
-/

namespace InfraGraph.Loader

variable {κ ν σ : Type}

theorem set_of_getElem? {α : Type} {xs : List α} {i : Nat} {a : α} (h : xs[i]? = some a) :
    xs.set i a = xs := by
  obtain ⟨inside, rfl⟩ := List.getElem?_eq_some_iff.mp h
  exact List.set_getElem_self inside

theorem set_concat {α : Type} (xs : List α) (a b : α) (ys : List α) :
    (xs ++ a :: ys).set xs.length b = xs ++ b :: ys := by
  simp only [List.set_append_right _ _ (Nat.le_refl _), Nat.sub_self, List.set_cons_zero]

theorem Enters.later {l l' : Loader κ ν} {k : κ} {i : Nat} {t : Ticket ν} (e : Enters l k i t l') :
    Later l l' := by
  intro j b hb
  by_cases hj : j = i
  · subst hj
    obtain ⟨due, after, ⟨none, _⟩ | ⟨before, _⟩⟩ := e.here
    · simp [none] at hb
    · obtain rfl : _ = b := Option.some.inj (before.symm.trans hb)
      exact ⟨_, after, fun x hx => List.mem_append_left _ hx, .same _⟩
  · exact ⟨b, by rw [e.other j hj, hb], fun _ => id, .same _⟩

theorem Enters.calm {l l' : Loader κ ν} {k : κ} {i : Nat} {t : Ticket ν} (e : Enters l k i t l')
    (calm : Calm l) : Calm l' := by
  intro j b hb
  by_cases hj : j = i
  · obtain ⟨due, after, _⟩ := e.here
    obtain rfl : _ = b := Option.some.inj (after.symm.trans (hj ▸ hb))
    simp
  · exact calm j b (by rw [← e.other j hj, hb])

section Later

variable [DecidableEq κ]

theorem enqueue_later (l : Loader κ ν) (k : κ) : Later l (l.enqueue k).2 :=
  enqueue_induction (.refl l) fun _ _ _ _ e => e.later

theorem Calm.enqueue {l : Loader κ ν} (calm : Calm l) (k : κ) : Calm (l.enqueue k).2 :=
  enqueue_induction calm fun _ _ _ _ e => e.calm calm

theorem enqueueAll_later (l : Loader κ ν) (ks : List κ) : Later l (l.enqueueAll ks).2 := by
  induction ks generalizing l with
  | nil => exact .refl l
  | cons k ks ih => exact (enqueue_later l k).trans (ih _)

theorem Calm.enqueueAll {l : Loader κ ν} (calm : Calm l) (ks : List κ) :
    Calm (l.enqueueAll ks).2 := by
  induction ks generalizing l with
  | nil => exact calm
  | cons k ks ih => exact ih (calm.enqueue k)

end Later

def Event.isIdle : Event κ ν → Bool
  | drew _ _ _ => false
  | primed _ _ => false
  | dropped _ => false
  | _ => true

theorem PollsAll.keeps {backend : Backend κ ν σ} {now : Nat} {rs rs' : List (Running κ ν)}
    {l l' : Loader κ ν} {s s' : σ}
    (p : PollsAll backend now rs l s rs' l' s') :
    List.Forall₂ (fun r r' => ∀ outcome, r = .finished outcome → r' = r) rs rs' := by
  induction p with
  | nil _ _ => exact .nil
  | cons polls _ ih =>
    refine .cons ?_ ih
    rintro outcome rfl
    cases polls with
    | finished _ _ _ => rfl
    | wait next _ => rfl
    | take next _ _ => simp [Running.next?] at next

section Plays

variable [DecidableEq κ]

/-- A history in which the answers are those of a backend. -/
structure Plays (backend : Backend κ ν σ) (w : Traffic κ ν) (h : List (Event κ ν))
    (w' : Traffic κ ν) : Prop where
  history : History w h w'
  given : ∀ i keys answer, .answered i keys answer ∈ h → ∃ s, answer = (backend keys s).1

variable {backend : Backend κ ν σ}

theorem Plays.nil (w : Traffic κ ν) : Plays backend w [] w where
  history := .nil
  given := by simp

theorem Plays.append {w w' w'' : Traffic κ ν} {h h' : List (Event κ ν)}
    (first : Plays backend w h w') (second : Plays backend w' h' w'') :
    Plays backend w (h ++ h') w'' where
  history := first.history.append second.history
  given i keys answer mem :=
    (List.mem_append.mp mem).elim (first.given i keys answer) (second.given i keys answer)

theorem Plays.single {w w' : Traffic κ ν} {e : Event κ ν} (step : Step w e w')
    (silent : ∀ i keys answer, e ≠ .answered i keys answer) : Plays backend w [e] w' where
  history := .single step
  given i keys answer mem := absurd (List.mem_singleton.mp mem).symm (silent i keys answer)

def Idles (backend : Backend κ ν σ) (w w' : Traffic κ ν) : Prop :=
  ∃ h, Plays backend w h w' ∧ ∀ e ∈ h, e.isIdle

theorem Idles.refl (w : Traffic κ ν) : Idles backend w w :=
  ⟨[], .nil w, by simp⟩

theorem Idles.trans {w w' w'' : Traffic κ ν} (first : Idles backend w w')
    (second : Idles backend w' w'') : Idles backend w w'' := by
  obtain ⟨h, plays, idle⟩ := first
  obtain ⟨h', plays', idle'⟩ := second
  exact ⟨h ++ h', plays.append plays', fun e mem =>
    (List.mem_append.mp mem).elim (idle e) (idle' e)⟩

theorem Idles.single {w w' : Traffic κ ν} {e : Event κ ν} (step : Step w e w')
    (silent : ∀ i keys answer, e ≠ .answered i keys answer) (idle : e.isIdle) :
    Idles backend w w' :=
  ⟨[e], .single step silent, by simpa using idle⟩

theorem Awaits.idles {now : Nat} {k : κ} {l l' : Loader κ ν} {s s' : σ} {t : Ticket ν}
    {result : Option (Except Fault (Option ν))} (a : Awaits backend now k l s t result l' s')
    (ts : List (Task κ ν)) : Idles backend ⟨l, ts⟩ ⟨l', ts⟩ := by
  cases a with
  | primed _ => exact .refl _
  | start here => exact .single (.start now here) (by simp) rfl
  | wait _ _ => exact .refl _
  | @fire i keys due here _ =>
    have send : Step ⟨l, ts⟩ (.sent i keys) ⟨l.setStage i .sent, ts⟩ :=
      .send (close_eq_some.mpr ⟨_, here, rfl⟩)
    have sent := setStage_here .sent here
    have settled : (l.setStage i .sent).settle i (backend keys s).1 =
        some (l.setStage i (.answered (backend keys s).1)) :=
      settle_eq_some.mpr ⟨keys, sent, (setStage_setStage _ _ _ _).symm⟩
    have answer : Step ⟨l.setStage i .sent, ts⟩ (.answered i keys (backend keys s).1)
        ⟨l.setStage i (.answered (backend keys s).1), ts⟩ := .answer _ sent settled
    refine .trans (.single send (by simp) rfl) ⟨_, ⟨.single answer, ?_⟩, by simp [Event.isIdle]⟩
    intro i' keys' answer' mem
    simp only [List.mem_singleton, Event.answered.injEq] at mem
    obtain ⟨_, rfl, rfl⟩ := mem
    exact ⟨s, rfl⟩
  | done _ => exact .refl _

theorem Polls.idles {now : Nat} {r r' : Running κ ν} {l l' : Loader κ ν} {s s' : σ}
    (p : Polls backend now r l s r' l' s') {ts : List (Task κ ν)} {i : Nat} {o : Operation κ ν}
    (here : ts[i]? = some ⟨o, .running r⟩) :
    Idles backend ⟨l, ts⟩ ⟨l', ts.set i ⟨o, .running r'⟩⟩ := by
  induction p generalizing ts with
  | finished _ _ _ => rw [set_of_getElem? here]; exact .refl _
  | gathered _ _ _ => exact .single (.finish here) (by simp) rfl
  | wait next awaits =>
    rw [set_of_getElem? here]
    exact awaits.idles ts
  | take next awaits _ ih =>
    have taken := Step.take here next awaits.read_eq
    have inside := (List.getElem?_eq_some_iff.mp here).1
    have rest := ih (List.getElem?_set_self inside)
    rw [List.set_set] at rest
    exact (awaits.idles ts).trans (.trans (.single taken (by simp) rfl) rest)

def tasksOf (os : List (Operation κ ν)) (rs : List (Running κ ν)) : List (Task κ ν) :=
  List.zipWith (fun o r => ⟨o, .running r⟩) os rs

theorem PollsAll.idles {now : Nat} {rs rs' : List (Running κ ν)} {l l' : Loader κ ν} {s s' : σ}
    (p : PollsAll backend now rs l s rs' l' s') (ts : List (Task κ ν)) {os : List (Operation κ ν)}
    (same : os.length = rs.length) :
    Idles backend ⟨l, ts ++ tasksOf os rs⟩ ⟨l', ts ++ tasksOf os rs'⟩ := by
  induction p generalizing ts os with
  | nil _ _ => simpa [tasksOf] using Idles.refl _
  | @cons r r' rs rs' _ _ _ _ _ _ polls _ ih =>
    cases os with
    | nil => simp at same
    | cons o os =>
      have here : (ts ++ tasksOf (o :: os) (r :: rs))[ts.length]? = some ⟨o, .running r⟩ := by
        simp [tasksOf]
      have first := polls.idles here
      have rest := ih (ts ++ [⟨o, .running r'⟩]) (Nat.succ.inj same)
      simp only [tasksOf, List.zipWith_cons_cons, List.append_assoc, List.singleton_append]
        at first rest ⊢
      rw [set_concat] at first
      exact first.trans rest

/-- What a history of one task does when the task looks up keys and is not dropped. -/
structure Draws (n : Nat) (keys : List κ) (h : List (Event κ ν)) : Prop where
  map : ∀ m, mapAfter m h = m
  asked : ∀ m i, asked i m h = if n = i then keys.map fun k => (k, m k) else []
  kept : ∀ i, .dropped i ∉ h

theorem draws_of_idle (n : Nat) {h : List (Event κ ν)} (idle : ∀ e ∈ h, e.isIdle) :
    Draws n [] h := by
  induction h with
  | nil => exact ⟨fun _ => rfl, fun _ _ => by simp [asked], by simp⟩
  | cons e h ih =>
    have first := idle e (by simp)
    have rest := ih fun e mem => idle e (List.mem_cons_of_mem _ mem)
    cases e with
    | drew _ _ _ => simp [Event.isIdle] at first
    | primed _ _ => simp [Event.isIdle] at first
    | dropped _ => simp [Event.isIdle] at first
    | _ =>
      exact ⟨fun m => rest.map m, fun m i => rest.asked m i, fun i mem =>
        rest.kept i (by simpa using mem)⟩

theorem draws_event (n : Nat) {e : Event κ ν} (idle : e.isIdle) : Draws n [] [e] :=
  draws_of_idle n (by simpa using idle)

theorem draws_single (n : Nat) (k : κ) (t : Ticket ν) : Draws n [k] [.drew n k t] where
  map _ := rfl
  asked _ _ := rfl
  kept := by simp

theorem Draws.append {n : Nat} {ks ks' : List κ} {h h' : List (Event κ ν)} (first : Draws n ks h)
    (second : Draws n ks' h') : Draws n (ks ++ ks') (h ++ h') where
  map m := by rw [mapAfter_append, first.map, second.map]
  asked m i := by
    rw [asked_append, first.asked, first.map, second.asked]
    split <;> simp
  kept i mem := (List.mem_append.mp mem).elim (first.kept i) (second.kept i)

theorem enqueueAll_draws (backend : Backend κ ν σ) (o : Operation κ ν) (ts : List (Task κ ν))
    (ks : List κ) (drawn : List (κ × Ticket ν)) (l : Loader κ ν) :
    ∃ h, Plays backend ⟨l, ts ++ [⟨o, .enqueuing drawn ks⟩]⟩ h
        ⟨(l.enqueueAll ks).2, ts ++ [⟨o, .enqueuing (drawn ++ (l.enqueueAll ks).1) []⟩]⟩ ∧
      Draws ts.length ks h := by
  induction ks generalizing drawn l with
  | nil => exact ⟨[], by simpa [enqueueAll] using Plays.nil _, draws_of_idle _ (by simp)⟩
  | cons k ks ih =>
    have here : (ts ++ [⟨o, .enqueuing drawn (k :: ks)⟩])[ts.length]? =
        some ⟨o, .enqueuing drawn (k :: ks)⟩ := by simp
    have step := Step.enqueue (l := l) here
    rw [set_concat] at step
    obtain ⟨h, plays, draws⟩ := ih (drawn ++ [(k, (l.enqueue k).1)]) (l.enqueue k).2
    have first := draws_single ts.length k (l.enqueue k).1
    refine ⟨[.drew ts.length k (l.enqueue k).1] ++ h, ?_, by simpa using first.append draws⟩
    simpa [enqueueAll] using (Plays.single step (by simp)).append plays

def Operation.after (m : κ → Option ν) : Operation κ ν → κ → Option ν
  | prime k v => Function.update m k (some v)
  | _ => m

/-- What launching an operation does, as a history that begins its task. -/
structure Launches (backend : Backend κ ν σ) (l : Loader κ ν) (ts : List (Task κ ν))
    (o : Operation κ ν) (h : List (Event κ ν)) (r : Running κ ν) (l' : Loader κ ν) : Prop where
  plays : Plays backend ⟨l, ts⟩ h ⟨l', ts ++ [⟨o, .running r⟩]⟩
  later : Later l l'
  calm : Calm l'
  settled : Settled l' r
  map : ∀ m, mapAfter m h = o.after m
  asked : ∀ m i, asked i m h = if ts.length = i then o.keys.map fun k => (k, m k) else []
  dropped : ∀ i, .dropped i ∈ h → i = ts.length ∧ (∃ k, o = .abandon k) ∧ r = .finished .abandoned

theorem launches_of_polls {backend : Backend κ ν σ} {now : Nat} {l l₁ l' : Loader κ ν} {s s' : σ}
    {ts : List (Task κ ν)} {o : Operation κ ν} {h : List (Event κ ν)} {r r' : Running κ ν}
    (plays : Plays backend ⟨l, ts⟩ h ⟨l₁, ts ++ [⟨o, .running r⟩]⟩) (draws : Draws ts.length o.keys h)
    (after : ∀ m, o.after m = m) (later : Later l l₁) (calm : Calm l₁)
    (polls : Polls backend now r l₁ s r' l' s') : ∃ h', Launches backend l ts o h' r' l' := by
  have here : (ts ++ [⟨o, .running r⟩])[ts.length]? = some ⟨o, .running r⟩ := by simp
  obtain ⟨h', plays', idle⟩ := polls.idles here
  rw [set_concat] at plays'
  have all : Draws ts.length o.keys (h ++ h') := by
    simpa using draws.append (draws_of_idle ts.length idle)
  exact ⟨h ++ h', plays.append plays', later.trans polls.later, polls.calm calm, polls.settled,
    fun m => by rw [all.map, after], all.asked, fun i mem => absurd mem (all.kept i)⟩

theorem History.holds {st : LoaderSettings} {h : List (Event κ ν)} {w : Traffic κ ν}
    (run : History ⟨new st, []⟩ h w) {task : Task κ ν} (mem : task ∈ w.tasks) :
    ∀ p ∈ task.phase.tickets, Holds w.loader p.1 p.2 :=
  fun p hp => (run.dispatched.held task mem p hp).holds

section Launch

variable {st : LoaderSettings} {h₀ : List (Event κ ν)} {l : Loader κ ν} {ts : List (Task κ ν)}

theorem launch_load (before : History ⟨new st, []⟩ h₀ ⟨l, ts⟩) (calm : Calm l)
    (backend : Backend κ ν σ) (now : Nat) (s : σ) (k : κ) :
    ∃ h, Launches backend l ts (.load k) h (l.launch backend now s (.load k)).1
      (l.launch backend now s (.load k)).2.1 := by
  have step : Step ⟨l, ts⟩ (.drew ts.length k (l.enqueue k).1)
      ⟨(l.enqueue k).2, ts ++ [⟨.load k, _⟩]⟩ :=
    .load k (.inl rfl)
  have holds := (before.snoc step).holds (List.mem_concat_self ..)
  have polls := poll_polls backend now (.loading k (l.enqueue k).1) (calm.enqueue k) holds s
  exact launches_of_polls (.single step (by simp)) (draws_single _ k _) (fun _ => rfl)
    (enqueue_later l k) (calm.enqueue k) polls

theorem launch_loadMany (before : History ⟨new st, []⟩ h₀ ⟨l, ts⟩) (calm : Calm l)
    (backend : Backend κ ν σ) (now : Nat) (s : σ) (ks : List κ) :
    ∃ h, Launches backend l ts (.loadMany ks) h (l.launch backend now s (.loadMany ks)).1
      (l.launch backend now s (.loadMany ks)).2.1 := by
  have began : Plays backend ⟨l, ts⟩ [.began ts.length] _ := .single (.loadMany ks) (by simp)
  obtain ⟨h, drew, draws⟩ := enqueueAll_draws backend (.loadMany ks) ts ks [] l
  have here : (ts ++ [⟨.loadMany ks, .enqueuing (l.enqueueAll ks).1 []⟩])[ts.length]? =
      some ⟨.loadMany ks, .enqueuing (l.enqueueAll ks).1 []⟩ := by simp
  have step := Step.await (l := (l.enqueueAll ks).2) here
  rw [set_concat] at step
  rw [List.nil_append] at drew
  have plays := (began.append drew).append (.single step (by simp))
  have all : Draws ts.length ks (([.began ts.length] ++ h) ++ [.turned ts.length]) := by
    have first := draws_event ts.length (e := (.began ts.length : Event κ ν)) rfl
    have last := draws_event ts.length (e := (.turned ts.length : Event κ ν)) rfl
    simpa using (first.append draws).append last
  have holds := (before.append plays.history).holds (List.mem_concat_self ..)
  have polls := poll_polls backend now (.gathering (l.enqueueAll ks).1 []) (calm.enqueueAll ks) holds s
  exact launches_of_polls plays all (fun _ => rfl) (enqueueAll_later l ks) (calm.enqueueAll ks) polls

theorem launch_prime (calm : Calm l) (backend : Backend κ ν σ) (now : Nat) (s : σ) (k : κ) (v : ν) :
    ∃ h, Launches backend l ts (.prime k v) h (l.launch backend now s (.prime k v)).1
      (l.launch backend now s (.prime k v)).2.1 := by
  refine ⟨[.primed k v], .single (.prime k v) (by simp), .refl _, calm, settled_finished _ _,
    fun _ => rfl, fun m i => ?_, by simp⟩
  simp [asked, Operation.keys]

theorem launch_abandon (before : History ⟨new st, []⟩ h₀ ⟨l, ts⟩) (calm : Calm l)
    (backend : Backend κ ν σ) (now : Nat) (s : σ) (k : κ) :
    ∃ h, Launches backend l ts (.abandon k) h (l.launch backend now s (.abandon k)).1
      (l.launch backend now s (.abandon k)).2.1 := by
  have step : Step ⟨l, ts⟩ (.drew ts.length k (l.enqueue k).1)
      ⟨(l.enqueue k).2, ts ++ [⟨.abandon k, _⟩]⟩ := .load k (.inr rfl)
  have holds := (before.snoc step).holds (List.mem_concat_self ..)
  have draws := draws_single ts.length k (l.enqueue k).1
  have awaits := await_awaits backend now (calm.enqueue k)
    (holds (k, (l.enqueue k).1) (by simp [Phase.tickets, Running.tickets])) s
  simp only [launch]
  generalize (l.enqueue k).2.await backend now k (l.enqueue k).1 s = out at awaits ⊢
  obtain ⟨result, l', s'⟩ := out
  cases result with
  | some answer =>
    exact launches_of_polls (.single step (by simp)) draws (fun _ => rfl) (enqueue_later l k)
      (calm.enqueue k) (.take rfl awaits (.finished _ _ _))
  | none =>
    obtain ⟨h, waits, idle⟩ :=
      awaits.idles (ts ++ [⟨.abandon k, .running (.loading k (l.enqueue k).1)⟩])
    have here : (ts ++ [⟨.abandon k, .running (.loading k (l.enqueue k).1)⟩])[ts.length]? =
        some ⟨.abandon k, .running (.loading k (l.enqueue k).1)⟩ := by simp
    have drop := Step.drop (l := l') here (by simp)
    rw [set_concat] at drop
    have all : Draws ts.length [k] ([.drew ts.length k (l.enqueue k).1] ++ h) := by
      simpa using draws.append (draws_of_idle ts.length idle)
    have plays := ((Plays.single step (by simp)).append waits).append (.single drop (by simp))
    refine ⟨_, plays, (enqueue_later l k).trans awaits.later, awaits.calm (calm.enqueue k),
      settled_finished _ _, fun m => ?_, fun m i => ?_, fun i mem => ?_⟩
    · rw [mapAfter_append, all.map]
      rfl
    · rw [asked_append, all.asked, asked_single _ _ (by simp), List.append_nil]
      rfl
    · rcases List.mem_append.mp mem with old | new
      · exact absurd old (all.kept i)
      · exact ⟨by simpa using new, ⟨k, rfl⟩, rfl⟩

theorem launch_launches (before : History ⟨new st, []⟩ h₀ ⟨l, ts⟩) (calm : Calm l)
    (backend : Backend κ ν σ) (now : Nat) (s : σ) (o : Operation κ ν) :
    ∃ h, Launches backend l ts o h (l.launch backend now s o).1 (l.launch backend now s o).2.1 := by
  cases o with
  | load k => exact launch_load before calm backend now s k
  | loadMany ks => exact launch_loadMany before calm backend now s ks
  | prime k v => exact launch_prime calm backend now s k v
  | abandon k => exact launch_abandon before calm backend now s k

end Launch

end Plays

end InfraGraph.Loader
