import InfraGraph.Proofs.Loader.Replay

/-!
Batching and caching cannot be seen. With a backend that never fails and answers each key by a function,
operations are answered as by a plain map that only priming changes: in any interleaving by the map as it
was when their keys were enqueued, and under a clock by the map as it was when they were launched.
-/

namespace InfraGraph.Loader

variable {κ ν σ : Type}

/-- A backend that never fails and answers the keys it is asked for by a function; it may know more. -/
def Honest (f : κ → Option ν) (backend : Backend κ ν σ) : Prop :=
  ∀ keys s, ∃ g, (backend keys s).1 = .ok g ∧ ∀ k ∈ keys, g k = f k

/-- Outcomes are the same, unless one is that of a lookup that was dropped. -/
def Outcome.Agrees (out out' : Outcome κ ν) : Prop :=
  out = out' ∨ out = .abandoned ∨ out' = .abandoned

theorem Reply.agrees {o : Operation κ ν} {answers : List (κ × Option ν)} {out out' : Outcome κ ν}
    (reply : Reply o answers out) (reply' : Reply o answers out') : out.Agrees out' := by
  cases reply with
  | load _ _ => cases reply'; exact .inl rfl
  | loadMany _ =>
    generalize same : Operation.loadMany _ = o at reply'
    cases reply' <;> simp [Outcome.Agrees] at same ⊢
  | prime _ _ => cases reply'; exact .inl rfl
  | kept _ _ =>
    cases reply' with
    | kept _ _ => exact .inl rfl
    | dropped _ _ => exact .inr (.inr rfl)
  | dropped _ _ => exact .inr (.inl rfl)

theorem exists_mem_tasksOf {os : List (Operation κ ν)} {rs : List (Running κ ν)}
    (same : os.length = rs.length) {r : Running κ ν} (hr : r ∈ rs) :
    ∃ o, ⟨o, .running r⟩ ∈ tasksOf os rs := by
  induction rs generalizing os with
  | nil => simp at hr
  | cons r' rs ih =>
    cases os with
    | nil => simp at same
    | cons o os =>
      cases hr with
      | head => exact ⟨o, List.mem_cons_self⟩
      | tail _ hr =>
        obtain ⟨o', mem⟩ := ih (Nat.succ.inj same) hr
        exact ⟨o', List.mem_cons_of_mem _ mem⟩

theorem forall₂_trans {α : Type} {R : α → α → Prop} (trans : ∀ a b c, R a b → R b c → R a c)
    {xs ys zs : List α} (first : List.Forall₂ R xs ys) (second : List.Forall₂ R ys zs) :
    List.Forall₂ R xs zs := by
  induction first generalizing zs with
  | nil => exact second
  | cons ab _ ih =>
    cases second with
    | cons bc rest => exact .cons (trans _ _ _ ab bc) (ih rest)

section Keys

variable [DecidableEq κ]

inductive Answered : (κ → Option ν) → List (Operation κ ν) → List (Outcome κ ν) → Prop
  | nil (m : κ → Option ν) : Answered m [] []
  | cons {m : κ → Option ν} {o : Operation κ ν} {os : List (Operation κ ν)} {out : Outcome κ ν}
      {outs : List (Outcome κ ν)} (reply : Reply o (o.keys.map fun k => (k, m k)) out)
      (rest : Answered (o.after m) os outs) : Answered m (o :: os) (out :: outs)

inductive LaunchesAll (backend : Backend κ ν σ) : Loader κ ν → List (Task κ ν) →
    List (Operation κ ν) → List (Event κ ν) → List (Running κ ν) → Loader κ ν → Prop
  | nil (l : Loader κ ν) (ts : List (Task κ ν)) : LaunchesAll backend l ts [] [] [] l
  | cons {l l₁ l' : Loader κ ν} {ts : List (Task κ ν)} {o : Operation κ ν}
      {os : List (Operation κ ν)} {h h' : List (Event κ ν)} {r : Running κ ν}
      {rs : List (Running κ ν)} (first : Launches backend l ts o h r l₁)
      (rest : LaunchesAll backend l₁ (ts ++ [⟨o, .running r⟩]) os h' rs l') :
      LaunchesAll backend l ts (o :: os) (h ++ h') (r :: rs) l'

theorem launchAll_launches (backend : Backend κ ν σ) (now : Nat) {st : LoaderSettings}
    (os : List (Operation κ ν)) {h₀ : List (Event κ ν)} {l : Loader κ ν} {ts : List (Task κ ν)}
    (before : History ⟨new st, []⟩ h₀ ⟨l, ts⟩) (calm : Calm l) (s : σ) :
    ∃ h, LaunchesAll backend l ts os h (l.launchAll backend now s os).1
      (l.launchAll backend now s os).2.1 := by
  induction os generalizing h₀ l ts s with
  | nil => exact ⟨[], .nil l ts⟩
  | cons o os ih =>
    obtain ⟨h, first⟩ := launch_launches before calm backend now s o
    obtain ⟨h', rest⟩ := ih (before.append first.plays.history) first.calm
      (l.launch backend now s o).2.2
    exact ⟨h ++ h', .cons first rest⟩

/-- What an operation came to is what the map gave at its launch, if nothing before or after the launch
concerns its task. -/
theorem Launches.reply {f : κ → Option ν} {backend : Backend κ ν σ} {l l₁ : Loader κ ν}
    {ts : List (Task κ ν)} {o : Operation κ ν} {h : List (Event κ ν)} {r : Running κ ν}
    (launch : Launches backend l ts o h r l₁) {past rest : List (Event κ ν)} {w : Traffic κ ν}
    {outcome : Outcome κ ν} (final : Answering f (past ++ h ++ rest) w)
    (here : w.tasks[ts.length]? = some ⟨o, .running (.finished outcome)⟩)
    (same : ∀ out, r = .finished out → .finished outcome = r)
    (before : Loader.asked ts.length f past = [] ∧ .dropped ts.length ∉ past)
    (after : (∀ m, Loader.asked ts.length m rest = []) ∧ .dropped ts.length ∉ rest) :
    Reply o (o.keys.map fun k => (k, mapAfter f past k)) outcome := by
  cases final.keeps _ _ here with
  | inl dropped =>
    have own : .dropped ts.length ∈ h := by simpa [before.2, after.2] using dropped
    obtain ⟨_, ⟨k, rfl⟩, rfl⟩ := launch.dropped _ own
    obtain rfl := Running.finished.inj (same _ rfl)
    exact .dropped k _
  | inr keeps =>
    have own : Loader.asked ts.length f (past ++ h ++ rest) =
        o.keys.map fun k => (k, mapAfter f past k) := by
      simp [asked_append, before.1, launch.asked, after.1]
    exact (own ▸ keeps).reply

namespace LaunchesAll

variable {backend : Backend κ ν σ} {l l' : Loader κ ν} {ts : List (Task κ ν)}
  {os : List (Operation κ ν)} {h : List (Event κ ν)} {rs : List (Running κ ν)}

theorem length (a : LaunchesAll backend l ts os h rs l') : os.length = rs.length := by
  induction a with
  | nil _ _ => rfl
  | cons _ _ ih => simpa using ih

theorem plays (a : LaunchesAll backend l ts os h rs l') :
    Plays backend ⟨l, ts⟩ h ⟨l', ts ++ tasksOf os rs⟩ := by
  induction a with
  | nil l ts => simpa [tasksOf] using Plays.nil _
  | cons first _ ih => simpa [tasksOf] using first.plays.append ih

theorem later (a : LaunchesAll backend l ts os h rs l') : Later l l' := by
  induction a with
  | nil _ _ => exact .refl _
  | cons first _ ih => exact first.later.trans ih

theorem calm (a : LaunchesAll backend l ts os h rs l') (c : Calm l) : Calm l' := by
  induction a with
  | nil _ _ => exact c
  | cons first _ ih => exact ih first.calm

theorem settled (a : LaunchesAll backend l ts os h rs l') : ∀ r ∈ rs, Settled l' r := by
  induction a with
  | nil _ _ => simp
  | cons first rest ih =>
    intro r hr
    cases hr with
    | head => exact first.settled.later rest.later
    | tail _ hr => exact ih r hr

theorem map (a : LaunchesAll backend l ts os h rs l') (m : κ → Option ν) :
    mapAfter m h = os.foldl Operation.after m := by
  induction a generalizing m with
  | nil _ _ => rfl
  | cons first _ ih => rw [mapAfter_append, first.map, ih]; rfl

theorem before (a : LaunchesAll backend l ts os h rs l') {i : Nat} (old : i < ts.length) :
    (∀ m, asked i m h = []) ∧ .dropped i ∉ h := by
  induction a with
  | nil _ _ => exact ⟨fun _ => rfl, by simp⟩
  | cons first _ ih =>
    obtain ⟨silent, kept⟩ := ih (by simpa using Nat.lt_succ_of_lt old)
    refine ⟨fun m => ?_, fun mem => ?_⟩
    · rw [asked_append, first.asked, silent, if_neg (Nat.ne_of_gt old)]
      rfl
    · rcases List.mem_append.mp mem with here | later
      · exact absurd (first.dropped i here).1 (Nat.ne_of_lt old)
      · exact kept later

theorem answered {f : κ → Option ν} (a : LaunchesAll backend l ts os h rs l')
    {past idle : List (Event κ ν)} {w : Traffic κ ν} {rs' : List (Running κ ν)}
    (final : Answering f (past ++ h ++ idle) w) (quiet : ∀ e ∈ idle, e.isIdle)
    (tasks : ∀ (j : Nat) (task : Task κ ν), (tasksOf os rs')[j]? = some task →
      w.tasks[ts.length + j]? = some task)
    (keeps : List.Forall₂ (fun r r' => ∀ outcome, r = .finished outcome → r' = r) rs rs')
    (ended : ∀ r ∈ rs', ∃ outcome, r = .finished outcome)
    (fresh : ∀ i, ts.length ≤ i → asked i f past = [] ∧ .dropped i ∉ past) :
    Answered (mapAfter f past) os (rs'.map Running.outcome) := by
  induction a generalizing past rs' with
  | nil _ _ =>
    cases keeps with
    | nil => exact .nil _
  | @cons _ _ _ ts o os h h' r rs first rest ih =>
    cases keeps with
    | @cons _ r' _ rs' same keeps =>
      obtain ⟨outcome, rfl⟩ := ended r' (by simp)
      have later : Answered (mapAfter f (past ++ h)) os (rs'.map Running.outcome) := by
        have final' : Answering f ((past ++ h) ++ h' ++ idle) w := by simpa using final
        refine ih final' (fun j task hj => ?_) keeps (fun r hr => ended r (by simp [hr])) fun i hi => ?_
        · have shifted := tasks (j + 1) task (by simpa [tasksOf] using hj)
          simpa [Nat.add_assoc, Nat.add_comm 1 j] using shifted
        · have new : ts.length < i := Nat.lt_of_succ_le (by simpa using hi)
          obtain ⟨silent, kept⟩ := fresh i (Nat.le_of_lt new)
          refine ⟨by simp [asked_append, silent, first.asked, Nat.ne_of_lt new], fun mem => ?_⟩
          rcases List.mem_append.mp mem with old | here
          · exact kept old
          · exact absurd (first.dropped i here).1 (Nat.ne_of_gt new)
      rw [mapAfter_append, first.map] at later
      refine .cons ?_ later
      have head := tasks 0 ⟨o, .running (.finished outcome)⟩ (by simp [tasksOf])
      have whole : Answering f (past ++ h ++ (h' ++ idle)) w := by simpa using final
      obtain ⟨silent, kept⟩ := rest.before (i := ts.length) (by simp)
      refine first.reply whole head same (fresh _ (Nat.le_refl _)) ⟨fun m => ?_, fun mem => ?_⟩
      · simp [asked_append, silent, (draws_of_idle 0 quiet).asked]
      · exact (List.mem_append.mp mem).elim kept ((draws_of_idle 0 quiet).kept _)

end LaunchesAll

structure Passes (backend : Backend κ ν σ) (ts : List (Task κ ν)) (os : List (Operation κ ν))
    (l : Loader κ ν) (rs : List (Running κ ν)) (l' : Loader κ ν) (rs' : List (Running κ ν)) : Prop where
  idles : Idles backend ⟨l, ts ++ tasksOf os rs⟩ ⟨l', ts ++ tasksOf os rs'⟩
  keeps : List.Forall₂ (fun r r' => ∀ outcome, r = .finished outcome → r' = r) rs rs'
  calm : Calm l'

theorem finish_passes (backend : Backend κ ν σ) (fuel now : Nat) {l : Loader κ ν} (s : σ)
    {rs : List (Running κ ν)} (w : Waiting l rs) (ts : List (Task κ ν)) {os : List (Operation κ ν)}
    (same : os.length = rs.length) :
    Passes backend ts os l rs (finish backend fuel now l s rs).2.2.1
      (finish backend fuel now l s rs).1 := by
  refine finish_induction backend (P := fun l' _ rs' => Passes backend ts os l rs l' rs') ?_ fuel now s w
    ⟨.refl _, List.forall₂_same.mpr fun _ _ _ _ => rfl, w.calm⟩
  intro _ _ _ rs₁ _ _ rs₂ pass before
  refine ⟨before.idles.trans (pass.idles ts (same.trans before.keeps.length_eq)), ?_,
    pass.calm before.calm⟩
  refine forall₂_trans (fun a b c ab bc outcome done => ?_) before.keeps pass.keeps
  have first := ab outcome done
  rw [bc outcome (first.trans done), first]

theorem launchAll_waiting (backend : Backend κ ν σ) {st : LoaderSettings} {h₀ : List (Event κ ν)}
    {l : Loader κ ν} {ts : List (Task κ ν)} (before : History ⟨new st, []⟩ h₀ ⟨l, ts⟩) (calm : Calm l)
    (now : Nat) (s : σ) (os : List (Operation κ ν)) :
    Waiting (l.launchAll backend now s os).2.1 (l.launchAll backend now s os).1 := by
  obtain ⟨h, launches⟩ := launchAll_launches backend now os before calm s
  refine ⟨launches.calm calm, fun r hr => ?_, launches.settled⟩
  obtain ⟨o, mem⟩ := exists_mem_tasksOf launches.length hr
  exact (before.append launches.plays.history).holds (List.mem_append_right _ mem)

/-- Operations that run under a clock are launched and then asked again until all have come to their end. -/
theorem run_phases (backend : Backend κ ν σ) {st : LoaderSettings} {h₀ : List (Event κ ν)}
    {l : Loader κ ν} {ts : List (Task κ ν)} (before : History ⟨new st, []⟩ h₀ ⟨l, ts⟩) (calm : Calm l)
    (now : Nat) (s : σ) (os : List (Operation κ ν)) :
    ∃ h rs l₁ rs', LaunchesAll backend l ts os h rs l₁ ∧
      Passes backend ts os l₁ rs (l.run backend now s os).2.2.1 rs' ∧
      (∀ r ∈ rs', ∃ outcome, r = .finished outcome) ∧
      (l.run backend now s os).1 = rs'.map Running.outcome := by
  obtain ⟨h, launches⟩ := launchAll_launches backend now os before calm s
  have waiting := launchAll_waiting backend before calm now s os
  simp only [run]
  generalize l.launchAll backend now s os = out at launches waiting ⊢
  obtain ⟨rs, l₁, s₁⟩ := out
  have passes := finish_passes backend l₁.batches.length now s₁ waiting ts launches.length
  have ended := finish_ended backend l₁.batches.length now s₁ waiting (card_busy_le l₁ rs)
  exact ⟨h, rs, l₁, _, launches, passes, ended, rfl⟩

theorem Plays.fromFunction {f : κ → Option ν} {backend : Backend κ ν σ} (honest : Honest f backend)
    {w w' : Traffic κ ν} {h : List (Event κ ν)} (plays : Plays backend w h w') :
    FromFunction f h := by
  intro i keys answer mem
  obtain ⟨s, rfl⟩ := plays.given i keys answer mem
  exact honest keys s

theorem run_answered {f : κ → Option ν} {backend : Backend κ ν σ} (honest : Honest f backend)
    {st : LoaderSettings} {h₀ : List (Event κ ν)} {l : Loader κ ν} {ts : List (Task κ ν)}
    (before : History ⟨new st, []⟩ h₀ ⟨l, ts⟩) (past : FromFunction f h₀) (calm : Calm l) (now : Nat)
    (s : σ) (os : List (Operation κ ν)) :
    ∃ h ts', History ⟨new st, []⟩ (h₀ ++ h) ⟨(l.run backend now s os).2.2.1, ts'⟩ ∧
      FromFunction f (h₀ ++ h) ∧ Calm (l.run backend now s os).2.2.1 ∧
      mapAfter f (h₀ ++ h) = os.foldl Operation.after (mapAfter f h₀) ∧
      Answered (mapAfter f h₀) os (l.run backend now s os).1 := by
  obtain ⟨h, rs, l₁, rs', launches, passes, ended, outcomes⟩ := run_phases backend before calm now s os
  obtain ⟨idle, plays, quiet⟩ := passes.idles
  have played := launches.plays.append plays
  have final := before.append played.history
  have honest' := past.append (played.fromFunction honest)
  refine ⟨h ++ idle, _, final, honest', passes.calm, ?_, ?_⟩
  · rw [mapAfter_append, mapAfter_append, launches.map, (draws_of_idle 0 quiet).map]
  · have answered := final.answering honest'
    rw [← List.append_assoc] at answered
    rw [outcomes]
    refine launches.answered answered quiet (fun j task hj => ?_) passes.keeps ended fun i hi => ?_
    · simpa [List.getElem?_append_right] using hj
    · exact (before.answering past).absent i (List.getElem?_eq_none hi)

inductive AnsweredSteps :
    (κ → Option ν) → List (List (Operation κ ν)) → List (List (Outcome κ ν)) → Prop
  | nil (m : κ → Option ν) : AnsweredSteps m [] []
  | cons {m : κ → Option ν} {os : List (Operation κ ν)} {steps : List (List (Operation κ ν))}
      {outs : List (Outcome κ ν)} {outcomes : List (List (Outcome κ ν))} (step : Answered m os outs)
      (rest : AnsweredSteps (os.foldl Operation.after m) steps outcomes) :
      AnsweredSteps m (os :: steps) (outs :: outcomes)

/-- Steps on one loader, each after a pause. The operations of a step run together. -/
def runSteps (backend : Backend κ ν σ) :
    Nat → Loader κ ν → σ → List (Nat × List (Operation κ ν)) → List (List (Outcome κ ν))
  | _, _, _, [] => []
  | now, l, s, (pause, os) :: steps =>
      let (outs, now, l, s) := l.run backend (now + pause) s os
      outs :: runSteps backend now l s steps

theorem runSteps_answered {f : κ → Option ν} {backend : Backend κ ν σ} (honest : Honest f backend)
    {st : LoaderSettings} (steps : List (Nat × List (Operation κ ν))) {h₀ : List (Event κ ν)}
    {l : Loader κ ν} {ts : List (Task κ ν)} (before : History ⟨new st, []⟩ h₀ ⟨l, ts⟩)
    (past : FromFunction f h₀) (calm : Calm l) (now : Nat) (s : σ) :
    AnsweredSteps (mapAfter f h₀) (steps.map Prod.snd) (runSteps backend now l s steps) := by
  induction steps generalizing h₀ l ts now s with
  | nil => exact .nil _
  | cons step steps ih =>
    obtain ⟨pause, os⟩ := step
    obtain ⟨h, ts', after, past', calm', map, answered⟩ :=
      run_answered honest before past calm (now + pause) s os
    have rest := ih after past' calm' (l.run backend (now + pause) s os).2.1
      (l.run backend (now + pause) s os).2.2.2
    rw [map] at rest
    exact .cons answered rest

theorem Answered.agrees {m : κ → Option ν} {os : List (Operation κ ν)} {outs outs' : List (Outcome κ ν)}
    (a : Answered m os outs) (a' : Answered m os outs') :
    List.Forall₂ Outcome.Agrees outs outs' := by
  induction a generalizing outs' with
  | nil _ =>
    cases a'
    exact .nil
  | cons reply _ ih =>
    cases a' with
    | cons reply' rest' => exact .cons (reply.agrees reply') (ih rest')

theorem AnsweredSteps.agrees {m : κ → Option ν} {steps : List (List (Operation κ ν))}
    {outcomes outcomes' : List (List (Outcome κ ν))} (a : AnsweredSteps m steps outcomes)
    (a' : AnsweredSteps m steps outcomes') :
    List.Forall₂ (List.Forall₂ Outcome.Agrees) outcomes outcomes' := by
  induction a generalizing outcomes' with
  | nil _ =>
    cases a'
    exact .nil
  | cons step _ ih =>
    cases a' with
    | cons step' rest' => exact .cons (step.agrees step') (ih rest')

/-- With a backend that answers by a function, an operation in any interleaving ends with what a plain map
had for its keys when they were enqueued, and it can always be brought to its end. Steps under a clock are
answered by the plain map, and so alike whatever the size of batches, the delay, the pauses and whatever
else the backend knows. -/
theorem answers_as_plain_map (f : κ → Option ν) :
    (∀ (st : LoaderSettings) (h : List (Event κ ν)) (w : Traffic κ ν),
      History ⟨new st, []⟩ h w → FromFunction f h → ∀ (i : Nat) (o : Operation κ ν),
        (∀ outcome, w.tasks[i]? = some ⟨o, .running (.finished outcome)⟩ → .dropped i ∉ h →
          Reply o (asked i f h) outcome) ∧
        ∀ phase, w.tasks[i]? = some ⟨o, phase⟩ → CanFinish f i o w) ∧
    (∀ (σ : Type) (st : LoaderSettings) (backend : Backend κ ν σ) (now : Nat) (s : σ)
      (steps : List (Nat × List (Operation κ ν))), Honest f backend →
        AnsweredSteps f (steps.map Prod.snd) (runSteps backend now (new st) s steps)) ∧
    ∀ (σ σ' : Type) (st st' : LoaderSettings) (backend : Backend κ ν σ) (backend' : Backend κ ν σ')
      (now now' : Nat) (s : σ) (s' : σ') (steps steps' : List (Nat × List (Operation κ ν))),
        Honest f backend → Honest f backend' → steps.map Prod.snd = steps'.map Prod.snd →
          List.Forall₂ (List.Forall₂ Outcome.Agrees) (runSteps backend now (new st) s steps)
            (runSteps backend' now' (new st') s' steps') := by
  have answered : ∀ (σ : Type) (st : LoaderSettings) (backend : Backend κ ν σ) (now : Nat) (s : σ)
      (steps : List (Nat × List (Operation κ ν))), Honest f backend →
        AnsweredSteps f (steps.map Prod.snd) (runSteps backend now (new st) s steps) :=
    fun σ st backend now s steps honest =>
      have start : History ⟨new st, []⟩ [] ⟨new st, []⟩ := .nil
      have silent : FromFunction f [] := fromFunction_of_silent f (by simp)
      runSteps_answered honest steps start silent (by simp [Calm, new]) now s
  refine ⟨fun st h w run honest i o => ⟨fun outcome here kept => ?_, fun phase here => ?_⟩,
    answered, ?_⟩
  · exact ((run.answering honest).keeps i _ here).resolve_left kept |>.reply
  · exact run.canFinish f here
  · intro σ σ' st st' backend backend' now now' s s' steps steps' honest honest' same
    have first := answered σ st backend now s steps honest
    have second := answered σ' st' backend' now' s' steps' honest'
    rw [← same] at second
    exact first.agrees second

end Keys

def double (k : Nat) : Option Nat :=
  if k < 10 then some (2 * k) else none

def doubler : Backend Nat Nat (List (List Nat)) := fun keys calls =>
  (.ok fun k => if k ∈ keys then double k else some 0, calls ++ [keys])

theorem honest_doubler : Honest double doubler := by
  intro keys s
  refine ⟨_, rfl, fun k mem => ?_⟩
  simp [mem]

theorem answers_as_plain_map_double :
    Reply (.load 3) [(3, some 6)] (.loaded (.ok (some 6)) : Outcome Nat Nat) ∧
    AnsweredSteps double [[.load 1, .prime 1 7, .loadMany [1, 2, 20]], [.load 20]]
      [[.loaded (.ok (some 2)), .primed, .gathered (.ok [(1, 7), (2, 4)])], [.loaded (.ok none)]] ∧
    List.Forall₂ (List.Forall₂ Outcome.Agrees)
      (runSteps doubler 0 (new ⟨1, 2⟩) [] [(0, [.load 4, .abandon 5])])
      (runSteps doubler 7 (new ⟨0, 100⟩) [] [(3, [.load 4, .abandon 5])]) := by
  have asked : History ⟨new ⟨2, 100⟩, []⟩
      [.drew 0 3 (.batch 0), .sent 0 [3], .answered 0 [3] (.ok double)]
      ⟨⟨100, 2, [⟨[3], .answered (.ok double)⟩], [(3, .batch 0)]⟩,
        [⟨.load 3, .running (.loading 3 (.batch 0))⟩]⟩ :=
    ((History.nil.snoc (.load 3 (.inl rfl))).snoc (.send rfl)).snoc (.answer (.ok double) rfl rfl)
  have waiting : [(⟨.load 3, .running (.loading 3 (.batch 0))⟩ : Task Nat Nat)][0]? =
      some ⟨.load 3, .running (.loading 3 (.batch 0))⟩ := rfl
  have took := Step.take (l := ⟨100, 2, [⟨[3], .answered (.ok double)⟩], [(3, .batch 0)]⟩) waiting
    (k := 3) (t := .batch 0) rfl rfl
  have fromDouble : FromFunction double
      ([.drew 0 3 (.batch 0), .sent 0 [3], .answered 0 [3] (.ok double)] ++
        [.took 0 3 (.batch 0) (.ok (some 6))]) := by
    intro i keys answer mem
    obtain ⟨_, _, rfl⟩ : i = 0 ∧ keys = [3] ∧ answer = .ok double := by simpa using mem
    exact ⟨double, rfl, fun _ _ => rfl⟩
  obtain ⟨interleaved, clocked, alike⟩ := answers_as_plain_map double
  exact ⟨(interleaved _ _ _ (asked.snoc took) fromDouble 0 (.load 3)).1 _ rfl (by simp),
    clocked _ ⟨1, 2⟩ doubler 0 [] [(0, [.load 1, .prime 1 7, .loadMany [1, 2, 20]]), (5, [.load 20])]
      honest_doubler,
    alike _ _ _ _ doubler doubler 0 7 [] [] _ _ honest_doubler honest_doubler rfl⟩

end InfraGraph.Loader
