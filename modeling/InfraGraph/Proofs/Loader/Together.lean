import InfraGraph.Proofs.Loader.Sharing

/-!
A `loadMany` beside single lookups of its keys. While none of the keys is primed, all that ask for a key get
the same, whichever operation it is and whenever it asks. So the `loadMany` fails with the fault of the first
of its keys whose single lookup fails, and otherwise has the pairs that the single lookups found. It does
not matter which operation opened a batch, which one fired it, and what the backend answered.
-/

namespace InfraGraph.Loader

variable {κ ν σ : Type}

theorem collect_ok {answers : List (κ × Except Fault (Option ν))} {pairs : List (κ × ν)}
    (h : collect answers = .ok pairs) : ∀ p ∈ answers, ∃ v, p.2 = .ok v := by
  induction answers generalizing pairs with
  | nil => simp
  | cons p answers ih =>
    obtain ⟨k, f | v⟩ := p
    · cases h
    · cases rest : collect answers with
      | error f => simp [collect, rest, Except.map] at h
      | ok found =>
        rw [List.forall_mem_cons]
        exact ⟨⟨v, rfl⟩, ih rest⟩

theorem collect_error {answers : List (κ × Except Fault (Option ν))} {f : Fault}
    (h : collect answers = .error f) :
    ∃ front k rest, answers = front ++ (k, .error f) :: rest ∧ ∀ p ∈ front, ∃ v, p.2 = .ok v := by
  induction answers with
  | nil => cases h
  | cons p answers ih =>
    obtain ⟨k, g | v⟩ := p
    · obtain rfl : g = f := Except.error.inj h
      exact ⟨[], k, answers, rfl, by simp⟩
    · cases rest : collect answers with
      | ok found => simp [collect, rest, Except.map] at h
      | error g =>
        obtain rfl : g = f := by simpa [collect, rest, Except.map] using h
        obtain ⟨front, x, later, rfl, calm⟩ := ih rest
        refine ⟨(k, .ok v) :: front, x, later, rfl, ?_⟩
        rw [List.forall_mem_cons]
        exact ⟨⟨v, rfl⟩, calm⟩

theorem mem_collect {answers : List (κ × Except Fault (Option ν))} {pairs : List (κ × ν)}
    (h : collect answers = .ok pairs) (k : κ) (v : ν) :
    (k, v) ∈ pairs ↔ (k, .ok (some v)) ∈ answers := by
  induction answers generalizing pairs with
  | nil =>
    obtain rfl : [] = pairs := Except.ok.inj h
    simp
  | cons p answers ih =>
    obtain ⟨x, f | u⟩ := p
    · cases h
    · cases rest : collect answers with
      | error f => simp [collect, rest, Except.map] at h
      | ok found =>
        obtain rfl : (u.map (x, ·)).toList ++ found = pairs := by
          simpa [collect, rest, Except.map] using h
        rw [List.mem_append, List.mem_cons, ih rest]
        cases u with
        | none => simp
        | some u => simp

/-- What a `loadMany` comes to, told from what single lookups of its keys come to. -/
structure Tallies (ks : List κ) (single : κ → Except Fault (Option ν) → Prop)
    (result : Except Fault (List (κ × ν))) : Prop where
  alike : ∀ k ∈ ks, ∃! answer, single k answer
  fails : (∃ f, result = .error f) ↔ ∃ k ∈ ks, ∃ f, single k (.error f)
  first : ∀ f, result = .error f → ∃ front k rest, ks = front ++ k :: rest ∧
    (∀ x ∈ front, ∃ v, single x (.ok v)) ∧ single k (.error f)
  found : ∀ pairs, result = .ok pairs → ∀ k v, (k, v) ∈ pairs ↔ k ∈ ks ∧ single k (.ok (some v))

/-- A `loadMany` that got the answers of the single lookups, for its first keys if it failed and else for
all, comes to what they tell. -/
theorem tallies_collect {ks : List κ} {single : κ → Except Fault (Option ν) → Prop}
    (alike : ∀ k ∈ ks, ∃! answer, single k answer) {answers : List (κ × Except Fault (Option ν))}
    (each : ∀ p ∈ answers, single p.1 p.2) (part : answers.map Prod.fst <+: ks)
    (whole : ∀ pairs, collect answers = .ok pairs → answers.map Prod.fst = ks) :
    Tallies ks single (collect answers) := by
  have answered {pairs : List (κ × ν)} (ok : collect answers = .ok pairs) {k : κ} (mem : k ∈ ks)
      {answer : Except Fault (Option ν)} (came : single k answer) : (k, answer) ∈ answers := by
    rw [← whole pairs ok] at mem
    obtain ⟨⟨_, other⟩, here, rfl⟩ := List.mem_map.mp mem
    rwa [(alike _ (part.subset (List.mem_map_of_mem here))).unique came (each _ here)]
  have first (f : Fault) (failed : collect answers = .error f) : ∃ front k rest,
      ks = front ++ k :: rest ∧ (∀ x ∈ front, ∃ v, single x (.ok v)) ∧ single k (.error f) := by
    obtain ⟨front, k, rest, rfl, calm⟩ := collect_error failed
    obtain ⟨more, all⟩ := part
    refine ⟨front.map Prod.fst, k, rest.map Prod.fst ++ more, ?_, fun x mem => ?_, ?_⟩
    · simpa using all.symm
    · obtain ⟨p, here, rfl⟩ := List.mem_map.mp mem
      obtain ⟨v, ok⟩ := calm p here
      exact ⟨v, ok ▸ each p (List.mem_append_left _ here)⟩
    · exact each (k, .error f) (by simp)
  refine ⟨alike, ⟨?_, ?_⟩, first, fun pairs ok k v => ?_⟩
  · rintro ⟨f, failed⟩
    obtain ⟨front, k, rest, rfl, _, came⟩ := first f failed
    exact ⟨k, by simp, f, came⟩
  · rintro ⟨k, mem, f, came⟩
    cases result : collect answers with
    | error g => exact ⟨g, rfl⟩
    | ok pairs =>
      obtain ⟨v, ok⟩ := collect_ok result _ (answered result mem came)
      cases ok
  · rw [mem_collect ok]
    constructor
    · intro here
      exact ⟨part.subset (List.mem_map_of_mem here), each _ here⟩
    · rintro ⟨mem, came⟩
      exact answered ok mem came

section Keys

variable [DecidableEq κ]

theorem lastPrimed_of_unprimed {h h' : List (Event κ ν)} {k : κ} (unprimed : ∀ v, .primed k v ∉ h') :
    lastPrimed (h ++ h') k = lastPrimed h k := by
  induction h' using List.reverseRecOn with
  | nil => rw [List.append_nil]
  | append_singleton h' e ih =>
    rw [← List.append_assoc, lastPrimed_concat]
    rw [← ih fun v mem => unprimed v (List.mem_append_left _ mem)]
    cases e with
    | primed x v =>
      have other : k ≠ x := by
        rintro rfl
        exact unprimed v (by simp)
      exact Function.update_of_ne other _ _
    | _ => rfl

theorem History.undropped {s : LoaderSettings} {h : List (Event κ ν)} {w : Traffic κ ν}
    (run : History ⟨new s, []⟩ h w) {i : Nat} (none : w.tasks[i]? = none) : .dropped i ∉ h := by
  induction run with
  | nil => simp
  | snoc _ step ih =>
    obtain ⟨none', _, kept⟩ := step.absent none
    rw [List.mem_append, List.mem_singleton, not_or]
    exact ⟨ih none', kept.symm⟩

/-- What an operation gets for a key when it asks in the second part of a history, in which the key is not
primed. -/
def GetsIn (h₀ h : List (Event κ ν)) (k : κ) (answer : Except Fault (Option ν)) : Prop :=
  ∃ past, lastPrimed past k = lastPrimed h₀ k ∧ Gets (h₀ ++ h) past k answer

section Parts

variable {st : LoaderSettings} {h₀ h : List (Event κ ν)} {w₀ w : Traffic κ ν}

theorem History.getsIn_unique (run : History ⟨new st, []⟩ (h₀ ++ h) w) {k : κ}
    {answer answer' : Except Fault (Option ν)} (gets : GetsIn h₀ h k answer)
    (gets' : GetsIn h₀ h k answer') : answer = answer' := by
  obtain ⟨past, last, gets⟩ := gets
  obtain ⟨past', last', gets'⟩ := gets'
  rw [← last'] at last
  cases gets with
  | primed value =>
    cases gets' with
    | primed value' => rw [Option.some.inj (value.symm.trans (last.trans value'))]
    | batch unprimed' _ _ _ =>
      rw [value, unprimed'] at last
      cases last
  | batch unprimed first asked came =>
    exact run.alike (.batch unprimed first asked came) gets' unprimed (last.symm.trans unprimed)

theorem History.getsIn (before : History ⟨new st, []⟩ h₀ w₀) {i : Nat} (new : w₀.tasks.length ≤ i) {k : κ}
    (unprimed : ∀ v, .primed k v ∉ h) {past later : List (Event κ ν)} {t : Ticket ν}
    (parts : h₀ ++ h = past ++ .drew i k t :: later) {answer : Except Fault (Option ν)}
    (gets : Gets (h₀ ++ h) past k answer) : GetsIn h₀ h k answer := by
  have undrawn := before.undrawn (List.getElem?_eq_none new) k t
  -- the task is not older than the second part, so it drew its ticket there
  obtain ⟨mid, rfl, rest⟩ : ∃ mid, past = h₀ ++ mid ∧ h = mid ++ .drew i k t :: later := by
    rcases List.append_eq_append_iff.mp parts with ⟨mid, first, second⟩ | ⟨mid, first, second⟩
    · exact ⟨mid, first, second⟩
    · cases mid with
      | nil => exact ⟨[], by simpa using first.symm, by simpa using second.symm⟩
      | cons e mid =>
        obtain ⟨rfl, _⟩ := List.cons.inj second
        exact absurd (first ▸ by simp) undrawn
  refine ⟨h₀ ++ mid, lastPrimed_of_unprimed fun v mem => unprimed v ?_, gets⟩
  rw [rest]
  exact List.mem_append_left _ mem

def CameTo (w₀ w : Traffic κ ν) (k : κ) (answer : Except Fault (Option ν)) : Prop :=
  ∃ j, w₀.tasks.length ≤ j ∧ w.tasks[j]? = some ⟨.load k, .running (.finished (.loaded answer))⟩

theorem History.getsIn_of_cameTo (before : History ⟨new st, []⟩ h₀ w₀) (after : History w₀ h w) {k : κ}
    (unprimed : ∀ v, .primed k v ∉ h) {answer : Except Fault (Option ν)} (came : CameTo w₀ w k answer) :
    GetsIn h₀ h k answer := by
  obtain ⟨j, new, here⟩ := came
  obtain ⟨t, past, later, looks, looking⟩ := (before.append after).shared.lookup j _ _ k here (.inl rfl)
  cases looking with
  | answered gets => exact before.getsIn new unprimed looks.parts gets

theorem History.tallies (before : History ⟨new st, []⟩ h₀ w₀) (after : History w₀ h w) {i : Nat}
    {ks : List κ} {result : Except Fault (List (κ × ν))} (new : w₀.tasks.length ≤ i)
    (here : w.tasks[i]? = some ⟨.loadMany ks, .running (.finished (.gathered result))⟩)
    (beside : ∀ k ∈ ks, (∀ v, .primed k v ∉ h) ∧ ∃ answer, CameTo w₀ w k answer) :
    Tallies ks (CameTo w₀ w) result := by
  have run := before.append after
  have single {k : κ} (mem : k ∈ ks) {answer : Except Fault (Option ν)} (came : CameTo w₀ w k answer) :
      GetsIn h₀ h k answer :=
    before.getsIn_of_cameTo after (beside k mem).1 came
  have alike : ∀ k ∈ ks, ∃! answer, CameTo w₀ w k answer := fun k mem => by
    obtain ⟨answer, came⟩ := (beside k mem).2
    exact ⟨answer, came, fun other came' => run.getsIn_unique (single mem came') (single mem came)⟩
  have each {k : κ} (mem : k ∈ ks) {answer : Except Fault (Option ν)}
      (provided : ∃ t, Provided (h₀ ++ h) i k t answer) : CameTo w₀ w k answer := by
    obtain ⟨t, past, later, parts, _, gets⟩ := provided
    obtain ⟨answer', came⟩ := (beside k mem).2
    have own := before.getsIn new (beside k mem).1 parts gets
    rwa [run.getsIn_unique own (single mem came)]
  cases run.shared.lookups i ks _ here with
  | found answers provided all so_far =>
    rw [← so_far]
    refine tallies_collect alike (fun p mem => each ?_ (provided p mem)) (all ▸ List.prefix_rfl) fun _ _ => all
    rw [← all]
    exact List.mem_map_of_mem mem
  | failed answers provided part so_far =>
    rw [← so_far]
    refine tallies_collect alike (fun p mem => each ?_ (provided p mem)) part fun pairs ok => ?_
    · exact part.subset (List.mem_map_of_mem mem)
    · rw [so_far] at ok
      cases ok

end Parts

omit [DecidableEq κ] in
theorem operations_set {ts : List (Task κ ν)} {i : Nat} {o : Operation κ ν} {p : Phase κ ν}
    (here : ts[i]? = some ⟨o, p⟩) (p' : Phase κ ν) :
    (ts.set i ⟨o, p'⟩).map Task.operation = ts.map Task.operation ++ [] := by
  rw [List.map_set, List.append_nil]
  apply set_of_getElem?
  rw [List.getElem?_map, here]
  rfl

theorem Step.operations {w w' : Traffic κ ν} {e : Event κ ν} (step : Step w e w') :
    ∃ os, w'.tasks.map Task.operation = w.tasks.map Task.operation ++ os ∧
      ∀ k v, e = .primed k v → .prime k v ∈ os := by
  cases step with
  | @load _ _ o k _ => exact ⟨[o], by simp, by simp⟩
  | loadMany ks => exact ⟨[.loadMany ks], by simp, by simp⟩
  | enqueue here => exact ⟨[], operations_set here _, by simp⟩
  | await here => exact ⟨[], operations_set here _, by simp⟩
  | take here _ _ => exact ⟨[], operations_set here _, by simp⟩
  | finish here => exact ⟨[], operations_set here _, by simp⟩
  | drop here _ => exact ⟨[], operations_set here _, by simp⟩
  | prime k v => exact ⟨[.prime k v], by simp, by simp⟩
  | start _ _ => exact ⟨[], by simp, by simp⟩
  | send _ => exact ⟨[], by simp, by simp⟩
  | answer _ _ _ => exact ⟨[], by simp, by simp⟩

theorem History.operations {w₀ w : Traffic κ ν} {h : List (Event κ ν)} (run : History w₀ h w) :
    ∃ os, w.tasks.map Task.operation = w₀.tasks.map Task.operation ++ os ∧
      ∀ k v, .primed k v ∈ h → .prime k v ∈ os := by
  induction run with
  | nil => exact ⟨[], by simp, by simp⟩
  | snoc _ step ih =>
    obtain ⟨os, all, primes⟩ := ih
    obtain ⟨new, more, prime⟩ := step.operations
    refine ⟨os ++ new, by rw [more, all, List.append_assoc], fun k v mem => ?_⟩
    rw [List.mem_append, List.mem_singleton] at mem
    exact List.mem_append.mpr (mem.imp (primes k v) fun same => prime k v same.symm)

def EndedWith (os : List (Operation κ ν)) (outs : List (Outcome κ ν)) (k : κ)
    (answer : Except Fault (Option ν)) : Prop :=
  ∃ j : Nat, os[j]? = some (.load k) ∧ outs[j]? = some (.loaded answer)

namespace Concludes

variable {backend : Backend κ ν σ} {w w' : Traffic κ ν} {os : List (Operation κ ν)}
  {outs : List (Outcome κ ν)} {h : List (Event κ ν)}

theorem task (c : Concludes backend w os outs h w') (j : Nat) (o : Operation κ ν) (out : Outcome κ ν) :
    w'.tasks[w.tasks.length + j]? = some ⟨o, .running (.finished out)⟩ ↔
      os[j]? = some o ∧ outs[j]? = some out := by
  have operation := congrArg (·[w.tasks.length + j]?) c.operations
  have phase := congrArg (·[w.tasks.length + j]?) c.phases
  simp only [List.getElem?_map, List.getElem?_append_right, List.length_map, Nat.le_add_right,
    Nat.add_sub_cancel_left] at operation phase
  rw [← operation]
  cases here : w'.tasks[w.tasks.length + j]? with
  | none => simp
  | some task =>
    obtain ⟨o', p⟩ := task
    rw [here] at phase
    cases ended : outs[j]? with
    | none =>
      rw [ended] at phase
      cases phase
    | some out' =>
      rw [ended] at phase
      obtain rfl := Option.some.inj phase
      simp

theorem cameTo_iff (c : Concludes backend w os outs h w') (k : κ) (answer : Except Fault (Option ν)) :
    CameTo w w' k answer ↔ EndedWith os outs k answer := by
  constructor
  · rintro ⟨j, new, here⟩
    obtain ⟨i, rfl⟩ := Nat.exists_eq_add_of_le new
    exact ⟨i, (c.task i _ _).mp here⟩
  · rintro ⟨j, ended⟩
    exact ⟨w.tasks.length + j, Nat.le_add_right _ _, (c.task j _ _).mpr ended⟩

theorem exists_outcome (c : Concludes backend w os outs h w') {j : Nat} {o : Operation κ ν}
    (here : os[j]? = some o) : ∃ out, outs[j]? = some out := by
  have operations := congrArg List.length c.operations
  have phases := congrArg List.length c.phases
  simp only [List.length_map, List.length_append] at operations phases
  have inside := (List.getElem?_eq_some_iff.mp here).1
  exact ⟨_, List.getElem?_eq_getElem (by omega)⟩

theorem kept {st : LoaderSettings} {h₀ : List (Event κ ν)} (before : History ⟨new st, []⟩ h₀ w)
    (c : Concludes backend w os outs h w') {j : Nat} {o : Operation κ ν} {out : Outcome κ ν}
    (here : w'.tasks[w.tasks.length + j]? = some ⟨o, .running (.finished out)⟩)
    (lasting : ∀ k, o ≠ .abandon k) : .dropped (w.tasks.length + j) ∉ h₀ ++ h := by
  rw [List.mem_append, not_or]
  constructor
  · apply before.undropped
    rw [List.getElem?_eq_none_iff]
    exact Nat.le_add_right _ _
  · intro mem
    obtain ⟨k, abandoned⟩ := c.dropped _ mem
    rw [List.getElem?_map, here] at abandoned
    exact lasting k (Option.some.inj abandoned)

theorem load_ended {st : LoaderSettings} {h₀ : List (Event κ ν)} (before : History ⟨new st, []⟩ h₀ w)
    (c : Concludes backend w os outs h w') {k : κ} (mem : .load k ∈ os) :
    ∃ answer, EndedWith os outs k answer := by
  obtain ⟨j, here⟩ := List.mem_iff_getElem?.mp mem
  obtain ⟨out, ended⟩ := c.exists_outcome here
  have task := (c.task j _ _).mpr ⟨here, ended⟩
  have kept := c.kept before task (by simp)
  obtain ⟨t, past, later, _, looking⟩ :=
    (before.append c.plays.history).shared.lookup _ _ _ k task (.inl rfl)
  cases looking with
  | answered _ => exact ⟨_, j, here, ended⟩
  | dropped gone => exact absurd gone kept

theorem loadMany_ended {st : LoaderSettings} {h₀ : List (Event κ ν)} (before : History ⟨new st, []⟩ h₀ w)
    (c : Concludes backend w os outs h w') {i : Nat} {ks : List κ} (here : os[i]? = some (.loadMany ks)) :
    ∃ result, outs[i]? = some (.gathered result) := by
  obtain ⟨out, ended⟩ := c.exists_outcome here
  have task := (c.task i _ _).mpr ⟨here, ended⟩
  have kept := c.kept before task (by simp)
  cases (before.append c.plays.history).shared.lookups _ ks _ task with
  | found _ _ _ _ => exact ⟨_, ended⟩
  | failed _ _ _ _ => exact ⟨_, ended⟩
  | dropped gone => exact absurd gone kept

theorem tallies {st : LoaderSettings} {h₀ : List (Event κ ν)} (before : History ⟨new st, []⟩ h₀ w)
    (c : Concludes backend w os outs h w') {i : Nat} {ks : List κ} (here : os[i]? = some (.loadMany ks))
    (beside : ∀ k ∈ ks, .load k ∈ os ∧ ∀ v, .prime k v ∉ os) :
    ∃ result, outs[i]? = some (.gathered result) ∧ Tallies ks (EndedWith os outs) result := by
  obtain ⟨result, ended⟩ := c.loadMany_ended before here
  obtain ⟨os', all, primes⟩ := c.plays.history.operations
  obtain rfl : os = os' := List.append_cancel_left (c.operations.symm.trans all)
  have same : CameTo w w' = EndedWith os outs := by
    funext k answer
    exact propext (c.cameTo_iff k answer)
  refine ⟨result, ended, same ▸ before.tallies c.plays.history (Nat.le_add_right _ i)
    ((c.task i _ _).mpr ⟨here, ended⟩) fun k mem => ⟨fun v primed => ?_, ?_⟩⟩
  · exact (beside k mem).2 v (primes k v primed)
  · rw [same]
    exact c.load_ended before (beside k mem).1

end Concludes

/-- What holds of a `loadMany` in a step that has single lookups of all its keys and primes none of them. -/
def StepTallies (os : List (Operation κ ν)) (outs : List (Outcome κ ν)) : Prop :=
  ∀ (i : Nat) (ks : List κ), os[i]? = some (.loadMany ks) →
    (∀ k ∈ ks, .load k ∈ os ∧ ∀ v, .prime k v ∉ os) →
      ∃ result, outs[i]? = some (.gathered result) ∧ Tallies ks (EndedWith os outs) result

theorem runSteps_tallies (backend : Backend κ ν σ) {st : LoaderSettings}
    (steps : List (Nat × List (Operation κ ν))) {h₀ : List (Event κ ν)} {l : Loader κ ν}
    {ts : List (Task κ ν)} (before : History ⟨new st, []⟩ h₀ ⟨l, ts⟩) (calm : Calm l) (now : Nat) (s : σ) :
    List.Forall₂ (fun step outs => StepTallies step.2 outs) steps (runSteps backend now l s steps) := by
  induction steps generalizing h₀ l ts now s with
  | nil => exact .nil
  | cons step steps ih =>
    obtain ⟨pause, os⟩ := step
    obtain ⟨h, ts', first, calm'⟩ := run_concludes backend before calm (now + pause) s os
    exact .cons (fun i ks here beside => first.tallies before here beside)
      (ih (before.append first.plays.history) calm' _ _)

/-- A `loadMany` agrees with single lookups of its keys. In every interleaving, from whatever state the
loader was left in and whatever the backend answers, a `loadMany` that has ended comes to what the single
lookups that ran beside it tell, when none of its keys was primed in between. Under a clock, in each of any
row of steps, the `loadMany` and the single lookups all end. -/
theorem load_many_as_single_loads (st : LoaderSettings) :
    (∀ (h₀ h : List (Event κ ν)) (w₀ w : Traffic κ ν), History ⟨new st, []⟩ h₀ w₀ → History w₀ h w →
      ∀ (i : Nat) (ks : List κ) (result : Except Fault (List (κ × ν))), w₀.tasks.length ≤ i →
        w.tasks[i]? = some ⟨.loadMany ks, .running (.finished (.gathered result))⟩ →
        (∀ k ∈ ks, (∀ v, .primed k v ∉ h) ∧ ∃ answer, CameTo w₀ w k answer) →
          Tallies ks (CameTo w₀ w) result) ∧
    ∀ (σ : Type) (backend : Backend κ ν σ) (now : Nat) (s : σ)
      (steps : List (Nat × List (Operation κ ν))),
        List.Forall₂ (fun step outs => StepTallies step.2 outs) steps
          (runSteps backend now (new st) s steps) := by
  constructor
  · intro h₀ h w₀ w before after i ks result new here beside
    exact before.tallies after new here beside
  · intro σ backend now s steps
    have start : History ⟨new st, []⟩ [] (⟨new st, []⟩ : Traffic κ ν) := .nil
    exact runSteps_tallies backend steps start (by simp [Calm, new]) now s

end Keys

def beside : List (Operation Nat Nat) :=
  [.load 1, .loadMany [1, 2], .load 2]

def secondFails : List (Event Nat Nat) :=
  [.drew 0 1 (.batch 0), .began 1, .drew 1 1 (.batch 0), .drew 1 2 (.batch 1), .turned 1,
    .drew 2 2 (.batch 1), .sent 1 [2], .answered 1 [2] (.error (.internal "down")), .sent 0 [1],
    .answered 0 [1] (.ok double), .took 1 1 (.batch 0) (.ok (some 2)),
    .took 1 2 (.batch 1) (.error (.internal "down")), .took 0 1 (.batch 0) (.ok (some 2)),
    .took 2 2 (.batch 1) (.error (.internal "down"))]

def afterSecond : Traffic Nat Nat where
  loader := ⟨1, 1, [⟨[1], .answered (.ok double)⟩, ⟨[2], .answered (.error (.internal "down"))⟩],
    [(2, .batch 1), (1, .batch 0)]⟩
  tasks := [⟨.load 1, .running (.finished (.loaded (.ok (some 2))))⟩,
    ⟨.loadMany [1, 2], .running (.finished (.gathered (.error (.internal "down"))))⟩,
    ⟨.load 2, .running (.finished (.loaded (.error (.internal "down"))))⟩]

theorem load_many_as_single_loads_second_fails :
    Tallies [1, 2] (CameTo ⟨new ⟨1, 1⟩, []⟩ afterSecond) (.error (.internal "down")) ∧
    ∃ outs, runSteps doubler 0 (new ⟨1, 1⟩) [] [(0, beside)] = [outs] ∧
      ∃ result, outs[1]? = some (.gathered result) ∧ Tallies [1, 2] (EndedWith beside outs) result := by
  have start : History ⟨new ⟨1, 1⟩, []⟩ [] (⟨new ⟨1, 1⟩, []⟩ : Traffic Nat Nat) := .nil
  have drew := (((((start.snoc (.load 1 (.inl rfl))).snoc (.loadMany [1, 2])).snoc
    (.enqueue (i := 1) rfl)).snoc (.enqueue (i := 1) rfl)).snoc (.await (i := 1) rfl)).snoc
    (.load 2 (.inl rfl))
  have failed := (drew.snoc (.send (i := 1) (close_eq_some.mpr ⟨none, rfl, rfl⟩))).snoc
    (.answer (i := 1) (.error (.internal "down")) rfl (settle_eq_some.mpr ⟨[2], rfl, rfl⟩))
  have answered := (failed.snoc (.send (i := 0) (close_eq_some.mpr ⟨none, rfl, rfl⟩))).snoc
    (.answer (i := 0) (.ok double) rfl (settle_eq_some.mpr ⟨[1], rfl, rfl⟩))
  have gathered := (answered.snoc (.take (i := 1) rfl rfl rfl)).snoc (.take (i := 1) rfl rfl rfl)
  have loaded := gathered.snoc (.take (i := 0) (r := .loading 1 (.batch 0)) rfl rfl rfl)
  have run : History ⟨new ⟨1, 1⟩, []⟩ secondFails afterSecond :=
    loaded.snoc (.take (i := 2) (o := .load 2) (r := .loading 2 (.batch 1)) rfl rfl rfl)
  have came : ∀ k ∈ [1, 2], (∀ v, .primed k v ∉ secondFails) ∧
      ∃ answer, CameTo ⟨new ⟨1, 1⟩, []⟩ afterSecond k answer := by
    simp only [List.forall_mem_cons, secondFails]
    exact ⟨⟨by simp, _, 0, Nat.zero_le 0, rfl⟩, ⟨by simp, _, 2, Nat.zero_le 2, rfl⟩, by simp⟩
  obtain ⟨interleaved, clocked⟩ := @load_many_as_single_loads Nat Nat _ ⟨1, 1⟩
  have steps := clocked _ doubler 0 [] [(0, beside)]
  refine ⟨interleaved [] secondFails _ afterSecond .nil run 1 [1, 2] _ (Nat.zero_le 1) rfl came, _, rfl, ?_⟩
  cases steps with
  | cons first _ => exact first 1 [1, 2] rfl (by simp [beside])

end InfraGraph.Loader
