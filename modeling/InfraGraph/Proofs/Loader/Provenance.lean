import InfraGraph.Proofs.Loader.Kept

/-!
Where an answer comes from, read off the history alone. A lookup that draws its ticket after its key was
primed gets the value of the last such priming. Any other gets the answer of the batch that its key entered
when it was first asked for; so all of these are alike, those of a failed batch have its fault, and no later
priming changes them. The backend may answer as it likes.
-/

namespace InfraGraph.Loader

variable {κ ν : Type}

def collect : List (κ × Except Fault (Option ν)) → Except Fault (List (κ × ν))
  | [] => .ok []
  | (_, .error f) :: _ => .error f
  | (k, .ok v) :: answers => (collect answers).map ((v.map (k, ·)).toList ++ ·)

theorem collect_concat {answers : List (κ × Except Fault (Option ν))} {found : List (κ × ν)}
    (so_far : collect answers = .ok found) (k : κ) (answer : Except Fault (Option ν)) :
    collect (answers ++ [(k, answer)]) =
      answer.map fun v => found ++ (v.map (k, ·)).toList := by
  induction answers generalizing found with
  | nil =>
    obtain rfl : [] = found := by simpa [collect] using so_far
    cases answer <;> simp [collect, Except.map]
  | cons p answers ih =>
    obtain ⟨x, f | v⟩ := p
    · simp [collect] at so_far
    · cases rest : collect answers with
      | error f => simp [collect, rest, Except.map] at so_far
      | ok found' =>
        obtain rfl : (v.map (x, ·)).toList ++ found' = found := by
          simpa [collect, rest, Except.map] using so_far
        simp only [List.cons_append, collect, ih rest]
        cases answer <;> simp [Except.map]

inductive Collecting (got : κ → Except Fault (Option ν) → Prop) (gone : Prop) (ks : List κ) :
    Phase κ ν → Prop
  | enqueuing {drawn : List (κ × Ticket ν)} {rest : List κ} (all : drawn.map Prod.fst ++ rest = ks) :
      Collecting got gone ks (.enqueuing drawn rest)
  | gathering {rest : List (κ × Ticket ν)} {found : List (κ × ν)}
      (answers : List (κ × Except Fault (Option ν))) (each : ∀ p ∈ answers, got p.1 p.2)
      (all : answers.map Prod.fst ++ rest.map Prod.fst = ks) (so_far : collect answers = .ok found) :
      Collecting got gone ks (.running (.gathering rest found))
  | found {found : List (κ × ν)} (answers : List (κ × Except Fault (Option ν)))
      (each : ∀ p ∈ answers, got p.1 p.2) (all : answers.map Prod.fst = ks)
      (so_far : collect answers = .ok found) :
      Collecting got gone ks (.running (.finished (.gathered (.ok found))))
  | failed {f : Fault} (answers : List (κ × Except Fault (Option ν)))
      (each : ∀ p ∈ answers, got p.1 p.2) (part : answers.map Prod.fst <+: ks)
      (so_far : collect answers = .error f) :
      Collecting got gone ks (.running (.finished (.gathered (.error f))))
  | dropped (left : gone) : Collecting got gone ks (.running (.finished .abandoned))

theorem Collecting.imp {got got' : κ → Except Fault (Option ν) → Prop} {gone gone' : Prop}
    {ks : List κ} {p : Phase κ ν} (c : Collecting got gone ks p)
    (more : ∀ k answer, got k answer → got' k answer) (left : gone → gone') :
    Collecting got' gone' ks p := by
  cases c with
  | enqueuing all => exact .enqueuing all
  | gathering answers each all so_far =>
    exact .gathering answers (fun p mem => more _ _ (each p mem)) all so_far
  | found answers each all so_far =>
    exact .found answers (fun p mem => more _ _ (each p mem)) all so_far
  | failed answers each part so_far =>
    exact .failed answers (fun p mem => more _ _ (each p mem)) part so_far
  | dropped gone => exact .dropped (left gone)

theorem Collecting.take {got : κ → Except Fault (Option ν) → Prop} {gone : Prop} {ks : List κ}
    {r : Running κ ν} {k : κ} {t : Ticket ν} {answer : Except Fault (Option ν)}
    (c : Collecting got gone ks (.running r)) (next : r.next? = some (k, t)) (new : got k answer) :
    Collecting got gone ks (.running (r.take answer)) := by
  cases c with
  | @gathering rest found answers each all so_far =>
    obtain ⟨rest, rfl⟩ : ∃ rest', rest = (k, t) :: rest' := by
      cases rest with
      | nil => simp [Running.next?] at next
      | cons p rest => exact ⟨rest, by rw [Option.some.inj next]⟩
    have each' : ∀ p ∈ answers ++ [(k, answer)], got p.1 p.2 := by
      simpa [or_imp, forall_and, new] using each
    have all' : (answers ++ [(k, answer)]).map Prod.fst ++ rest.map Prod.fst = ks := by
      simpa using all
    have more := collect_concat so_far k answer
    rcases answer with f | _ | v
    · exact .failed _ each' ⟨_, all'⟩ more
    · exact .gathering _ each' all' (by simpa [Except.map] using more)
    · exact .gathering _ each' all' (by simpa [Except.map] using more)
  | found _ _ _ _ => simp [Running.next?] at next
  | failed _ _ _ _ => simp [Running.next?] at next
  | dropped _ => simp [Running.next?] at next

section Keys

variable [DecidableEq κ]

theorem History.snoc_cases {w w' : Traffic κ ν} {h : List (Event κ ν)} {e : Event κ ν}
    (run : History w (h ++ [e]) w') : ∃ w₁, History w h w₁ ∧ Step w₁ e w' := by
  generalize whole : h ++ [e] = h' at run
  cases run with
  | nil => simp at whole
  | snoc before step =>
    obtain ⟨rfl, rfl⟩ := List.append_inj' whole rfl |>.imp_right fun same => List.singleton_inj.mp same
    exact ⟨_, before, step⟩

theorem History.split {w w' : Traffic κ ν} {h h' : List (Event κ ν)} (run : History w (h ++ h') w') :
    ∃ w₁, History w h w₁ ∧ History w₁ h' w' := by
  induction h' using List.reverseRecOn generalizing w' with
  | nil => exact ⟨w', by simpa using run, .nil⟩
  | append_singleton h' e ih =>
    rw [← List.append_assoc] at run
    obtain ⟨w₂, before, step⟩ := run.snoc_cases
    obtain ⟨w₁, first, second⟩ := ih before
    exact ⟨w₁, first, second.snoc step⟩

def lastPrimed (h : List (Event κ ν)) (k : κ) : Option ν :=
  mapAfter (fun _ => none) h k

def Event.batchOf (k : κ) : Event κ ν → Option Nat
  | .drew _ x (.batch b) => if x = k then some b else none
  | _ => none

def firstBatch (k : κ) (h : List (Event κ ν)) : Option Nat :=
  h.findSome? (Event.batchOf k)

theorem firstBatch_concat (k : κ) (h : List (Event κ ν)) (e : Event κ ν) :
    firstBatch k (h ++ [e]) = (firstBatch k h).or (e.batchOf k) := by
  simp [firstBatch, List.findSome?_append, List.findSome?_cons]
  cases e.batchOf k <;> rfl

theorem firstBatch_append {k : κ} {h : List (Event κ ν)} {b : Nat} (first : firstBatch k h = some b)
    (h' : List (Event κ ν)) : firstBatch k (h ++ h') = some b := by
  have first' : h.findSome? (Event.batchOf k) = some b := first
  simp [firstBatch, List.findSome?_append, first']

def ticketAfter (h : List (Event κ ν)) (k : κ) : Option (Ticket ν) :=
  match lastPrimed h k with
  | some v => some (.primed v)
  | none => (firstBatch k h).map .batch

theorem ticketAfter_eq_primed {h : List (Event κ ν)} {k : κ} {v : ν} :
    ticketAfter h k = some (.primed v) ↔ lastPrimed h k = some v := by
  cases last : lastPrimed h k <;> simp [ticketAfter, last]

theorem ticketAfter_eq_batch {h : List (Event κ ν)} {k : κ} {b : Nat} :
    ticketAfter h k = some (.batch b) ↔ lastPrimed h k = none ∧ firstBatch k h = some b := by
  cases last : lastPrimed h k <;> simp [ticketAfter, last]

theorem ticketAfter_eq_none {h : List (Event κ ν)} {k : κ} :
    ticketAfter h k = none ↔ lastPrimed h k = none ∧ firstBatch k h = none := by
  cases last : lastPrimed h k <;> simp [ticketAfter, last]

theorem lastPrimed_concat (h : List (Event κ ν)) (e : Event κ ν) (k : κ) :
    lastPrimed (h ++ [e]) k = mapAfter (lastPrimed h) [e] k := by
  rw [lastPrimed, mapAfter_append]
  rfl

theorem lastPrimed_drew (h : List (Event κ ν)) (i : Nat) (x : κ) (t : Ticket ν) (k : κ) :
    lastPrimed (h ++ [.drew i x t]) k = lastPrimed h k :=
  lastPrimed_concat h _ k

theorem ticketAfter_of_silent {h : List (Event κ ν)} {e : Event κ ν} {k : κ}
    (unprimed : lastPrimed (h ++ [e]) k = lastPrimed h k) (undrawn : e.batchOf k = none) :
    ticketAfter (h ++ [e]) k = ticketAfter h k := by
  simp [ticketAfter, unprimed, firstBatch_concat, undrawn]

theorem ticketAfter_of_known {h : List (Event κ ν)} {i : Nat} {k : κ} {t : Ticket ν}
    (known : ticketAfter h k = some t) : ticketAfter (h ++ [.drew i k t]) k = some t := by
  cases t with
  | primed v =>
    rw [ticketAfter_eq_primed] at known ⊢
    rw [lastPrimed_drew, known]
  | batch b =>
    rw [ticketAfter_eq_batch] at known ⊢
    rw [lastPrimed_drew]
    exact ⟨known.1, firstBatch_append known.2 _⟩

theorem ticketAfter_of_new {h : List (Event κ ν)} {i b : Nat} {k : κ} (new : ticketAfter h k = none) :
    ticketAfter (h ++ [.drew i k (.batch b)]) k = some (.batch b) := by
  rw [ticketAfter_eq_none] at new
  rw [ticketAfter_eq_batch, lastPrimed_drew, firstBatch_concat, new.2]
  exact ⟨new.1, by simp [Event.batchOf]⟩

theorem Change.ticket? {l l' : Loader κ ν} {e : Event κ ν} (c : Change l e l') {h : List (Event κ ν)}
    (before : ∀ k, l.ticket? k = ticketAfter h k) (x : κ) : l'.ticket? x = ticketAfter (h ++ [e]) x := by
  cases c with
  | quiet quiet =>
    rw [before, ticketAfter_of_silent]
    · rw [lastPrimed_concat]
      cases e <;> first | rfl | simp [Event.isQuiet] at quiet
    · cases e <;> first | rfl | simp [Event.isQuiet] at quiet
  | enqueue i k =>
    by_cases hx : x = k
    · subst hx
      rw [enqueue_ticket?]
      cases known : l.ticket? x with
      | some t =>
        rw [enqueue_of_ticket known]
        exact (ticketAfter_of_known ((before x).symm.trans known)).symm
      | none =>
        obtain ⟨b, enters⟩ := enqueue_enters known
        rw [enters.ticket]
        exact (ticketAfter_of_new ((before x).symm.trans known)).symm
    · rw [ticket?_enqueue_of_ne hx, before, ticketAfter_of_silent (lastPrimed_concat h _ x)]
      cases (l.enqueue k).1 <;> simp [Event.batchOf, Ne.symm hx]
  | prime k v =>
    rw [prime_ticket?]
    by_cases hx : x = k
    · subst hx
      simp [ticketAfter, lastPrimed_concat, mapAfter]
    · rw [if_neg hx, before, ticketAfter_of_silent ?_ rfl]
      simp [lastPrimed_concat, mapAfter, hx]
  | start _ _ => exact (before x).trans (ticketAfter_of_silent (lastPrimed_concat h _ x) rfl).symm
  | send _ => exact (before x).trans (ticketAfter_of_silent (lastPrimed_concat h _ x) rfl).symm
  | answer _ _ => exact (before x).trans (ticketAfter_of_silent (lastPrimed_concat h _ x) rfl).symm

theorem Change.answered_iff {l l' : Loader κ ν} {e : Event κ ν} (c : Change l e l') {b : Nat}
    {keys : List κ} {a : Answer κ ν} :
    l'.batches[b]? = some ⟨keys, .answered a⟩ ↔
      l.batches[b]? = some ⟨keys, .answered a⟩ ∨ e = .answered b keys a := by
  cases c with
  | quiet quiet => cases e <;> simp [Event.isQuiet] at quiet ⊢
  | enqueue _ k =>
    simp only [reduceCtorEq, or_false]
    refine enqueue_induction (P := fun l' => l'.batches[b]? = some ⟨keys, .answered a⟩ ↔
      l.batches[b]? = some ⟨keys, .answered a⟩) .rfl fun i t l' _ enters => ?_
    by_cases hb : b = i
    · obtain ⟨due, here, ⟨none, _⟩ | ⟨gathers, _⟩⟩ := enters.here
      · simp [hb, here, none]
      · simp [hb, here, gathers]
    · rw [enters.other b hb]
  | prime _ _ => simp [Loader.prime]
  | @start i _ _ here =>
    rw [setStage_getElem?]
    split
    · next eq => subst eq; simp [here]
    · simp
  | @send i _ _ here =>
    rw [setStage_getElem?]
    split
    · next eq => subst eq; simp [here]
    · simp
  | @answer i _ _ here =>
    rw [setStage_getElem?]
    split
    · next eq => subst eq; simp [here]
    · next ne => simp [ne]

/-- What a lookup of a key gets that draws its ticket after the events `past` of a history. -/
inductive Gets (h past : List (Event κ ν)) (k : κ) : Except Fault (Option ν) → Prop
  | primed {v : ν} (last : lastPrimed past k = some v) : Gets h past k (.ok (some v))
  | batch {b : Nat} {keys : List κ} {a : Answer κ ν} (unprimed : lastPrimed past k = none)
      (first : firstBatch k h = some b) (asked : k ∈ keys) (came : .answered b keys a ∈ h) :
      Gets h past k (a.map (· k))

inductive Looking (k : κ) (t : Ticket ν) (answered : Except Fault (Option ν) → Prop) (gone : Prop) :
    Phase κ ν → Prop
  | waiting : Looking k t answered gone (.running (.loading k t))
  | answered {answer : Except Fault (Option ν)} (came : answered answer) :
      Looking k t answered gone (.running (.finished (.loaded answer)))
  | dropped (left : gone) : Looking k t answered gone (.running (.finished .abandoned))

omit [DecidableEq κ] in
theorem Looking.imp {k : κ} {t : Ticket ν} {answered answered' : Except Fault (Option ν) → Prop}
    {gone gone' : Prop} {p : Phase κ ν} (looking : Looking k t answered gone p)
    (more : ∀ answer, answered answer → answered' answer) (left : gone → gone') :
    Looking k t answered' gone' p := by
  cases looking with
  | waiting => exact .waiting
  | answered came => exact .answered (more _ came)
  | dropped gone => exact .dropped (left gone)

structure Looks (h : List (Event κ ν)) (i : Nat) (k : κ) (t : Ticket ν)
    (past later : List (Event κ ν)) : Prop where
  parts : h = past ++ .drew i k t :: later
  first : ∀ x u, .drew i x u ∉ past
  only : ∀ x u, .drew i x u ∉ later

omit [DecidableEq κ] in
theorem Looks.snoc {h past later : List (Event κ ν)} {i : Nat} {k : κ} {t : Ticket ν}
    (looks : Looks h i k t past later) {e : Event κ ν} (silent : ∀ x u, e ≠ .drew i x u) :
    Looks (h ++ [e]) i k t past (later ++ [e]) where
  parts := by simp [looks.parts]
  first := looks.first
  only x u := by simpa using ⟨looks.only x u, (silent x u).symm⟩

section Runs

variable {s : LoaderSettings} {h : List (Event κ ν)} {w : Traffic κ ν}

theorem History.ticket? (run : History ⟨new s, []⟩ h w) (k : κ) :
    w.loader.ticket? k = ticketAfter h k := by
  induction run generalizing k with
  | nil => rfl
  | snoc _ step ih => exact step.change.ticket? ih k

theorem History.firstBatch_of_mem (run : History ⟨new s, []⟩ h w) {b : Nat} {k : κ}
    (mem : k ∈ w.loader.keysAt b) : firstBatch k h = some b := by
  induction run with
  | nil => simp [keysAt, new] at mem
  | @snoc h w w' e before step ih =>
    have old (mem : k ∈ w.loader.keysAt b) : firstBatch k (h ++ [e]) = some b :=
      firstBatch_append (ih mem) [e]
    have change := step.change
    generalize w'.loader = l' at change mem
    cases change with
    | quiet _ => exact old mem
    | enqueue i x =>
      cases known : w.loader.ticket? x with
      | some t => exact old (by rwa [enqueue_of_ticket known] at mem)
      | none =>
        obtain ⟨b', enters⟩ := enqueue_enters known
        rcases enters.mem_keysAt.mp mem with here | ⟨rfl, rfl⟩
        · exact old here
        · rw [enters.ticket]
          have new := (before.ticket? k).symm.trans known
          exact (ticketAfter_eq_batch.mp (ticketAfter_of_new new)).2
    | prime _ _ => exact old mem
    | start _ _ => exact old (by simpa using mem)
    | send _ => exact old (by simpa using mem)
    | answer _ _ => exact old (by simpa using mem)

theorem History.answered_iff (run : History ⟨new s, []⟩ h w) {b : Nat} {keys : List κ}
    {a : Answer κ ν} :
    .answered b keys a ∈ h ↔ w.loader.batches[b]? = some ⟨keys, .answered a⟩ := by
  induction run with
  | nil => simp [new]
  | snoc _ step ih =>
    rw [step.change.answered_iff, List.mem_append, ih, List.mem_singleton]
    exact or_congr_right eq_comm

theorem History.held (run : History ⟨new s, []⟩ h w) {i : Nat} {task : Task κ ν}
    (here : w.tasks[i]? = some task) {p : κ × Ticket ν} (hp : p ∈ task.phase.tickets) :
    .drew i p.1 p.2 ∈ h := by
  induction run generalizing task with
  | nil => simp at here
  | snoc _ step ih =>
    rcases step.tickets here hp with ⟨earlier, before, hp'⟩ | rfl
    · exact List.mem_append_left _ (ih before hp')
    · simp

theorem History.undrawn (run : History ⟨new s, []⟩ h w) {i : Nat} (none : w.tasks[i]? = none) (k : κ)
    (t : Ticket ν) : .drew i k t ∉ h := by
  induction run with
  | nil => simp
  | snoc _ step ih =>
    obtain ⟨none', silent, _⟩ := step.absent none
    simpa using ⟨ih none', (silent k t).symm⟩

theorem History.took_after (run : History ⟨new s, []⟩ h w) {i : Nat} {k : κ} {t : Ticket ν}
    {answer : Except Fault (Option ν)} (mem : .took i k t answer ∈ h) :
    ∃ past later, h = past ++ .drew i k t :: later ∧ .took i k t answer ∈ later := by
  induction run with
  | nil => simp at mem
  | @snoc h w w' e before step ih =>
    rcases List.mem_append.mp mem with old | new
    · obtain ⟨past, later, rfl, took⟩ := ih old
      exact ⟨past, later ++ [e], by simp, List.mem_append_left _ took⟩
    · obtain rfl := List.mem_singleton.mp new
      obtain ⟨⟨task, here, hp⟩, _⟩ := step.took
      obtain ⟨past, later, rfl⟩ := List.append_of_mem (before.held here hp)
      exact ⟨past, later ++ [.took i k t answer], by simp, by simp⟩

theorem History.took_answer (run : History ⟨new s, []⟩ h w) {i b : Nat} {k : κ}
    {answer : Except Fault (Option ν)} (mem : .took i k (.batch b) answer ∈ h) :
    ∃ keys a, .answered b keys a ∈ h ∧ answer = a.map (· k) := by
  induction run with
  | nil => simp at mem
  | snoc before step ih =>
    rcases List.mem_append.mp mem with old | new
    · obtain ⟨keys, a, came, same⟩ := ih old
      exact ⟨keys, a, List.mem_append_left _ came, same⟩
    · obtain rfl := List.mem_singleton.mp new
      have read := step.took.2
      simp only [Loader.read] at read
      split at read
      · next keys a here =>
        exact ⟨keys, a, (before.snoc step).answered_iff.mpr here, (Option.some.inj read).symm⟩
      · simp at read

theorem History.looks (run : History ⟨new s, []⟩ h w) {i : Nat} {o : Operation κ ν} {p : Phase κ ν}
    {k : κ} (here : w.tasks[i]? = some ⟨o, p⟩) (single : o = .load k ∨ o = .abandon k) :
    ∃ t past later, Looks h i k t past later ∧
      Looking k t (.took i k t · ∈ later) (.dropped i ∈ later) p := by
  induction run generalizing p with
  | nil => simp at here
  | @snoc h w w' e before step ih =>
    have goes {p p' : Phase κ ν} (earlier : w.tasks[i]? = some ⟨o, p'⟩)
        (silent : ∀ x u, e ≠ .drew i x u)
        (moves : ∀ t later, Looking k t (.took i k t · ∈ later) (.dropped i ∈ later) p' →
          Looking k t (.took i k t · ∈ later ++ [e]) (.dropped i ∈ later ++ [e]) p) :
        ∃ t past later, Looks (h ++ [e]) i k t past later ∧
          Looking k t (.took i k t · ∈ later) (.dropped i ∈ later) p := by
      obtain ⟨t, past, later, looks, looking⟩ := ih earlier
      exact ⟨t, past, later ++ [e], looks.snoc silent, moves t later looking⟩
    -- a step of another task leaves this one as it was, and draws no ticket for it
    rcases step.progress here with ⟨old, silent⟩ | progress
    · exact goes old silent fun t later looking =>
        looking.imp (fun _ => List.mem_append_left _) (List.mem_append_left _)
    · generalize was : w.tasks[i]? = earlier at progress
      cases progress with
      | load k' single' =>
        obtain rfl : k = k' := by
          rcases single with rfl | rfl <;> simpa using single'
        exact ⟨_, h, [], ⟨rfl, before.undrawn was, by simp⟩, .waiting⟩
      | loadMany _ => simp at single
      | enqueue =>
        obtain ⟨_, _, _, _, looking⟩ := ih was
        cases looking
      | await =>
        obtain ⟨_, _, _, _, looking⟩ := ih was
        cases looking
      | take next _ =>
        refine goes was (by simp) fun t later looking => ?_
        cases looking with
        | waiting =>
          obtain ⟨rfl, rfl⟩ : k = _ ∧ t = _ := by simpa [Running.next?] using next
          exact .answered (by simp)
        | answered _ => simp [Running.next?] at next
        | dropped _ => simp [Running.next?] at next
      | finish =>
        obtain ⟨_, _, _, _, looking⟩ := ih was
        cases looking
      | drop => exact goes was (by simp) fun t later _ => .dropped (by simp)
      | prime _ _ => simp at single

theorem History.collects (run : History ⟨new s, []⟩ h w) {i : Nat} {ks : List κ} {p : Phase κ ν}
    (here : w.tasks[i]? = some ⟨.loadMany ks, p⟩) :
    Collecting (fun k answer => ∃ t, .took i k t answer ∈ h) (.dropped i ∈ h) ks p := by
  induction run generalizing p with
  | nil => simp at here
  | @snoc h w w' e _ step ih =>
    have goes {p : Phase κ ν} (earlier : w.tasks[i]? = some ⟨.loadMany ks, p⟩) :
        Collecting (fun k answer => ∃ t, .took i k t answer ∈ h ++ [e]) (.dropped i ∈ h ++ [e]) ks p :=
      (ih earlier).imp (fun k answer ⟨t, mem⟩ => ⟨t, List.mem_append_left _ mem⟩)
        (List.mem_append_left _)
    rcases step.progress here with ⟨old, _⟩ | progress
    · exact goes old
    · generalize was : w.tasks[i]? = earlier at progress
      cases progress with
      | load _ single => simp at single
      | loadMany _ => exact .enqueuing rfl
      | enqueue =>
        cases goes was with
        | enqueuing all => exact .enqueuing (by simpa using all)
      | await =>
        cases goes was with
        | enqueuing all => exact .gathering [] (by simp) (by simpa using all) rfl
      | @take _ _ _ t _ next _ => exact (goes was).take next ⟨t, by simp⟩
      | finish =>
        cases goes was with
        | gathering answers each all so_far =>
          exact .found answers each (by simpa using all) so_far
      | drop => exact .dropped (by simp)

theorem History.drew_ticket {past later : List (Event κ ν)} {i : Nat} {k : κ} {t : Ticket ν}
    (run : History ⟨new s, []⟩ (past ++ .drew i k t :: later) w) :
    ticketAfter (past ++ [.drew i k t]) k = some t := by
  rw [List.append_cons] at run
  obtain ⟨_, first, _⟩ := run.split
  obtain ⟨_, _, step⟩ := first.snoc_cases
  rw [← first.ticket?, step.drew]

theorem History.gets (run : History ⟨new s, []⟩ h w) {past later : List (Event κ ν)} {i : Nat} {k : κ}
    {t : Ticket ν} {answer : Except Fault (Option ν)} (parts : h = past ++ .drew i k t :: later)
    (mem : .took i k t answer ∈ h) : Gets h past k answer := by
  obtain ⟨drawn, value, _⟩ := run.dispatched.taken i k t answer mem
  have ticket := History.drew_ticket (parts ▸ run)
  cases t with
  | primed v =>
    rw [ticketAfter_eq_primed, lastPrimed_drew] at ticket
    rw [value v rfl]
    exact .primed ticket
  | batch b =>
    rw [ticketAfter_eq_batch, lastPrimed_drew] at ticket
    obtain ⟨keys, a, came, rfl⟩ := run.took_answer mem
    have asked : k ∈ w.loader.keysAt b := drawn
    rw [keysAt_of_getElem? (run.answered_iff.mp came)] at asked
    refine .batch ticket.1 ?_ asked came
    rw [parts, List.append_cons]
    exact firstBatch_append ticket.2 later

theorem History.answer_unique (run : History ⟨new s, []⟩ h w) {b : Nat} {keys keys' : List κ}
    {a a' : Answer κ ν} (came : .answered b keys a ∈ h) (came' : .answered b keys' a' ∈ h) :
    keys = keys' ∧ a = a' := by
  have same := (run.answered_iff.mp came).symm.trans (run.answered_iff.mp came')
  simpa using same

theorem History.alike (run : History ⟨new s, []⟩ h w) {past past' : List (Event κ ν)} {k : κ}
    {answer answer' : Except Fault (Option ν)} (gets : Gets h past k answer)
    (gets' : Gets h past' k answer') (unprimed : lastPrimed past k = none)
    (unprimed' : lastPrimed past' k = none) : answer = answer' := by
  cases gets with
  | primed last => simp [last] at unprimed
  | batch _ first _ came =>
    cases gets' with
    | primed last => simp [last] at unprimed'
    | batch _ first' _ came' =>
      obtain rfl := Option.some.inj (first.symm.trans first')
      rw [(run.answer_unique came came').2]

theorem History.failed (run : History ⟨new s, []⟩ h w) {b : Nat} {keys : List κ} {f : Fault}
    (came : .answered b keys (.error f) ∈ h) {k : κ} (mem : k ∈ keys) {past : List (Event κ ν)}
    {answer : Except Fault (Option ν)} (gets : Gets h past k answer)
    (unprimed : lastPrimed past k = none) : answer = .error f := by
  have asked : k ∈ w.loader.keysAt b := by
    rwa [keysAt_of_getElem? (run.answered_iff.mp came)]
  have failure : Gets h past k ((Except.error f : Answer κ ν).map (· k)) :=
    .batch unprimed (run.firstBatch_of_mem asked) mem came
  exact run.alike gets failure unprimed unprimed

/-- A key of a batch that was answered entered that batch first, and no other call had it. -/
theorem History.answered_key (run : History ⟨new s, []⟩ h w) {b : Nat} {keys : List κ}
    {a : Answer κ ν} (came : .answered b keys a ∈ h) {k : κ} (mem : k ∈ keys) :
    firstBatch k h = some b ∧ (calls h).filter (k ∈ ·.2) = [(b, keys)] := by
  have here := run.answered_iff.mp came
  have called : (b, keys) ∈ calls h :=
    (run.dispatched.called b keys).mpr (by simp [callAt, here, Batch.isGathering])
  refine ⟨run.firstBatch_of_mem ?_, run.dispatched.filter_calls called mem⟩
  rwa [keysAt_of_getElem? here]

theorem History.enqueue_eq (run : History ⟨new s, []⟩ h w) {k : κ} {t : Ticket ν}
    (known : ticketAfter h k = some t) : w.loader.enqueue k = (t, w.loader) :=
  enqueue_of_ticket ((run.ticket? k).trans known)

end Runs

end Keys

end InfraGraph.Loader
