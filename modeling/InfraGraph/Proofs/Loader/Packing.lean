import InfraGraph.Proofs.Loader.Kept
import Mathlib.Algebra.Order.BigOperators.Group.List
import Mathlib.Algebra.Order.Group.Nat

/-!
How keys are packed. While no batch is sent, the keys that enter a loader fill one batch after another: a
key joins the newest batch as long as that has room, and then the next one is opened. So whatever row of
keys is asked for, with whatever repetitions, the new batches are the consecutive blocks of the new keys,
each as large as is allowed but for the last.
-/

namespace InfraGraph.Loader

variable {κ ν σ : Type}

def firstBlocks (m : Nat) (ks : List κ) (n : Nat) : List (List κ) :=
  (List.range n).map fun j => (ks.drop (j * m)).take m

/-- Keys in consecutive blocks of `m`; the last block may be shorter. -/
def blocks (m : Nat) (ks : List κ) : List (List κ) :=
  firstBlocks m ks ((ks.length + m - 1) / m)

@[simp] theorem blocks_length (m : Nat) (ks : List κ) :
    (blocks m ks).length = (ks.length + m - 1) / m := by
  simp [blocks, firstBlocks]

theorem firstBlocks_succ (m : Nat) (ks : List κ) (n : Nat) :
    firstBlocks m ks (n + 1) = firstBlocks m ks n ++ [(ks.drop (n * m)).take m] := by
  simp [firstBlocks, List.range_succ]

theorem blocks_nil {m : Nat} (pos : 1 ≤ m) : blocks m ([] : List κ) = [] := by
  have none : (0 + m - 1) / m = 0 := Nat.div_eq_of_lt (by omega)
  rw [blocks, List.length_nil, none]
  rfl

theorem blocks_eq {m : Nat} {ks : List κ} {q : Nat} (some : q * m < ks.length)
    (all : ks.length ≤ (q + 1) * m) : blocks m ks = firstBlocks m ks q ++ [ks.drop (q * m)] := by
  rw [Nat.succ_mul] at all
  have count : (ks.length + m - 1) / m = q + 1 := by
    apply Nat.div_eq_of_lt_le
    · rw [Nat.succ_mul]
      omega
    · rw [Nat.succ_mul, Nat.succ_mul]
      omega
  rw [blocks, count, firstBlocks_succ, List.take_of_length_le]
  rw [List.length_drop]
  omega

theorem firstBlocks_concat {m : Nat} {ks : List κ} {n : Nat} (full : n * m ≤ ks.length) (k : κ) :
    firstBlocks m (ks ++ [k]) n = firstBlocks m ks n := by
  apply List.map_congr_left
  intro j mem
  have inside : (j + 1) * m ≤ n * m := Nat.mul_le_mul_right m (List.mem_range.mp mem)
  rw [Nat.succ_mul] at inside
  rw [List.drop_append_of_le_length (by omega), List.take_append_of_le_length]
  rw [List.length_drop]
  omega

/-- However distinct keys are spread over lists of at most `m`, it takes as many lists as there are blocks. -/
theorem blocks_fewest {m : Nat} (pos : 1 ≤ m) {ks : List κ} (distinct : ks.Nodup) {bs : List (List κ)}
    (small : ∀ b ∈ bs, b.length ≤ m) (spread : ∀ k ∈ ks, ∃ b ∈ bs, k ∈ b) :
    (blocks m ks).length ≤ bs.length := by
  have fits : ks.length ≤ bs.flatten.length :=
    distinct.length_le_of_subset fun k mem => List.mem_flatten.mpr (spread k mem)
  have room : bs.flatten.length ≤ bs.length * m := by
    rw [List.length_flatten]
    simpa using List.sum_le_card_nsmul (bs.map List.length) m (by simpa using small)
  rw [blocks_length]
  apply Nat.le_of_lt_succ
  rw [Nat.div_lt_iff_lt_mul pos, Nat.succ_mul]
  omega

/-- How batches of at most `m` keys are filled one key at a time. -/
inductive Packs (m : Nat) : List κ → List (List κ) → Prop
  | nil : Packs m [] []
  | opens {ks : List κ} {bs : List (List κ)} (k : κ) (before : Packs m ks bs)
      (full : ∀ b, bs.getLast? = some b → m ≤ b.length) : Packs m (ks ++ [k]) (bs ++ [[k]])
  | joins {ks : List κ} {bs : List (List κ)} {b : List κ} (k : κ) (before : Packs m ks (bs ++ [b]))
      (room : b.length < m) : Packs m (ks ++ [k]) (bs ++ [b ++ [k]])

theorem Packs.shape {m : Nat} (pos : 1 ≤ m) {ks : List κ} {bs : List (List κ)} (packs : Packs m ks bs) :
    ks = [] ∧ bs = [] ∨ ∃ q, q * m < ks.length ∧ ks.length ≤ (q + 1) * m ∧
      bs = firstBlocks m ks q ++ [ks.drop (q * m)] := by
  induction packs with
  | nil => exact .inl ⟨rfl, rfl⟩
  | @opens ks bs k _ full ih =>
    right
    rcases ih with ⟨rfl, rfl⟩ | ⟨q, some, all, rfl⟩
    · exact ⟨0, by simp, by simpa using pos, by simp [firstBlocks]⟩
    · have last := full (ks.drop (q * m)) (by simp)
      have next : (q + 1) * m = ks.length := by
        rw [List.length_drop] at last
        rw [Nat.succ_mul] at all ⊢
        omega
      refine ⟨q + 1, ?_, ?_, ?_⟩
      · rw [next, List.length_append, List.length_singleton]
        exact Nat.lt_succ_self _
      · rw [Nat.succ_mul, next, List.length_append, List.length_singleton]
        exact Nat.add_le_add_left pos _
      · rw [firstBlocks_concat (Nat.le_of_eq next), next, List.drop_left, firstBlocks_succ,
          List.take_of_length_le]
        rw [List.length_drop, ← next, Nat.succ_mul]
        omega
  | @joins ks bs b k _ room ih =>
    right
    rcases ih with ⟨_, none⟩ | ⟨q, some, all, same⟩
    · simp at none
    · obtain ⟨rfl, last⟩ := List.append_inj' same rfl
      obtain rfl := List.singleton_inj.mp last
      rw [List.length_drop] at room
      refine ⟨q, ?_, ?_, ?_⟩
      · rw [List.length_append]
        exact Nat.lt_add_right _ some
      · rw [List.length_append, List.length_singleton, Nat.succ_mul]
        omega
      · rw [firstBlocks_concat (Nat.le_of_lt some), List.drop_append_of_le_length (Nat.le_of_lt some)]

theorem Packs.eq_blocks {m : Nat} (pos : 1 ≤ m) {ks : List κ} {bs : List (List κ)}
    (packs : Packs m ks bs) : bs = blocks m ks := by
  rcases packs.shape pos with ⟨rfl, rfl⟩ | ⟨q, some, all, rfl⟩
  · rw [blocks_nil pos]
  · rw [blocks_eq some all]

theorem setStage_keys (l : Loader κ ν) (i : Nat) (stage : Batch.Stage κ ν) :
    (l.setStage i stage).batches.map Batch.keys = l.batches.map Batch.keys := by
  apply List.ext_getElem?
  intro j
  rw [List.getElem?_map, List.getElem?_map, setStage_getElem?]
  split
  · rw [Option.map_map]
    rfl
  · rfl

inductive Joins (l : Loader κ ν) (k : κ) : List (Batch κ ν) → Prop
  | joined {front : List (Batch κ ν)} {b : Batch κ ν} (newest : l.batches = front ++ [b])
      (gathers : b.isGathering) (room : b.keys.length < l.capacity) :
      Joins l k (front ++ [{ b with keys := b.keys ++ [k] }])
  | opened (full : ∀ front b, l.batches = front ++ [b] → b.isGathering → l.capacity ≤ b.keys.length) :
      Joins l k (l.batches ++ [⟨[k], .gathering none⟩])

theorem join_joins (l : Loader κ ν) (k : κ) : Joins l k (l.join k).2.batches := by
  unfold join newest
  cases last : l.batches.getLast? with
  | none =>
    have none := List.getLast?_eq_none_iff.mp last
    exact .opened fun front b same => by simp [none] at same
  | some b =>
    obtain ⟨front, newest⟩ := List.getLast?_eq_some_iff.mp last
    by_cases room : b.hasRoom l.capacity
    · simp only [room, if_true, newest, List.dropLast_concat]
      have able : b.isGathering ∧ b.keys.length < l.capacity := by simpa [Batch.hasRoom] using room
      exact .joined newest able.1 able.2
    · simp only [room]
      refine .opened fun front' b' same gathers => ?_
      obtain ⟨rfl, last'⟩ := List.append_inj' (newest.symm.trans same) rfl
      obtain rfl := List.singleton_inj.mp last'
      simpa [Batch.hasRoom, gathers] using room

section Keys

variable [DecidableEq κ]

/-- The keys of a row that a loader was never asked for, in the order in which they come first. A key that
was primed counts as asked for: the loader has its value. -/
def freshKeys (l : Loader κ ν) (ks : List κ) : List κ :=
  (ks.filter fun k => (l.ticket? k).isNone).eraseDups

theorem mem_freshKeys {l : Loader κ ν} {ks : List κ} {k : κ} :
    k ∈ freshKeys l ks ↔ k ∈ ks ∧ l.ticket? k = none := by
  simp [freshKeys]

theorem freshKeys_concat (l : Loader κ ν) (ks : List κ) (k : κ) :
    freshKeys l (ks ++ [k]) =
      freshKeys l ks ++ if l.ticket? k = none ∧ k ∉ ks then [k] else [] := by
  unfold freshKeys
  rw [List.filter_append, List.eraseDups_append]
  cases ticket : l.ticket? k with
  | some t => simp [ticket, List.removeAll]
  | none =>
    by_cases old : k ∈ ks
    · simp [ticket, List.removeAll, old]
    · simp [ticket, List.removeAll, old, List.eraseDups_cons]

theorem freshKeys_nodup (l : Loader κ ν) (ks : List κ) : (freshKeys l ks).Nodup := by
  induction ks using List.reverseRecOn with
  | nil => exact List.nodup_nil
  | append_singleton ks k ih =>
    rw [freshKeys_concat]
    split
    · next new =>
      apply List.nodup_append.mpr ⟨ih, List.nodup_singleton k, ?_⟩
      rintro x mem y mem' rfl
      obtain rfl := List.mem_singleton.mp mem'
      exact new.2 (List.mem_of_mem_filter (List.mem_eraseDups.mp mem))
    · rwa [List.append_nil]

def Event.asked? : Event κ ν → Option κ
  | drew _ k _ => some k
  | primed k _ => some k
  | _ => none

theorem ticket?_enqueue_eq_none (l : Loader κ ν) (k x : κ) :
    (l.enqueue k).2.ticket? x = none ↔ l.ticket? x = none ∧ x ≠ k := by
  by_cases same : x = k
  · simp [same, enqueue_ticket?]
  · simp [same, ticket?_enqueue_of_ne same]

theorem Change.unknown_iff {l l' : Loader κ ν} {e : Event κ ν} (c : Change l e l') (k : κ) :
    l'.ticket? k = none ↔ l.ticket? k = none ∧ e.asked? ≠ some k := by
  cases c with
  | quiet quiet => cases e <;> simp [Event.isQuiet, Event.asked?] at quiet ⊢
  | enqueue _ x =>
    rw [ticket?_enqueue_eq_none, ne_comm]
    simp [Event.asked?]
  | prime x v =>
    rw [prime_ticket?]
    by_cases same : k = x
    · simp [same, Event.asked?]
    · simp [same, Ne.symm same, Event.asked?]
  | start _ _ => exact (and_iff_left (by simp [Event.asked?])).symm
  | send _ => exact (and_iff_left (by simp [Event.asked?])).symm
  | answer _ _ => exact (and_iff_left (by simp [Event.asked?])).symm

theorem History.unknown_iff {st : LoaderSettings} {h : List (Event κ ν)} {w : Traffic κ ν}
    (run : History ⟨new st, []⟩ h w) (k : κ) :
    w.loader.ticket? k = none ↔ ∀ e ∈ h, e.asked? ≠ some k := by
  induction run with
  | nil => simp [new, ticket?]
  | snoc _ step ih =>
    rw [step.change.unknown_iff k, ih]
    simp [or_imp, forall_and]

omit [DecidableEq κ] in
theorem newest_of_keys {bs : List (Batch κ ν)} {front : List (List κ)} {last : List κ}
    (keys : bs.map Batch.keys = front ++ [last]) :
    ∃ front' b, bs = front' ++ [b] ∧ front'.map Batch.keys = front ∧ b.keys = last := by
  obtain ⟨front', rest, rfl, same, one⟩ := List.map_eq_append_iff.mp keys
  obtain ⟨b, rfl, rfl⟩ := List.map_eq_singleton_iff.mp one
  exact ⟨front', b, rfl, same, rfl⟩

/-- A loader after a row of keys was asked for, when none of the batches that were opened is sent yet. -/
structure Packed (l₀ : Loader κ ν) (asked : List κ) (l : Loader κ ν) : Prop where
  capacity : l.capacity = l₀.capacity
  delay : l.delay = l₀.delay
  ticket : ∀ k, l.ticket? k = none ↔ l₀.ticket? k = none ∧ k ∉ asked
  keys : ∃ bs, l.batches.map Batch.keys = l₀.batches.map Batch.keys ++ bs ∧
    Packs l₀.capacity (freshKeys l₀ asked) bs
  gathers : ∀ (i : Nat) (b : Batch κ ν), l.batches[i]? = some b →
    (b.isGathering ↔ l₀.batches.length ≤ i)

theorem packed_start {l : Loader κ ν} (fired : ∀ b ∈ l.batches, b.isGathering = false) :
    Packed l [] l where
  capacity := rfl
  delay := rfl
  ticket k := by simp
  keys := ⟨[], (List.append_nil _).symm, .nil⟩
  gathers i b here := by
    have inside := (List.getElem?_eq_some_iff.mp here).1
    rw [fired b (List.mem_of_getElem? here)]
    simpa using inside

namespace Packed

variable {l₀ l : Loader κ ν} {asked : List κ}

theorem newest (p : Packed l₀ asked l) {front : List (Batch κ ν)} {b : Batch κ ν}
    (newest : l.batches = front ++ [b]) (gathers : b.isGathering) {bs : List (List κ)}
    (keys : l.batches.map Batch.keys = l₀.batches.map Batch.keys ++ bs) :
    ∃ bs', bs = bs' ++ [b.keys] ∧ front.map Batch.keys = l₀.batches.map Batch.keys ++ bs' := by
  have late : l₀.batches.length ≤ front.length := (p.gathers _ b (by simp [newest])).mp gathers
  rw [newest, List.map_append, List.map_singleton] at keys
  rcases bs.eq_nil_or_concat with rfl | ⟨bs', last, rfl⟩
  · have length := congrArg List.length keys
    simp at length
    omega
  · rw [List.concat_eq_append, ← List.append_assoc] at keys
    obtain ⟨same, last'⟩ := List.append_inj' keys rfl
    obtain rfl := List.singleton_inj.mp last'
    exact ⟨bs', List.concat_eq_append .., same⟩

theorem join (p : Packed l₀ asked l) {k : κ} (unknown : l.ticket? k = none) :
    (∃ bs, (l.join k).2.batches.map Batch.keys = l₀.batches.map Batch.keys ++ bs ∧
      Packs l₀.capacity (freshKeys l₀ (asked ++ [k])) bs) ∧
    ∀ (i : Nat) (b : Batch κ ν), (l.join k).2.batches[i]? = some b →
      (b.isGathering ↔ l₀.batches.length ≤ i) := by
  obtain ⟨bs, keys, packs⟩ := p.keys
  rw [freshKeys_concat, if_pos ((p.ticket k).mp unknown)]
  have joins := join_joins l k
  generalize (l.join k).2.batches = after at joins
  cases joins with
  | @joined front b newest gathers room =>
    obtain ⟨bs', rfl, same⟩ := p.newest newest gathers keys
    refine ⟨⟨bs' ++ [b.keys ++ [k]], ?_, .joins k packs (p.capacity ▸ room)⟩, fun i b' here => ?_⟩
    · rw [List.map_append, same, List.append_assoc]
      rfl
    · rcases concat_getElem? here with ⟨rfl, rfl⟩ | ⟨ne, old⟩
      · exact p.gathers front.length b (by simp [newest])
      · apply p.gathers i b'
        rwa [newest, getElem?_concat_of_ne _ _ ne]
  | opened full =>
    refine ⟨⟨bs ++ [[k]], ?_, .opens k packs fun last ends => ?_⟩, fun i b here => ?_⟩
    · rw [List.map_append, keys, List.append_assoc]
      rfl
    · obtain ⟨bs', rfl⟩ := List.getLast?_eq_some_iff.mp ends
      rw [← List.append_assoc] at keys
      obtain ⟨front, b, newest, same, rfl⟩ := newest_of_keys keys
      rw [← p.capacity]
      apply full front b newest
      apply (p.gathers front.length b (by simp [newest])).mpr
      have length := congrArg List.length same
      simp only [List.length_map, List.length_append] at length
      omega
    · rcases concat_getElem? here with ⟨rfl, rfl⟩ | ⟨_, old⟩
      · have grown := congrArg List.length keys
        simp only [List.length_map, List.length_append] at grown
        simp [Batch.isGathering]
        omega
      · exact p.gathers i b old

theorem enqueue (p : Packed l₀ asked l) (k : κ) : Packed l₀ (asked ++ [k]) (l.enqueue k).2 where
  capacity := enqueue_induction (P := fun l' => l'.capacity = l₀.capacity) p.capacity
    fun _ _ _ _ e => e.capacity.trans p.capacity
  delay := enqueue_induction (P := fun l' => l'.delay = l₀.delay) p.delay
    fun _ _ _ _ e => e.delay.trans p.delay
  ticket x := by
    rw [ticket?_enqueue_eq_none, p.ticket x, and_assoc, List.mem_append, List.mem_singleton, not_or]
  keys := by
    cases known : l.ticket? k with
    | some t =>
      have old : ¬(l₀.ticket? k = none ∧ k ∉ asked) := fun new => by
        rw [(p.ticket k).mpr new] at known
        cases known
      rw [enqueue_of_ticket known, freshKeys_concat, if_neg old, List.append_nil]
      exact p.keys
    | none =>
      rw [enqueue_of_unknown known]
      exact (p.join known).1
  gathers := by
    cases known : l.ticket? k with
    | some t =>
      rw [enqueue_of_ticket known]
      exact p.gathers
    | none =>
      rw [enqueue_of_unknown known]
      exact (p.join known).2

theorem start (p : Packed l₀ asked l) {i : Nat} {keys : List κ}
    (here : l.batches[i]? = some ⟨keys, .gathering none⟩) (due : Nat) :
    Packed l₀ asked (l.setStage i (.gathering (some due))) where
  capacity := p.capacity
  delay := p.delay
  ticket := p.ticket
  keys := by
    rw [setStage_keys]
    exact p.keys
  gathers j b after := by
    rw [setStage_getElem?] at after
    split at after
    · next same =>
      subst same
      rw [here] at after
      obtain rfl := Option.some.inj after
      exact p.gathers i ⟨keys, .gathering none⟩ here
    · exact p.gathers j b after

end Packed

end Keys

def Unripe (now : Nat) (l : Loader κ ν) : Prop :=
  ∀ (i : Nat) (keys : List κ) (due : Nat),
    l.batches[i]? = some ⟨keys, .gathering (some due)⟩ → now < due

theorem Unripe.enqueue [DecidableEq κ] {now : Nat} {l : Loader κ ν} (unripe : Unripe now l) (k : κ) :
    Unripe now (l.enqueue k).2 := by
  intro i keys due here
  obtain ⟨keys', old⟩ := enqueue_begun here
  exact unripe i keys' due old

theorem Polls.of_unripe {backend : Backend κ ν σ} {now : Nat} {r r' : Running κ ν} {l l' : Loader κ ν}
    {s s' : σ} (p : Polls backend now r l s r' l' s') (unripe : Unripe now l) :
    l' = l ∨ ∃ i keys, l.batches[i]? = some ⟨keys, .gathering none⟩ ∧
      l' = l.setStage i (.gathering (some (now + l.delay))) := by
  induction p with
  | finished _ _ _ => exact .inl rfl
  | gathered _ _ _ => exact .inl rfl
  | wait _ awaits =>
    cases awaits with
    | start here => exact .inr ⟨_, _, here, rfl⟩
    | wait _ _ => exact .inl rfl
  | take _ awaits _ ih =>
    cases awaits with
    | primed _ => exact ih unripe
    | fire here ripe => exact absurd (unripe _ _ _ here) (Nat.not_lt.mpr ripe)
    | done _ => exact ih unripe

theorem Packed.poll [DecidableEq κ] {backend : Backend κ ν σ} {now : Nat} {r r' : Running κ ν}
    {l₀ l l' : Loader κ ν} {s s' : σ} {asked : List κ} (packed : Packed l₀ asked l)
    (p : Polls backend now r l s r' l' s') (unripe : Unripe now l) : Packed l₀ asked l' := by
  rcases p.of_unripe unripe with rfl | ⟨i, keys, here, rfl⟩
  · exact packed
  · exact packed.start here _

theorem Unripe.poll {backend : Backend κ ν σ} {now : Nat} {r r' : Running κ ν} {l l' : Loader κ ν}
    {s s' : σ} (unripe : Unripe now l) (p : Polls backend now r l s r' l' s') (pause : 1 ≤ l.delay) :
    Unripe now l' := by
  rcases p.of_unripe unripe with rfl | ⟨i, keys, here, rfl⟩
  · exact unripe
  · intro j keys' due after
    rw [setStage_getElem?] at after
    split at after
    · next same =>
      subst same
      rw [here] at after
      cases after
      omega
    · exact unripe j keys' due after

end InfraGraph.Loader
