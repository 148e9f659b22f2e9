import InfraGraph.Proofs.Graph.World

/-!
Reading a selection on the spot. Each request is answered and each entity is looked up where a field
asks for it, field by field and with nothing shared between them. A reading gives the result and tells
which lookups it made. Work can be read as well, wherever it stands, and the work of a selection reads
like the selection.
-/

namespace InfraGraph.Graph

/-- What there is to see: an answer to each request and to each lookup. -/
@[ext]
structure View where
  answer : (q : Request) → Except Fault q.Reply
  look : Lookup → Except Fault (Option Entity)

def View.ofStore (s : Store) : View :=
  ⟨s.answer, Lookup.inStore s⟩

def Plan.read {α : Type} (v : View) : Plan α → α × List Lookup
  | .done a => (a, [])
  | .ask q next => (next (v.answer q)).read v
  | .load scope kind _ id next =>
      let (a, lookups) := (next (v.look ⟨scope, kind, id⟩)).read v
      (a, ⟨scope, kind, id⟩ :: lookups)

structure Reading where
  result : Result
  lookups : List Lookup

namespace Reading

def value (v : Value) : Reading :=
  ⟨⟨some v, []⟩, []⟩

def failed (path : List Segment) (f : Fault) : Reading :=
  ⟨⟨none, [⟨path, f⟩]⟩, []⟩

def assemble (assembly : Assembly) (parts : List Reading) : Reading :=
  ⟨Work.assemble assembly (parts.map (·.result)), parts.flatMap (·.lookups)⟩

def object (fields : List (String × Reading)) : Reading :=
  assemble (.object (fields.map (·.1))) (fields.map (·.2))

def after (lookups : List Lookup) (r : Reading) : Reading :=
  ⟨r.result, lookups ++ r.lookups⟩

variable {ν : Type}

def ofOutcome (s : Schema ν) (inner : List Segment → String → ν → List (String × Reading))
    (path : List Segment) : Except Fault (Outcome ν) → Reading
  | .error f => failed path f
  | .ok (.value v) => value v
  | .ok (.node n) => object (inner path (s.typeName n) n)
  | .ok (.oneOf union n) => object (inner path union n)
  | .ok (.nodes ns) => assemble .list ((List.range ns.length).zipWith
      (fun i n => object (inner (path ++ [.index i]) (s.typeName n) n)) ns)

mutual

def ofSelection (s : Schema ν) (v : View) :
    Selection → List Segment → (position : String) → ν → List (String × Reading)
  | .field key name args inner, path, _, n =>
      if name = "__typename" then [(key, value (.text (s.typeName n)))]
      else
        let (outcome, lookups) := (s.resolve n name args).run.read v
        let r := ofOutcome s (ofSelections s v inner) (path ++ [.key key]) outcome
        [(key, r.after lookups)]
  | .fragment type inner, path, position, n =>
      if type = s.typeName n then ofSelections s v inner path type n
      else if type = position then ofSelections s v inner path position n
      else []

def ofSelections (s : Schema ν) (v : View) :
    List Selection → List Segment → (position : String) → ν → List (String × Reading)
  | [], _, _, _ => []
  | sel :: sels, path, position, n =>
      ofSelection s v sel path position n ++ ofSelections s v sels path position n

end

end Reading

namespace Work

/-- Induction on work, with the parts of a whole as its members. -/
@[elab_as_elim]
theorem induction {P : Work → Prop} (value : ∀ v, P (value v)) (failed : ∀ f, P (failed f))
    (ask : ∀ q next, (∀ r, P (next r)) → P (ask q next))
    (load : ∀ scope kind type id next, (∀ r, P (next r)) → P (load scope kind type id next))
    (waiting : ∀ scope kind type id ticket next, (∀ r, P (next r)) → P (waiting scope kind type id ticket next))
    (parts : ∀ assembly works, (∀ t ∈ works, P t) → P (parts assembly works)) (t : Work) : P t :=
  Work.rec (motive_1 := P) (motive_2 := fun ts => ∀ t ∈ ts, P t) value failed ask load waiting parts
    (by simp) (fun t ts here rest u mem => (List.mem_cons.mp mem).elim (· ▸ here) (rest u)) t

mutual

def reading (v : View) (path : List Segment) : Work → Result
  | value x => ⟨some x, []⟩
  | failed f => ⟨none, [⟨path, f⟩]⟩
  | ask q next => reading v path (next (v.answer q))
  | load scope kind _ id next => reading v path (next (v.look ⟨scope, kind, id⟩))
  | waiting scope kind _ id _ next => reading v path (next (v.look ⟨scope, kind, id⟩))
  | parts assembly works => assemble assembly (readings v path (segments works assembly) works)

def readings (v : View) (path : List Segment) : List Segment → List Work → List Result
  | step :: steps, t :: ts => reading v (path ++ [step]) t :: readings v path steps ts
  | _, _ => []

end

mutual

/-- The lookups that are left for work to make, or to get the answer of. -/
def lookups (v : View) : Work → List Lookup
  | value _ => []
  | failed _ => []
  | ask q next => lookups v (next (v.answer q))
  | load scope kind _ id next => ⟨scope, kind, id⟩ :: lookups v (next (v.look ⟨scope, kind, id⟩))
  | waiting scope kind _ id _ next => ⟨scope, kind, id⟩ :: lookups v (next (v.look ⟨scope, kind, id⟩))
  | parts _ works => lookupsAll v works

def lookupsAll (v : View) : List Work → List Lookup
  | [] => []
  | t :: ts => lookups v t ++ lookupsAll v ts

end

theorem readings_eq (v : View) (path : List Segment) (steps : List Segment) (works : List Work) :
    readings v path steps works = steps.zipWith (fun step t => t.reading v (path ++ [step])) works := by
  induction works generalizing steps with
  | nil => cases steps <;> rfl
  | cons t ts ih => cases steps <;> simp [readings, ih]

theorem lookupsAll_eq (v : View) (works : List Work) : lookupsAll v works = works.flatMap (lookups v) := by
  induction works with
  | nil => rfl
  | cons t ts ih => simp [lookupsAll, ih]

theorem results_eq (path : List Segment) (steps : List Segment) (works : List Work) :
    results path steps works = steps.zipWith (fun step t => t.result (path ++ [step])) works := by
  induction works generalizing steps with
  | nil => cases steps <;> rfl
  | cons t ts ih => cases steps <;> simp [results, ih]

theorem areFinished_iff {works : List Work} : areFinished works ↔ ∀ t ∈ works, t.isFinished := by
  induction works with
  | nil => simp [areFinished]
  | cons t ts ih => simp [areFinished, ih]

theorem zipWith_congr {α β γ : Type} {f g : α → β → γ} (xs : List α) {ys : List β}
    (h : ∀ x, ∀ y ∈ ys, f x y = g x y) : xs.zipWith f ys = xs.zipWith g ys := by
  induction ys generalizing xs with
  | nil => simp
  | cons y ys ih =>
    cases xs with
    | nil => rfl
    | cons x xs =>
      rw [List.zipWith_cons_cons, List.zipWith_cons_cons, h x y (by simp),
        ih xs fun x y mem => h x y (List.mem_cons_of_mem _ mem)]

theorem reading_of_finished (v : View) {t : Work} (h : t.isFinished) (path : List Segment) :
    t.reading v path = t.result path := by
  induction t using Work.induction generalizing path with
  | value _ => rfl
  | failed _ => rfl
  | parts assembly works ih =>
    have each := areFinished_iff.mp h
    simp only [reading, result, readings_eq, results_eq]
    rw [zipWith_congr _ fun step t mem => ih t mem (each t mem) _]
  | _ => simp [isFinished] at h

theorem lookups_of_finished (v : View) {t : Work} (h : t.isFinished) : t.lookups v = [] := by
  induction t using Work.induction with
  | value _ => rfl
  | failed _ => rfl
  | parts assembly works ih =>
    have each := areFinished_iff.mp h
    simpa [lookups, lookupsAll_eq] using fun t mem => ih t mem (each t mem)
  | _ => simp [isFinished] at h

theorem reading_congr {v v' : View} (answers : v'.answer = v.answer) {t : Work}
    (same : ∀ x ∈ t.lookups v, v'.look x = v.look x) (path : List Segment) :
    t.reading v' path = t.reading v path := by
  induction t using Work.induction generalizing path with
  | value _ => rfl
  | failed _ => rfl
  | ask q next ih =>
    simp only [reading, answers]
    exact ih _ same path
  | load scope kind type id next ih =>
    simp only [lookups, List.mem_cons, forall_eq_or_imp] at same
    simp only [reading, same.1]
    exact ih _ same.2 path
  | waiting scope kind type id ticket next ih =>
    simp only [lookups, List.mem_cons, forall_eq_or_imp] at same
    simp only [reading, same.1]
    exact ih _ same.2 path
  | parts assembly works ih =>
    simp only [lookups, lookupsAll_eq, List.mem_flatMap] at same
    simp only [reading, readings_eq]
    rw [zipWith_congr _ fun step t mem => ih t mem (fun x hx => same x ⟨t, mem, hx⟩) _]

def read (v : View) (path : List Segment) (t : Work) : Reading :=
  ⟨t.reading v path, t.lookups v⟩

theorem read_parts (v : View) (path : List Segment) (assembly : Assembly) (works : List Work)
    (fits : (segments works assembly).length = works.length) :
    (parts assembly works).read v path = .assemble assembly
      ((segments works assembly).zipWith (fun step t => t.read v (path ++ [step])) works) := by
  have all : ∀ (steps : List Segment) (ts : List Work), steps.length = ts.length →
      (steps.zipWith (fun step t => t.read v (path ++ [step])) ts).flatMap (·.lookups) =
        ts.flatMap (lookups v) := by
    intro steps ts same
    induction ts generalizing steps with
    | nil => simp
    | cons t ts ih =>
      cases steps with
      | nil => simp at same
      | cons step steps =>
        have rest := ih steps (Nat.succ.inj same)
        simpa [read] using rest
  simp only [read, reading, lookups, readings_eq, lookupsAll_eq, Reading.assemble, List.map_zipWith]
  exact congrArg _ (all _ _ fits).symm

theorem read_ofPlan {α : Type} (v : View) (path : List Segment) (next : α → Work) (p : Plan α) :
    (ofPlan next p).read v path = ((next (p.read v).1).read v path).after (p.read v).2 := by
  induction p with
  | done a => rfl
  | ask q k ih => exact ih (v.answer q)
  | load scope kind type id k ih =>
    have rest := ih (v.look ⟨scope, kind, id⟩)
    simp only [read, Reading.after, Reading.mk.injEq] at rest
    simp [ofPlan, read, reading, lookups, Plan.read, Reading.after, rest]

variable {ν : Type}

def readFields (v : View) (path : List Segment) (fields : List (String × Work)) :
    List (String × Reading) :=
  fields.map fun f => (f.1, f.2.read v (path ++ [.key f.1]))

theorem read_object (v : View) (path : List Segment) (fields : List (String × Work)) :
    (object fields).read v path = .object (readFields v path fields) := by
  have fits : (segments (fields.map (·.2)) (.object (fields.map (·.1)))).length =
      (fields.map (·.2)).length := by simp [segments]
  rw [object, read_parts v path _ _ fits]
  simp [segments, Reading.object, readFields, List.zipWith_map_left, List.zipWith_map_right,
    List.zipWith_self, Function.comp_def]

theorem read_ofOutcome (s : Schema ν) (v : View) (inner : String → ν → List (String × Work))
    (path : List Segment) (o : Except Fault (Outcome ν)) :
    (ofOutcome s inner o).read v path =
      .ofOutcome s (fun path position n => readFields v path (inner position n)) path o := by
  match o with
  | .error _ => rfl
  | .ok (.value _) => rfl
  | .ok (.node n) => exact read_object v path _
  | .ok (.oneOf _ n) => exact read_object v path _
  | .ok (.nodes ns) =>
    rw [ofOutcome, read_parts v path _ _ (by simp [segments])]
    simp [segments, Reading.ofOutcome, List.zipWith_map_left, List.zipWith_map_right, read_object]

mutual

/-- The work of a selection reads like the selection. -/
theorem readFields_ofSelection (s : Schema ν) (v : View) : ∀ (sel : Selection) (path : List Segment)
    (position : String) (n : ν),
    readFields v path (ofSelection s sel position n) = Reading.ofSelection s v sel path position n
  | .field key name args inner, path, position, n => by
    unfold ofSelection Reading.ofSelection
    split
    · rfl
    · simp only [readFields, List.map_cons, List.map_nil, read_ofPlan, read_ofOutcome]
      have inside : (fun path position n => readFields v path (ofSelections s inner position n)) =
          Reading.ofSelections s v inner :=
        funext fun path => funext fun position => funext fun n =>
          readFields_ofSelections s v inner path position n
      rw [← inside]
      rfl
  | .fragment type inner, path, position, n => by
    unfold ofSelection Reading.ofSelection
    split
    · exact readFields_ofSelections s v inner path type n
    · split
      · exact readFields_ofSelections s v inner path position n
      · rfl

theorem readFields_ofSelections (s : Schema ν) (v : View) : ∀ (sels : List Selection)
    (path : List Segment) (position : String) (n : ν),
    readFields v path (ofSelections s sels position n) = Reading.ofSelections s v sels path position n
  | [], _, _, _ => rfl
  | sel :: sels, path, position, n => by
    unfold ofSelections Reading.ofSelections
    rw [← readFields_ofSelection s v sel, ← readFields_ofSelections s v sels]
    simp [readFields]

end

end Work

end InfraGraph.Graph
