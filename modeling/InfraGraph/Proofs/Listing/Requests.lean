import InfraGraph.Proofs.Listing.CursorCodec
import InfraGraph.Proofs.Listing.Limits

/-!
Which requests become a window, and which window. A request is refused for what contradicts itself or the
settings first, and then for a cursor that cannot be read or is of another order. Every other request becomes
the window of one size and at most one cursor, both from the same end of the listing.
-/

namespace InfraGraph

variable {α : Type}

/-- A text that is no cursor, or a cursor made for another field or direction. -/
def Cursor.Unusable (o : Order α) (text : String) : Prop :=
  (∃ f, decode text = .error f) ∨
    ∃ c, decode text = .ok c ∧ (c.field ≠ o.key.field.cursorName ∨ c.direction ≠ o.direction)

namespace Window

/-! A window as four options, of which a request may give any and a window gives one size. -/

def first? : Window → Option Int
  | forward n _ => some n
  | backward _ _ => none

def last? : Window → Option Int
  | forward _ _ => none
  | backward n _ => some n

def after? : Window → Option Cursor
  | forward _ c => c
  | backward _ _ => none

def before? : Window → Option Cursor
  | forward _ _ => none
  | backward _ c => c

end Window

namespace PageRequest

/-- A request that counts from both ends, starts from both ends, counts from one and starts from the other, or
gives a size that is negative or larger than the maximum. -/
def Incoherent (r : PageRequest) (s : PageSettings) : Prop :=
  r.first.isSome ∧ r.last.isSome ∨
  r.after.isSome ∧ r.before.isSome ∨
  r.first.isSome ∧ r.before.isSome ∨
  r.last.isSome ∧ r.after.isSome ∨
  ∃ n, (r.first = some n ∨ r.last = some n) ∧ (n < 0 ∨ s.maxSize < n)

def Gives (r : PageRequest) (text : String) : Prop :=
  r.after = some text ∨ r.before = some text

def isBackward (r : PageRequest) : Bool :=
  r.last.isSome || r.before.isSome

variable {r : PageRequest} {o : Order α} {s : PageSettings}

theorem validate_eq_ok_iff : r.validate s = .ok () ↔ ¬ r.Incoherent s := by
  unfold validate Incoherent
  split_ifs with sizes cursors first last
  · simp [sizes]
  · simp [cursors]
  · simp [first]
  · simp [last]
  · simp only [sizes, cursors, first, last, false_or]
    have bounded : ∀ size : Option Int, (∀ n, size = some n → 0 ≤ n ∧ n ≤ s.maxSize) ↔
        ¬ ∃ n, size = some n ∧ (n < 0 ∨ s.maxSize < n) := by
      intro size
      simp only [not_exists, not_and, not_or, Int.not_lt]
    cases checked : checkSize "first" s.maxSize r.first with
    | error f =>
      have refused : ¬ ∀ n, r.first = some n → 0 ≤ n ∧ n ≤ s.maxSize := by
        rw [← checkSize_eq_ok_iff, checked]
        simp
      obtain ⟨n, given, out⟩ := not_not.mp (mt (bounded r.first).mpr refused)
      exact ⟨nofun, fun coherent => absurd ⟨n, .inl given, out⟩ coherent⟩
    | ok _ =>
      have first := (bounded r.first).mp (checkSize_eq_ok_iff.mp checked)
      show checkSize "last" s.maxSize r.last = .ok () ↔ _
      rw [checkSize_eq_ok_iff, bounded]
      simp only [or_and_right, exists_or, first, false_or]

theorem readCursor_cases (o : Order α) (given : Option String) :
    ((∃ text, given = some text ∧ Cursor.Unusable o text) ∧ ∃ f, readCursor o given = .error f) ∨
      (∀ text, given = some text → ¬ Cursor.Unusable o text) ∧
        ∃ c, readCursor o given = .ok c ∧ c.isSome = given.isSome ∧
          ∀ c', c = some c' ↔ ∃ text, given = some text ∧ Cursor.decode text = .ok c' := by
  cases given with
  | none => exact .inr ⟨nofun, none, rfl, rfl, by simp⟩
  | some text =>
    simp only [Option.some.injEq, exists_eq_left', forall_eq']
    cases decoded : Cursor.decode text with
    | error f =>
      have read : readCursor o (some text) = .error f := by simp only [readCursor, decoded]
      exact .inl ⟨.inl ⟨f, decoded⟩, f, read⟩
    | ok c =>
      have read : readCursor o (some text) = (c.forOrder o).map some := by simp only [readCursor, decoded]
      by_cases same : c.field = o.key.field.cursorName ∧ c.direction = o.direction
      · refine .inr ⟨?_, some c, ?_, rfl, fun c' => by simp⟩
        · rintro (⟨f, failed⟩ | ⟨c', here, other⟩)
          · exact absurd (decoded.symm.trans failed) (by simp)
          · obtain rfl := Except.ok.inj (decoded.symm.trans here)
            exact not_and_or.mpr other same
        · rw [read, Cursor.forOrder, if_pos same]
          rfl
      · have refused : readCursor o (some text) = .error
            (.otherOrder c.field c.direction o.key.field.cursorName o.direction) := by
          rw [read, Cursor.forOrder, if_neg same]
          rfl
        exact .inl ⟨.inr ⟨c, decoded, not_and_or.mp same⟩, _, refused⟩

/-- What a window has from the request that it was made for: the cursor that the request gives, as it decodes,
and the size that the request gives, or else the size of the settings, from the end that the request is for. -/
structure Answers (r : PageRequest) (s : PageSettings) (w : Window) : Prop where
  first : w.first? = if r.isBackward then none else some (r.first.getD s.defaultSize)
  last : w.last? = if r.isBackward then some (r.last.getD s.defaultSize) else none
  after : ∀ c, w.after? = some c ↔ ∃ text, r.after = some text ∧ Cursor.decode text = .ok c
  before : ∀ c, w.before? = some c ↔ ∃ text, r.before = some text ∧ Cursor.decode text = .ok c

theorem window_cases (r : PageRequest) (o : Order α) (s : PageSettings) :
    (r.Incoherent s ∧ ∃ f : Flaw, r.window o s = .error f.rejection) ∨
    (¬ r.Incoherent s ∧ (∃ text, r.Gives text ∧ Cursor.Unusable o text) ∧
      ∃ f : Cursor.Flaw, r.window o s = .error f.rejection) ∨
    ¬ r.Incoherent s ∧ (∀ text, r.Gives text → ¬ Cursor.Unusable o text) ∧
      ∃ w, r.window o s = .ok w ∧ r.Answers s w := by
  cases valid : r.validate s with
  | error f =>
    have refused : ¬ ¬ r.Incoherent s := by
      rw [← validate_eq_ok_iff, valid]
      simp
    exact .inl ⟨not_not.mp refused, f, by simp only [window, valid]⟩
  | ok _ =>
    have coherent := validate_eq_ok_iff.mp valid
    refine .inr ?_
    -- sizes and the mix of fields are judged before any cursor is read
    rcases readCursor_cases o r.after with ⟨⟨text, given, useless⟩, f, read⟩ | ⟨usable, after, read, given, is⟩
    · exact .inl ⟨coherent, ⟨text, .inl given, useless⟩, f, by simp only [window, valid, read]⟩
    rcases readCursor_cases o r.before with
      ⟨⟨text, given', useless⟩, f, read'⟩ | ⟨usable', before, read', given', is'⟩
    · exact .inl ⟨coherent, ⟨text, .inr given', useless⟩, f, by simp only [window, valid, read, read']⟩
    refine .inr ⟨coherent, fun text => Or.rec (usable text) (usable' text), ?_⟩
    simp only [Incoherent, not_or] at coherent
    obtain ⟨sizes, cursors, first, last, -⟩ := coherent
    simp only [window, valid, read, read']
    cases size : r.first with
    | some n =>
      have forward : r.last = none ∧ r.before = none := by simpa [size] using And.intro sizes first
      have ahead : r.isBackward = false := by simp [isBackward, forward]
      exact ⟨_, rfl, by simp [Window.first?, ahead, size], by simp [Window.last?, ahead], is,
        by simp [Window.before?, forward]⟩
    | none =>
      cases size' : r.last with
      | some n =>
        have unused : r.after = none := by simpa [size'] using last
        have back : r.isBackward = true := by simp [isBackward, size']
        exact ⟨_, rfl, by simp [Window.first?, back], by simp [Window.last?, back, size'],
          by simp [Window.after?, unused], is'⟩
      | none =>
        cases start : r.before with
        | some text =>
          have unused : r.after = none := by simpa [start] using cursors
          have back : r.isBackward = true := by simp [isBackward, start]
          have some_before : before.isSome = true := by rw [given', start]; rfl
          rw [if_pos some_before]
          exact ⟨_, rfl, by simp [Window.first?, back], by simp [Window.last?, back, size'],
            by simp [Window.after?, unused], is'⟩
        | none =>
          have ahead : r.isBackward = false := by simp [isBackward, size', start]
          have no_before : ¬ before.isSome = true := by rw [given', start]; simp
          rw [if_neg no_before]
          exact ⟨_, rfl, by simp [Window.first?, ahead, size], by simp [Window.last?, ahead], is,
            by simp [Window.before?, start]⟩

/-- A request is refused as a request if and only if it is incoherent; a coherent one is refused for its cursor
if and only if the cursor is of no use for the order; and every other one becomes a window, which counts from
one end, starts from a cursor of that end or none, and has its cursor and its size from the request, or its
size from the settings if the request gives none: then it counts from the end if the request says where to
stop, else from the beginning. -/
theorem window_of_request (r : PageRequest) (o : Order α) (s : PageSettings) :
    ((∃ reason, r.window o s = .error (.pagination reason)) ↔ r.Incoherent s) ∧
    ((∃ reason, r.window o s = .error (.invalidCursor reason)) ↔
      ¬ r.Incoherent s ∧ ∃ text, r.Gives text ∧ Cursor.Unusable o text) ∧
    ((∃ w, r.window o s = .ok w) ↔
      ¬ r.Incoherent s ∧ ∀ text, r.Gives text → ¬ Cursor.Unusable o text) ∧
    ∀ w, r.window o s = .ok w →
      (w.first?.isSome ↔ w.last? = none) ∧
      (w.after?.isSome → w.first?.isSome) ∧ (w.before?.isSome → w.last?.isSome) ∧
      r.Answers s w := by
  have ends : ∀ w : Window, (w.first?.isSome ↔ w.last? = none) ∧
      (w.after?.isSome → w.first?.isSome) ∧ (w.before?.isSome → w.last?.isSome) := by
    rintro (⟨n, c⟩ | ⟨n, c⟩) <;> simp [Window.first?, Window.last?, Window.after?, Window.before?]
  rcases r.window_cases o s with ⟨flaw, f, refused⟩ | ⟨coherent, ⟨text, gives, useless⟩, f, refused⟩ |
    ⟨coherent, usable, w, shown, answers⟩
  · simp [refused, flaw, Flaw.rejection]
  · have some_useless : ∃ text, r.Gives text ∧ Cursor.Unusable o text := ⟨text, gives, useless⟩
    have not_usable : ¬ ∀ text, r.Gives text → ¬ Cursor.Unusable o text := fun all => all text gives useless
    simp [refused, coherent, some_useless, not_usable, Cursor.Flaw.rejection]
  · have no_useless : ¬ ∃ text, r.Gives text ∧ Cursor.Unusable o text :=
      fun ⟨text, gives, useless⟩ => usable text gives useless
    refine ⟨by simp [shown, coherent], by simp [shown, no_useless], by simpa [shown, coherent] using usable, ?_⟩
    rintro w' shown'
    obtain rfl := Except.ok.inj (shown.symm.trans shown')
    obtain ⟨one, after, before⟩ := ends w
    exact ⟨one, after, before, answers⟩

def roleCursor : Cursor :=
  ⟨1, "name", .ascending, "owner", "1"⟩

theorem window_of_request_roles :
    (∃ reason, (⟨some 1, none, none, some roleCursor.encode⟩ : PageRequest).window
      (Listed.standard : Order Role) .standard = .error (.pagination reason)) ∧
    (∃ reason, (⟨none, none, none, some roleCursor.encode⟩ : PageRequest).window
      (Listed.standard : Order Role).reverse .standard = .error (.invalidCursor reason)) ∧
    ∃ w, (⟨none, none, none, some roleCursor.encode⟩ : PageRequest).window
      (Listed.standard : Order Role) .standard = .ok w ∧ w.last? = some 20 ∧ w.before? = some roleCursor := by
  have decoded : Cursor.decode roleCursor.encode = .ok roleCursor := by
    rw [Cursor.decode_encode]
    rfl
  have given : ∀ {text}, (⟨none, none, none, some roleCursor.encode⟩ : PageRequest).Gives text →
      text = roleCursor.encode := by
    rintro text (unused | given)
    · cases unused
    · exact (Option.some.inj given).symm
  have coherent : ¬ (⟨none, none, none, some roleCursor.encode⟩ : PageRequest).Incoherent .standard := by
    simp [Incoherent]
  have usable : ¬ Cursor.Unusable (Listed.standard : Order Role) roleCursor.encode := by
    simp [Cursor.Unusable, decoded]
    exact ⟨rfl, rfl⟩
  have useless : Cursor.Unusable (Listed.standard : Order Role).reverse roleCursor.encode :=
    .inr ⟨_, decoded, .inr (by decide)⟩
  obtain ⟨refused, -⟩ := window_of_request ⟨some 1, none, none, some roleCursor.encode⟩
    (Listed.standard : Order Role) .standard
  obtain ⟨-, foreign, -⟩ := window_of_request ⟨none, none, none, some roleCursor.encode⟩
    (Listed.standard : Order Role).reverse .standard
  obtain ⟨-, -, shown, answers⟩ := window_of_request ⟨none, none, none, some roleCursor.encode⟩
    (Listed.standard : Order Role) .standard
  obtain ⟨w, here⟩ := shown.mpr ⟨coherent, fun text gives => given gives ▸ usable⟩
  obtain ⟨-, -, -, answers⟩ := answers w here
  exact ⟨refused.mpr (by simp [Incoherent]), foreign.mpr ⟨coherent, _, .inr rfl, useless⟩,
    w, here, answers.last, (answers.before _).mpr ⟨_, rfl, decoded⟩⟩

end PageRequest

end InfraGraph
