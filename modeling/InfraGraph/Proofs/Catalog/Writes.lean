import InfraGraph.Proofs.Catalog.Calls

/-!
Writes to the store. A write that succeeds replaces, removes or appends one entity; the order of the
others stays, and so do the entities of all other kinds, but for the versions of a module, which go with
it. A write that fails gives no store at all.
-/

namespace InfraGraph

namespace Store

structure Amends (s : Store) (kind : Kind) (e : Entity) (s' : Store) : Prop where
  replaced : ∃ before old after, old.id = e.id ∧ s.entities kind = before ++ old :: after ∧
    s'.entities kind = before ++ e :: after
  others : ∀ k, k ≠ kind → s'.entities k = s.entities k

/-- One entity of a kind is taken out, and with a module its versions. -/
structure Removes (s : Store) (kind : Kind) (e : Entity) (s' : Store) : Prop where
  removed : ∃ before after, s.entities kind = before ++ e :: after ∧
    s'.entities kind = before ++ after
  versions : kind = .terraformModule →
    s'.moduleVersions = s.moduleVersions.filter (·.moduleId ≠ e.id)
  others : ∀ k, k ≠ kind → ¬ (kind = .terraformModule ∧ k = .terraformModuleVersion) →
    s'.entities k = s.entities k

structure Appends (s : Store) (kind : Kind) (e : Entity) (s' : Store) : Prop where
  appended : s'.entities kind = s.entities kind ++ [e]
  others : ∀ k, k ≠ kind → s'.entities k = s.entities k

section Lists

variable {α : Type}

theorem amendFirst_ok {test : α → Bool} {missing : Fault} {change : α → Except Fault α}
    {items items' : List α} {b : α} (h : amendFirst test missing change items = .ok (b, items')) :
    ∃ before a after, test a ∧ change a = .ok b ∧ items = before ++ a :: after ∧
      items' = before ++ b :: after := by
  induction items generalizing items' with
  | nil => simp [amendFirst] at h
  | cons a rest ih =>
    unfold amendFirst at h
    split at h
    · next here =>
      cases changed : change a with
      | error f => simp [changed, Except.map] at h
      | ok c =>
        simp only [changed, Except.map, Except.ok.injEq, Prod.mk.injEq] at h
        obtain ⟨rfl, rfl⟩ := h
        exact ⟨[], a, rest, here, changed, rfl, rfl⟩
    · cases amended : amendFirst test missing change rest with
      | error f => simp [amended, Except.map] at h
      | ok r =>
        obtain ⟨c, rest'⟩ := r
        simp only [amended, Except.map, Except.ok.injEq, Prod.mk.injEq] at h
        obtain ⟨rfl, rfl⟩ := h
        obtain ⟨before, old, after, here, changed, rfl, rfl⟩ := ih amended
        exact ⟨a :: before, old, after, here, changed, rfl, rfl⟩

theorem first_ok {items : List α} {test : α → Bool} {what name : String} {a : α}
    (h : first items test what name = .ok a) : a ∈ items ∧ test a := by
  unfold first at h
  split at h
  · cases h
  · next found =>
    cases h
    exact ⟨List.mem_of_find?_eq_some found, List.find?_some found⟩

theorem filter_ne {items : List α} {id : α → String} (unique : (items.map id).Nodup) {a : α}
    (mem : a ∈ items) : ∃ before after, items = before ++ a :: after ∧
      items.filter (fun x => id x ≠ id a) = before ++ after := by
  obtain ⟨before, after, rfl⟩ := List.append_of_mem mem
  refine ⟨before, after, rfl, ?_⟩
  simp only [List.map_append, List.map_cons, List.nodup_append, List.nodup_cons] at unique
  obtain ⟨-, ⟨notAfter, -⟩, apart⟩ := unique
  have keepBefore : before.filter (fun x => id x ≠ id a) = before :=
    List.filter_eq_self.mpr fun x here => by
      simpa using apart (id x) (List.mem_map_of_mem here) (id a) (by simp)
  have keepAfter : after.filter (fun x => id x ≠ id a) = after :=
    List.filter_eq_self.mpr fun x here => by
      have ne : id x ≠ id a := fun same => notAfter (same ▸ List.mem_map_of_mem here)
      simpa using ne
  rw [List.filter_append, keepBefore, List.filter_cons_of_neg (by simp), keepAfter]

end Lists

theorem bind_ok {α β : Type} {e : Except Fault α} {f : α → Except Fault β} {b : β}
    (h : (e >>= f) = .ok b) : ∃ a, e = .ok a ∧ f a = .ok b := by
  cases e with
  | error g => cases h
  | ok a => exact ⟨a, rfl, h⟩

section Table

variable {α : Type} {t : Table α} {s s' : Store} {id : String} {version : Option Int} {a : α}

theorem amend_ok {change : α → α} (same : ∀ a, (t.wrap (change a)).id = (t.wrap a).id)
    (h : s.amend t id version change = .ok (a, s')) :
    (t.wrap a).id = id ∧ s.Amends t.kind (t.wrap a) s' := by
  obtain ⟨⟨b, items⟩, amended, h⟩ := bind_ok h
  cases h
  obtain ⟨front, old, back, here, changed, split, rfl⟩ := amendFirst_ok amended
  obtain ⟨_, -, changed⟩ := bind_ok changed
  cases changed
  refine ⟨(same old).trans (of_decide_eq_true here), ⟨front.map t.wrap, t.wrap old, back.map t.wrap,
    (same old).symm, ?_, ?_⟩, fun k other => t.entities_other s _ k other⟩
  · rw [t.entities_items, split, List.map_append, List.map_cons]
  · rw [t.entities_put, List.map_append, List.map_cons]

/-- The entity that was found first goes, and with it all that has its identifier. -/
theorem remove_ok (h : s.remove t id version = .ok (a, s')) :
    a ∈ t.items s ∧ (t.wrap a).id = id ∧
      s' = t.put s ((t.items s).filter fun b => (t.wrap b).id ≠ (t.wrap a).id) := by
  obtain ⟨b, found, h⟩ := bind_ok h
  obtain ⟨_, -, h⟩ := bind_ok h
  cases h
  obtain ⟨mem, here⟩ := first_ok found
  exact ⟨mem, of_decide_eq_true here, rfl⟩

theorem removed_once (unique : ((s.entities t.kind).map Entity.id).Nodup)
    (h : s.remove t id version = .ok (a, s')) :
    ∃ before after, s.entities t.kind = before ++ t.wrap a :: after ∧
      s'.entities t.kind = before ++ after := by
  obtain ⟨mem, -, rfl⟩ := remove_ok h
  rw [t.entities_items, List.map_map] at unique
  obtain ⟨front, back, split, kept⟩ := filter_ne unique mem
  refine ⟨front.map t.wrap, back.map t.wrap, ?_, ?_⟩
  · rw [t.entities_items, split, List.map_append, List.map_cons]
  · rw [t.entities_put, ← List.map_append]
    exact congrArg (List.map t.wrap) kept

theorem remove_removes (unique : ((s.entities t.kind).map Entity.id).Nodup)
    (plain : t.kind ≠ .terraformModule) (h : s.remove t id version = .ok (a, s')) :
    (t.wrap a).id = id ∧ s.Removes t.kind (t.wrap a) s' := by
  obtain ⟨-, named, put⟩ := remove_ok h
  exact ⟨named, removed_once unique h, fun module => absurd module plain,
    fun k other _ => put ▸ t.entities_other s _ k other⟩

end Table

variable {s s' : Store} {id : String} {version : Option Int}

theorem deleteGroup_ok {force : Bool} {g : Group}
    (unique : ((s.entities .group).map Entity.id).Nodup)
    (h : s.deleteGroup id version force = .ok (g, s')) :
    g.id = id ∧ s.Removes .group (.group g) s' := by
  obtain ⟨⟨b, left⟩, removed, h⟩ := bind_ok h
  dsimp only at h
  split at h
  · cases h
  · cases h
    exact remove_removes (t := .groups) unique (by decide) removed

theorem deleteModule_ok {m : TerraformModule}
    (unique : ((s.entities .terraformModule).map Entity.id).Nodup)
    (h : s.deleteModule id version = .ok (m, s')) :
    m.id = id ∧ s.Removes .terraformModule (.terraformModule m) s' := by
  obtain ⟨⟨b, left⟩, removed, h⟩ := bind_ok h
  cases h
  obtain ⟨front, back, before, after⟩ := removed_once (t := .modules) unique removed
  obtain ⟨-, named, rfl⟩ := remove_ok removed
  refine ⟨named, ⟨front, back, before, after⟩, fun _ => rfl, fun k other apart => ?_⟩
  cases k <;> first | rfl | exact absurd rfl other | exact absurd ⟨rfl, rfl⟩ apart

theorem addMembership_appends (s : Store) (m : NamespaceMembership) :
    s.Appends .namespaceMembership (.namespaceMembership m) (s.addMembership m) where
  appended := List.map_append
  others k other := by cases k <;> first | rfl | exact absurd rfl other

theorem addRun_appends (s : Store) (r : Run) : s.Appends .run (.run r) (s.addRun r) where
  appended := List.map_append
  others k other := by cases k <;> first | rfl | exact absurd rfl other

end Store

end InfraGraph
