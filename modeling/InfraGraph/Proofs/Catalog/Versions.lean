import InfraGraph.Proofs.Catalog.Writes
import Mathlib.Data.List.Nodup

/-!
Versions of stored entities. A write that expects a version is refused unless the entity has it, and every
update raises it by one. So once a write has gone through with a version, the entity is past that version or
gone; later writes leave it so, as long as no new entity takes its identifier.
-/

namespace InfraGraph

theorem Metadata.bump_version {m : Metadata} (low : -2147483648 ≤ m.version) (high : m.version < 2147483647) :
    m.bump.version = m.version + 1 :=
  Int.bmod_eq_of_le (by omega) (by omega)

namespace Store

def Met (s : Store) (kind : Kind) (change : Metadata → Metadata) (version : Option Int) (e : Entity) : Prop :=
  ∃ old ∈ s.entities kind, old.id = e.id ∧ (∀ v, version = some v → v = old.metadata.version) ∧
    e.metadata = change old.metadata

/-- A write that goes through only with the version that is expected. -/
structure Guarded {α : Type} (s : Store) (kind : Kind) (wrap : α → Entity) (change : Metadata → Metadata)
    (id : String) (version : Option Int) (out : Except Fault (α × Store)) : Prop where
  met : ∀ a s', out = .ok (a, s') → s.Met kind change version (wrap a)
  refused : ∀ e v, (s.entities kind).find? (·.id = id) = some e → version = some v →
    v ≠ e.metadata.version → out = .error versionConflict

section Guarded

variable {α : Type} {s : Store} {id : String} {version : Option Int}

theorem checkVersion_eq_ok {m : Metadata} (h : checkVersion m version = .ok ()) :
    ∀ v, version = some v → v = m.version := by
  rintro v rfl
  simp only [checkVersion] at h
  split at h
  · assumption
  · cases h

theorem checkVersion_stale {m : Metadata} {v : Int} (stale : v ≠ m.version) :
    checkVersion m (some v) = .error versionConflict :=
  if_neg stale

theorem first_of_find? {items : List α} {test : α → Bool} {a : α} (found : items.find? test = some a)
    (what name : String) : first items test what name = .ok a := by
  simp only [first, found]

theorem amendFirst_stale (t : Table α) {test : α → Bool} {missing : Fault} {change : α → α}
    {items : List α} {a : α} {v : Int} (found : items.find? test = some a)
    (stale : v ≠ (t.wrap a).metadata.version) :
    amendFirst test missing (fun a => do checkVersion (t.wrap a).metadata (some v); return change a)
      items = .error versionConflict := by
  induction items with
  | nil => cases found
  | cons b rest ih =>
    rw [List.find?_cons] at found
    unfold amendFirst
    cases here : test b with
    | true =>
      rw [here] at found
      cases found
      simp only [checkVersion_stale stale]
      rfl
    | false =>
      rw [here] at found
      rw [ih found]
      rfl

theorem find?_items {t : Table α} {e : Entity} (found : (s.entities t.kind).find? (·.id = id) = some e) :
    ∃ a, (t.items s).find? (fun a => (t.wrap a).id = id) = some a ∧ t.wrap a = e := by
  rw [t.entities_items, List.find?_map] at found
  exact Option.map_eq_some_iff.mp found

theorem mem_entities {t : Table α} {a : α} (mem : a ∈ t.items s) : t.wrap a ∈ s.entities t.kind :=
  t.entities_items s ▸ List.mem_map_of_mem mem

section Stale

variable {t : Table α} {e : Entity} {v : Int}

theorem amend_stale {change : α → α} (found : (s.entities t.kind).find? (·.id = id) = some e)
    (given : version = some v) (stale : v ≠ e.metadata.version) :
    s.amend t id version change = .error versionConflict := by
  subst given
  obtain ⟨a, here, rfl⟩ := find?_items found
  dsimp only [amend]
  rw [amendFirst_stale t here stale]
  rfl

theorem remove_stale (found : (s.entities t.kind).find? (·.id = id) = some e)
    (given : version = some v) (stale : v ≠ e.metadata.version) :
    s.remove t id version = .error versionConflict := by
  subst given
  obtain ⟨a, here, rfl⟩ := find?_items found
  unfold remove
  rw [first_of_find? here t.what id]
  show (checkVersion (t.wrap a).metadata (some v) >>= _) = _
  rw [checkVersion_stale stale]
  rfl

end Stale

theorem guarded_amend {t : Table α} {change : α → α} (same : ∀ a, (t.wrap (change a)).id = (t.wrap a).id)
    (bumped : ∀ a, (t.wrap (change a)).metadata = (t.wrap a).metadata.bump) :
    s.Guarded t.kind t.wrap Metadata.bump id version (s.amend t id version change) where
  met b s' h := by
    obtain ⟨⟨c, items⟩, amended, h⟩ := bind_ok h
    cases h
    obtain ⟨front, a, back, -, changed, split, -⟩ := amendFirst_ok amended
    obtain ⟨_, checked, changed⟩ := bind_ok changed
    cases changed
    exact ⟨t.wrap a, mem_entities (by simp [split]), (same a).symm, checkVersion_eq_ok checked, bumped a⟩
  refused _ _ := amend_stale

theorem guarded_remove (t : Table α) :
    s.Guarded t.kind t.wrap (fun m => m) id version (s.remove t id version) where
  met a s' h := by
    obtain ⟨b, found, h⟩ := bind_ok h
    obtain ⟨_, checked, h⟩ := bind_ok h
    cases h
    exact ⟨t.wrap a, mem_entities (first_ok found).1, rfl, checkVersion_eq_ok checked, rfl⟩
  refused _ _ := remove_stale

theorem Guarded.bind {kind : Kind} {wrap : α → Entity} {change : Metadata → Metadata}
    {out : Except Fault (α × Store)} (h : s.Guarded kind wrap change id version out)
    {finish : α × Store → Except Fault (α × Store)}
    (finished : ∀ x b s', finish x = .ok (b, s') → b = x.1) :
    s.Guarded kind wrap change id version (out >>= finish) where
  met b s' done := by
    obtain ⟨⟨a, left⟩, went, done⟩ := bind_ok done
    exact finished _ b s' done ▸ h.met a left went
  refused e v found given stale := by
    rw [h.refused e v found given stale]
    rfl

/-- The version is checked before the workspaces of the group are. -/
theorem deleteGroup_guarded (force : Bool) :
    s.Guarded .group .group (fun m => m) id version (s.deleteGroup id version force) :=
  (guarded_remove .groups).bind fun x b s' h => by
    dsimp only at h
    split at h <;> cases h
    rfl

theorem deleteModule_guarded :
    s.Guarded .terraformModule .terraformModule (fun m => m) id version (s.deleteModule id version) :=
  (guarded_remove .modules).bind fun _ _ _ h => by cases h; rfl

end Guarded

section Steps

variable {s s' : Store} {kind k : Kind} {e x : Entity}

theorem Amends.ids (h : s.Amends kind e s') (k : Kind) :
    (s'.entities k).map Entity.id = (s.entities k).map Entity.id := by
  obtain ⟨front, old, back, same, before, after⟩ := h.replaced
  by_cases other : k = kind
  · subst other
    simp [before, after, same]
  · rw [h.others k other]

theorem Amends.mem_or (h : s.Amends kind e s') (mem : x ∈ s'.entities k) :
    x ∈ s.entities k ∨ k = kind ∧ x = e := by
  obtain ⟨front, old, back, -, before, after⟩ := h.replaced
  by_cases other : k = kind
  · subst other
    rw [after, List.mem_append, List.mem_cons] at mem
    rw [before, List.mem_append, List.mem_cons]
    rcases mem with here | rfl | here
    · exact .inl (.inl here)
    · exact .inr ⟨rfl, rfl⟩
    · exact .inl (.inr (.inr here))
  · exact .inl (h.others k other ▸ mem)

theorem Amends.mem (h : s.Amends kind e s') : e ∈ s'.entities kind := by
  obtain ⟨front, old, back, -, -, after⟩ := h.replaced
  simp [after]

theorem Removes.sublist (h : s.Removes kind e s') (k : Kind) :
    (s'.entities k).Sublist (s.entities k) := by
  obtain ⟨front, back, before, after⟩ := h.removed
  by_cases other : k = kind
  · subst other
    rw [before, after]
    exact (List.sublist_cons_self e back).append_left front
  · by_cases version : kind = .terraformModule ∧ k = .terraformModuleVersion
    · obtain ⟨module, rfl⟩ := version
      simp only [entities, h.versions module]
      exact List.filter_sublist.map _
    · exact h.others k other version ▸ List.Sublist.refl _

theorem Removes.gone (unique : ((s.entities kind).map Entity.id).Nodup) (h : s.Removes kind e s')
    (mem : x ∈ s'.entities kind) : x.id ≠ e.id := by
  obtain ⟨front, back, before, after⟩ := h.removed
  rw [before, List.map_append, List.map_cons, List.nodup_append, List.nodup_cons] at unique
  obtain ⟨-, ⟨notBack, -⟩, apart⟩ := unique
  rw [after] at mem
  rcases List.mem_append.mp mem with here | here
  · exact apart x.id (List.mem_map_of_mem here) e.id (by simp)
  · exact fun same => notBack (same ▸ List.mem_map_of_mem here)

theorem Appends.mem_or (h : s.Appends kind e s') (mem : x ∈ s'.entities k) :
    x ∈ s.entities k ∨ k = kind ∧ x = e := by
  by_cases other : k = kind
  · subst other
    rw [h.appended, List.mem_append, List.mem_singleton] at mem
    exact mem.imp_right fun same => ⟨rfl, same⟩
  · exact .inl (h.others k other ▸ mem)

theorem Appends.unique (h : s.Appends kind e s') (new : ∀ x ∈ s.entities kind, x.id ≠ e.id)
    (unique : ((s.entities k).map Entity.id).Nodup) : ((s'.entities k).map Entity.id).Nodup := by
  by_cases other : k = kind
  · subst other
    rw [h.appended, List.map_append, List.map_singleton]
    refine List.nodup_append.mpr ⟨unique, List.nodup_singleton _, fun id taken other here => ?_⟩
    obtain ⟨x, mem, rfl⟩ := List.mem_map.mp taken
    obtain rfl := List.mem_singleton.mp here
    exact new x mem
  · rwa [h.others k other]

end Steps

def Bounded (s : Store) : Prop :=
  ∀ kind, ∀ e ∈ s.entities kind, -2147483648 ≤ e.metadata.version ∧ e.metadata.version < 2147483647

/-- An entity is past a version, or is not there. -/
def Past (s : Store) (kind : Kind) (id : String) (v : Int) : Prop :=
  ∀ e ∈ s.entities kind, e.id = id → v < e.metadata.version

section Past

variable {s s' : Store} {kind k : Kind} {e : Entity} {id : String} {v : Int} {version : Option Int}

theorem Met.raised (bounded : s.Bounded) (met : s.Met kind Metadata.bump version e) :
    ∃ old ∈ s.entities kind, old.id = e.id ∧ (∀ v, version = some v → v = old.metadata.version) ∧
      e.metadata.version = old.metadata.version + 1 := by
  obtain ⟨old, mem, same, expected, bumped⟩ := met
  obtain ⟨low, high⟩ := bounded kind old mem
  exact ⟨old, mem, same, expected, bumped ▸ Metadata.bump_version low high⟩

theorem Past.amends (past : s.Past k id v) (bounded : s.Bounded)
    (met : s.Met kind Metadata.bump version e) (h : s.Amends kind e s') : s'.Past k id v := by
  intro x mem here
  rcases h.mem_or mem with old | ⟨rfl, rfl⟩
  · exact past x old here
  · obtain ⟨old, mem, same, -, raised⟩ := met.raised bounded
    have before := past old mem (same.trans here)
    omega

theorem Past.removes (past : s.Past k id v) (h : s.Removes kind e s') : s'.Past k id v :=
  fun x mem here => past x ((h.sublist k).subset mem) here

theorem Past.appends (past : s.Past k id v) (h : s.Appends kind e s') (new : k = kind → e.id ≠ id) :
    s'.Past k id v := by
  intro x mem here
  rcases h.mem_or mem with old | ⟨same, rfl⟩
  · exact past x old here
  · exact absurd here (new same)

theorem Amends.past (bounded : s.Bounded) (unique : ((s.entities kind).map Entity.id).Nodup)
    (met : s.Met kind Metadata.bump (some v) e) (h : s.Amends kind e s') : s'.Past kind e.id v := by
  intro x mem here
  rw [← h.ids kind] at unique
  obtain rfl := List.inj_on_of_nodup_map unique mem h.mem here
  obtain ⟨old, -, -, expected, raised⟩ := met.raised bounded
  have same := expected v rfl
  omega

theorem Removes.past (unique : ((s.entities kind).map Entity.id).Nodup) (h : s.Removes kind e s') :
    s'.Past kind e.id v :=
  fun _ mem here => absurd here (h.gone unique mem)

end Past

end Store

end InfraGraph
