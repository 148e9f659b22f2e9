import InfraGraph.Entity.GlobalId
import InfraGraph.Proofs.Text.Base64
import InfraGraph.Proofs.Text.Utf8
import InfraGraph.Proofs.Text.Uuid
import Mathlib.Data.List.TakeWhile

/-!
Global identifiers are canonical. Every layer of reading, from base64 to the code of the kind, accepts just
what writing produces there, so a text that is accepted is the one text of its kind and identifier.
-/

namespace InfraGraph

open Text

namespace Kind

theorem ofCode?_eq_some_iff {code : String} {k : Kind} : ofCode? code = some k ↔ code = k.code := by
  constructor
  · intro h
    have found := List.find?_some h
    exact (of_decide_eq_true found).symm
  · rintro rfl
    exact ofCode?_code k

theorem code_injective {k k' : Kind} (h : k.code = k'.code) : k = k' :=
  Option.some.inj ((ofCode?_code k).symm.trans (ofCode?_eq_some_iff.mpr h))

theorem code_plain (k : Kind) : '_' ∉ k.code.toList := by
  cases k <;> decide

end Kind

namespace GlobalId

theorem split?_eq_some_iff {text code id : String} :
    split? text = some (code, id) ↔ text = code ++ "_" ++ id ∧ '_' ∉ code.toList := by
  unfold split?
  dsimp only
  constructor
  · intro h
    split at h
    · cases h
    · next c rest tail =>
      simp only [Option.some.injEq, Prod.mk.injEq] at h
      obtain ⟨rfl, rfl⟩ := h
      have first : c = '_' := by
        have stops := List.head?_dropWhile_not (· ≠ '_') text.toList
        rw [tail] at stops
        simpa using stops
      have whole := List.takeWhile_append_dropWhile (p := (· ≠ '_')) (l := text.toList)
      rw [tail, first] at whole
      refine ⟨?_, fun mem => ?_⟩
      · have joined := congrArg String.ofList whole
        rw [String.ofList_toList, ← List.singleton_append, ← List.append_assoc, String.ofList_append,
          String.ofList_append] at joined
        exact joined.symm
      · rw [String.toList_ofList] at mem
        simpa using List.mem_takeWhile_imp mem
  · rintro ⟨rfl, plain⟩
    have before : ∀ c ∈ code.toList, decide (c ≠ '_') = true := by
      intro c mem
      exact decide_eq_true fun same => plain (same ▸ mem)
    have whole : (code ++ "_" ++ id).toList = code.toList ++ '_' :: id.toList := by simp
    rw [whole, List.dropWhile_append_of_pos before, List.takeWhile_append_of_pos before]
    simp

theorem split?_joined (g : GlobalId) :
    split? (g.kind.code ++ "_" ++ g.id) = some (g.kind.code, g.id) :=
  split?_eq_some_iff.mpr ⟨rfl, g.kind.code_plain⟩

/-- What is read is a UUID with its kind, and it was written just so. -/
theorem decode_eq_ok_iff {text : String} {g : GlobalId} :
    decode text = .ok g ↔ text = g.encode ∧ Uuid.isUuid g.id := by
  constructor
  · intro h
    unfold decode at h
    split at h
    · cases h
    · next bytes letters =>
      split at h
      · cases h
      · next plain utf8 =>
        split at h
        · cases h
        · next code id parts =>
          split at h
          · cases h
          · next kind coded =>
            split at h
            · next uuid =>
              cases h
              rw [Base64.decode_eq_some_iff Base64.faithful_urlSafe] at letters
              rw [ofUtf8?_eq_some_iff] at utf8
              rw [Kind.ofCode?_eq_some_iff] at coded
              obtain ⟨joined, -⟩ := split?_eq_some_iff.mp parts
              subst letters utf8 joined coded
              exact ⟨rfl, uuid⟩
            · cases h
  · rintro ⟨rfl, uuid⟩
    have letters := Base64.decode_encode Base64.faithful_urlSafe (utf8 (g.kind.code ++ "_" ++ g.id))
    have parts := split?_joined g
    simp only [decode, encode, letters, ofUtf8?_utf8, parts, Kind.ofCode?_code, uuid, if_true]

theorem encode_injective {g g' : GlobalId} (h : g.encode = g'.encode) : g = g' := by
  have bytes := congrArg Base64.urlSafe.decode h
  simp only [encode, Base64.decode_encode Base64.faithful_urlSafe, Option.some.injEq] at bytes
  have texts := congrArg ofUtf8? bytes
  simp only [ofUtf8?_utf8, Option.some.injEq] at texts
  have parts := split?_joined g
  rw [texts, split?_joined g'] at parts
  simp only [Option.some.injEq, Prod.mk.injEq] at parts
  obtain ⟨kind, id⟩ := g
  obtain ⟨kind', id'⟩ := g'
  obtain rfl : kind' = kind := Kind.code_injective parts.1
  obtain rfl : id' = id := parts.2
  rfl

theorem decodeAs_eq_ok_iff {kind : Kind} {text id : String} :
    decodeAs kind text = .ok id ↔ decode text = .ok ⟨kind, id⟩ := by
  unfold decodeAs
  cases decode text with
  | error f => simp
  | ok g =>
    obtain ⟨kind', id'⟩ := g
    by_cases same : kind' = kind
    · simp [same]
    · simp [same]

/-- A text is accepted for a kind and an identifier if and only if it is what they are written as and the
identifier is spelled as a UUID; whatever their identifiers, two that are written alike are the same; and
asking for a kind accepts that kind alone. -/
theorem global_id_canonical :
    (∀ (text : String) (kind : Kind) (id : String), decode text = .ok ⟨kind, id⟩ ↔
      text = encode ⟨kind, id⟩ ∧ Uuid.Spelled id.toList) ∧
    (∀ g g' : GlobalId, g.encode = g'.encode → g = g') ∧
    (∀ (text : String) (kind : Kind) (id : String),
      decodeAs kind text = .ok id ↔ decode text = .ok ⟨kind, id⟩) ∧
    ∀ (text : String) (kind kind' : Kind) (id id' : String),
      decodeAs kind text = .ok id → decodeAs kind' text = .ok id' → kind = kind' := by
  refine ⟨fun text kind id => ?_, fun g g' => encode_injective, fun text kind id => decodeAs_eq_ok_iff,
    fun text kind kind' id id' here there => ?_⟩
  · rw [decode_eq_ok_iff, Uuid.isUuid_iff]
  · have one := decodeAs_eq_ok_iff.mp here
    have other := decodeAs_eq_ok_iff.mp there
    rw [one, Except.ok.injEq] at other
    exact congrArg GlobalId.kind other

theorem global_id_canonical_labelled :
    decode (encode ⟨.terraformModule, "URN:uuid:6F1c2b3a-0000-4000-8000-00000000000a"⟩) =
      .ok ⟨.terraformModule, "URN:uuid:6F1c2b3a-0000-4000-8000-00000000000a"⟩ ∧
    ∀ id, decodeAs .team (encode ⟨.terraformModule, "URN:uuid:6F1c2b3a-0000-4000-8000-00000000000a"⟩) ≠
      .ok id := by
  obtain ⟨accepts, -, asks, alone⟩ := global_id_canonical
  have spelled : Uuid.Spelled "URN:uuid:6F1c2b3a-0000-4000-8000-00000000000a".toList :=
    Uuid.isUuid_iff.mp (by decide +kernel)
  have read := (accepts _ .terraformModule _).mpr ⟨rfl, spelled⟩
  refine ⟨read, fun id team => ?_⟩
  have same := alone _ _ _ _ _ team ((asks _ _ _).mpr read)
  exact absurd same (by decide)

end GlobalId

end InfraGraph
