import Atcap.Base.Program
import Atcap.Policy

/-!
# Policy hashes commit to the whole policy

`public_dict` forgets nothing but what it hashes: two policies with one canonical digest are equal
field by field, unless SHA-256 collides on their encodings or on their trusted roots.
-/

namespace Atcap

open Base

private theorem plain_dict {m : List (Text × Value)} (hn : (m.map Prod.fst).Nodup)
    (hk : ∀ p ∈ m, p.2.distinctKeys = true) (hf : ∀ p ∈ m, Json.floatFree p.2 = true) :
    (Value.dict m).distinctKeys = true ∧ Json.floatFree (.dict m) = true :=
  ⟨Value.distinctKeys_dict.mpr ⟨hn, hk⟩, Json.floatFree_dict.mpr hf⟩

/-! ### Resource policies -/

namespace ResourcePolicy

private def publicNames : List Text :=
  ["audience", "method", "qualified_scope", "trusted_broker_public_hex",
    "challenge_ttl_seconds", "max_credential_lifetime_seconds"].map text

private theorem publicNames_nodup : publicNames.Nodup := by
  apply List.Nodup.map text_injective
  decide

/-- The dictionary of a policy has distinct keys. -/
theorem distinctKeys_publicDict (p : ResourcePolicy) : p.publicDict.distinctKeys = true := by
  apply Value.distinctKeys_dict.mpr
  refine ⟨publicNames_nodup, ?_⟩
  simp [Value.distinctKeys, Value.everywhere]

/-- The dictionary of a policy has no floating-point number. -/
theorem floatFree_publicDict (p : ResourcePolicy) : Json.floatFree p.publicDict = true := by
  apply Json.floatFree_dict.mpr
  simp [Json.floatFree, Value.everywhere]

/-- The public dictionary determines the policy. -/
theorem eq_of_sorted {p q : ResourcePolicy}
    (h : Json.sorted p.publicDict = Json.sorted q.publicDict) : p = q := by
  have hvalues := Json.members_of_sorted_dict h publicNames_nodup rfl
  simp only [List.map_cons, List.map_nil, Json.sorted, Json.sortKeys,
    List.cons.injEq, Value.str.injEq, Value.int.injEq, and_true] at hvalues
  obtain ⟨h₁, h₂, h₃, h₄, h₅, h₆⟩ := hvalues
  cases p
  cases q
  simp_all

end ResourcePolicy

/-! ### Broker policies -/

namespace ManifestPolicy

private def publicNames : List Text :=
  ["expected_digest", "issuer", "signing_key_id", "signing_public_b64url", "identity_public_hex",
    "system_prompt_hash", "policy_bundle_hash", "model_hash"].map text

private theorem publicNames_nodup : publicNames.Nodup := by
  apply List.Nodup.map text_injective
  decide

private theorem plain_publicDict (p : ManifestPolicy) :
    p.publicDict.distinctKeys = true ∧ Json.floatFree p.publicDict = true := by
  refine plain_dict publicNames_nodup ?_ ?_
  · simp [Value.distinctKeys, Value.everywhere]
  · simp [Json.floatFree, Value.everywhere]

private theorem eq_of_sorted {p q : ManifestPolicy}
    (h : Json.sorted p.publicDict = Json.sorted q.publicDict) : p = q := by
  have hvalues := Json.members_of_sorted_dict h publicNames_nodup rfl
  simp only [List.map_cons, List.map_nil, Json.sorted, Json.sortKeys,
    List.cons.injEq, Value.str.injEq, and_true] at hvalues
  obtain ⟨h₁, h₂, h₃, h₄, h₅, h₆, h₇, h₈⟩ := hvalues
  cases p
  cases q
  simp_all

end ManifestPolicy

namespace TpmPolicy

private def publicNames : List Text :=
  ["selection", "expected_pcr_digest", "trusted_roots_sha256"].map text

private theorem publicNames_nodup : publicNames.Nodup := by
  apply List.Nodup.map text_injective
  decide

private def bankDict (s : Text × List Int) : Value :=
  .dict [(text "bank", .str s.1), (text "indices", .list (s.2.map .int))]

private theorem bankNames_nodup : [text "bank", text "indices"].Nodup := by decide

private theorem plain_bankDict (s : Text × List Int) :
    (bankDict s).distinctKeys = true ∧ Json.floatFree (bankDict s) = true := by
  have hindices : (Value.list (s.2.map .int)).distinctKeys = true ∧
      Json.floatFree (.list (s.2.map .int)) = true := by
    rw [Value.distinctKeys_list, Json.floatFree_list, List.forall_mem_map, List.forall_mem_map]
    exact ⟨fun _ _ ↦ rfl, fun _ _ ↦ rfl⟩
  refine plain_dict bankNames_nodup ?_ ?_
  · simp only [List.forall_mem_cons]
    exact ⟨rfl, hindices.1, nofun⟩
  · simp only [List.forall_mem_cons]
    exact ⟨rfl, hindices.2, nofun⟩

private theorem sorted_indices (indices : List Int) :
    Json.sorted (.list (indices.map .int)) = .list (indices.map .int) := by
  rw [Json.sorted_list, List.map_map]
  rfl

private theorem bankDict_injective : Function.Injective fun s ↦ Json.sorted (bankDict s) := by
  intro s s' h
  have hvalues := Json.members_of_sorted_dict h bankNames_nodup rfl
  simp only [List.map_cons, List.map_nil, sorted_indices, List.cons.injEq, Value.list.injEq,
    and_true] at hvalues
  obtain ⟨hbank, hindices⟩ := hvalues
  have hinjective : Function.Injective Value.int := fun _ _ ↦ Value.int.inj
  exact Prod.ext (Value.str.inj hbank) (List.map_injective_iff.mpr hinjective hindices)

private theorem plain_publicDict (p : TpmPolicy) :
    p.publicDict.distinctKeys = true ∧ Json.floatFree p.publicDict = true := by
  have hselection : (Value.list (p.selection.map bankDict)).distinctKeys = true ∧
      Json.floatFree (.list (p.selection.map bankDict)) = true := by
    rw [Value.distinctKeys_list, Json.floatFree_list]
    constructor
    · intro v hv
      obtain ⟨s, _, rfl⟩ := List.mem_map.mp hv
      exact (plain_bankDict s).1
    · intro v hv
      obtain ⟨s, _, rfl⟩ := List.mem_map.mp hv
      exact (plain_bankDict s).2
  refine plain_dict publicNames_nodup ?_ ?_
  · simp only [List.forall_mem_cons]
    exact ⟨hselection.1, rfl, rfl, nofun⟩
  · simp only [List.forall_mem_cons]
    exact ⟨hselection.2, rfl, rfl, nofun⟩

private theorem eq_of_sorted {p q : TpmPolicy}
    (h : Json.sorted p.publicDict = Json.sorted q.publicDict) :
    p.selection = q.selection ∧ p.expectedPcrDigest = q.expectedPcrDigest ∧
      sha256 p.trustedRootsPem = sha256 q.trustedRootsPem := by
  have hvalues := Json.members_of_sorted_dict h publicNames_nodup rfl
  simp only [List.map_cons, List.map_nil, List.cons.injEq, and_true] at hvalues
  obtain ⟨hselection, hdigest, hroots⟩ := hvalues
  rw [Json.sorted_list, Json.sorted_list, List.map_map, List.map_map, Value.list.injEq]
    at hselection
  exact ⟨List.map_injective_iff.mpr bankDict_injective hselection,
    hex_injective (Value.str.inj hdigest), hex_injective (Value.str.inj hroots)⟩

end TpmPolicy

namespace BrokerPolicy

private def publicNames : List Text :=
  ["broker_id", "qualified_scope", "resource_issuer_kid", "resource_issuer_public_hex",
    "resource_issuer_key_sha256", "challenge_ttl_seconds", "credential_ttl_seconds", "manifest",
    "tpm"].map text

private theorem publicNames_nodup : publicNames.Nodup := by
  apply List.Nodup.map text_injective
  decide

private def publicMembers (p : BrokerPolicy) (issuerKey : Bytes) : List (Text × Value) :=
  [(text "broker_id", .str p.brokerId), (text "qualified_scope", .str p.qualifiedScope),
    (text "resource_issuer_kid", .str p.resourceIssuerKid),
    (text "resource_issuer_public_hex", .str p.resourceIssuerPublicHex),
    (text "resource_issuer_key_sha256", .str (sha256Hex issuerKey)),
    (text "challenge_ttl_seconds", .int p.challengeTtlSeconds),
    (text "credential_ttl_seconds", .int p.credentialTtlSeconds),
    (text "manifest", p.manifest.publicDict), (text "tpm", p.tpm.publicDict)]

private theorem publicDict_eq_ok {p : BrokerPolicy} {dict : Value} (h : p.publicDict = .ok dict) :
    ∃ issuerKey, dict = .dict (p.publicMembers issuerKey) := by
  simp only [publicDict, bind_eq_ok] at h
  obtain ⟨issuerKey, _, h⟩ := h
  cases h
  exact ⟨issuerKey, rfl⟩

private theorem plain_publicMembers (p : BrokerPolicy) (issuerKey : Bytes) :
    (Value.dict (p.publicMembers issuerKey)).distinctKeys = true ∧
      Json.floatFree (.dict (p.publicMembers issuerKey)) = true := by
  refine plain_dict publicNames_nodup ?_ ?_
  · simp only [publicMembers, List.forall_mem_cons]
    exact ⟨rfl, rfl, rfl, rfl, rfl, rfl, rfl, p.manifest.plain_publicDict.1,
      p.tpm.plain_publicDict.1, nofun⟩
  · simp only [publicMembers, List.forall_mem_cons]
    exact ⟨rfl, rfl, rfl, rfl, rfl, rfl, rfl, p.manifest.plain_publicDict.2,
      p.tpm.plain_publicDict.2, nofun⟩

/-- The dictionary of a policy has distinct keys. -/
theorem distinctKeys_publicDict {p : BrokerPolicy} {dict : Value} (h : p.publicDict = .ok dict) :
    dict.distinctKeys = true := by
  obtain ⟨issuerKey, rfl⟩ := publicDict_eq_ok h
  exact (p.plain_publicMembers issuerKey).1

/-- The scope of a policy whose dictionary has a canonical encoding. -/
theorem encodable_scope {p : BrokerPolicy} {dict : Value} (h : p.publicDict = .ok dict)
    (hc : Json.canonicalizable dict = true) : p.qualifiedScope.encodable = true := by
  obtain ⟨issuerKey, rfl⟩ := publicDict_eq_ok h
  have hscope := (Json.canonicalizable_dict.mp hc) (text "qualified_scope", .str p.qualifiedScope)
    (by simp [publicMembers])
  simpa [Json.canonicalizable, Value.everywhere] using hscope.2

private theorem eq_of_sorted {p q : BrokerPolicy} {k k' : Bytes}
    (h : Json.sorted (.dict (p.publicMembers k)) = Json.sorted (.dict (q.publicMembers k'))) :
    p = q ∨ Collides p.tpm.trustedRootsPem q.tpm.trustedRootsPem := by
  have hvalues := Json.members_of_sorted_dict h publicNames_nodup rfl
  simp only [publicMembers, List.map_cons, List.map_nil, List.cons.injEq, and_true] at hvalues
  obtain ⟨h₁, h₂, h₃, h₄, -, h₆, h₇, hmanifest, htpm⟩ := hvalues
  replace h₁ := Value.str.inj h₁
  replace h₂ := Value.str.inj h₂
  replace h₃ := Value.str.inj h₃
  replace h₄ := Value.str.inj h₄
  replace h₆ := Value.int.inj h₆
  replace h₇ := Value.int.inj h₇
  have hm := ManifestPolicy.eq_of_sorted hmanifest
  obtain ⟨hselection, hdigest, hroots⟩ := TpmPolicy.eq_of_sorted htpm
  by_cases hpem : p.tpm.trustedRootsPem = q.tpm.trustedRootsPem
  · left
    obtain ⟨_, _, _, _, _, _, _, tpm⟩ := p
    obtain ⟨_, _, _, _, _, _, _, tpm'⟩ := q
    cases tpm
    cases tpm'
    simp_all
  · exact .inr ⟨hpem, hroots⟩

end BrokerPolicy

/-! ### Hashes -/

/-- `broker_policy_sha256`. -/
def BrokerPolicy.sha256 (lib : Libraries) (p : BrokerPolicy) : Except Exn Text := do
  let policyDict ← p.publicDict
  canonicalDigest lib policyDict

/-- `resource_policy_sha256`. -/
def ResourcePolicy.sha256 (lib : Libraries) (p : ResourcePolicy) : Except Exn Text :=
  canonicalDigest lib p.publicDict

/-- Two resource policies with one hash are equal, unless SHA-256 collides on their encodings. -/
theorem ResourcePolicy.eq_of_sha256 {lib : Libraries} (law : Rfc8785 lib) {p q : ResourcePolicy}
    {digest : Text} (h : p.sha256 lib = .ok digest) (h' : q.sha256 lib = .ok digest) :
    p = q ∨ ∃ data data', canonicalJson lib p.publicDict = .ok data ∧
      canonicalJson lib q.publicDict = .ok data' ∧ Collides data data' := by
  obtain hsorted | hcollision := law.sorted_eq_of_digest p.distinctKeys_publicDict
    p.floatFree_publicDict q.distinctKeys_publicDict q.floatFree_publicDict h h'
  · exact .inl (eq_of_sorted hsorted)
  · exact .inr hcollision

/-- Two broker policies with one hash are equal, unless SHA-256 collides on their encodings or on
their trusted roots. -/
theorem BrokerPolicy.eq_of_sha256 {lib : Libraries} (law : Rfc8785 lib) {p q : BrokerPolicy}
    {digest : Text} (h : p.sha256 lib = .ok digest) (h' : q.sha256 lib = .ok digest) :
    p = q ∨ Collides p.tpm.trustedRootsPem q.tpm.trustedRootsPem ∨
      ∃ dict dict' data data', p.publicDict = .ok dict ∧ q.publicDict = .ok dict' ∧
        canonicalJson lib dict = .ok data ∧ canonicalJson lib dict' = .ok data' ∧
        Collides data data' := by
  obtain ⟨dict, hdict, h⟩ := bind_eq_ok.mp h
  obtain ⟨dict', hdict', h'⟩ := bind_eq_ok.mp h'
  obtain ⟨k, rfl⟩ := publicDict_eq_ok hdict
  obtain ⟨k', rfl⟩ := publicDict_eq_ok hdict'
  obtain hsorted | ⟨data, data', hdata, hdata', hcollision⟩ := law.sorted_eq_of_digest
    (p.plain_publicMembers k).1 (p.plain_publicMembers k).2 (q.plain_publicMembers k').1
    (q.plain_publicMembers k').2 h h'
  · obtain heq | hcollision := eq_of_sorted hsorted
    · exact .inl heq
    · exact .inr (.inl hcollision)
  · exact .inr (.inr ⟨_, _, data, data', hdict, hdict', hdata, hdata', hcollision⟩)

end Atcap
