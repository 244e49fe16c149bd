import Mathlib.Data.List.Forall2
import Atcap.Lab.Record

/-!
# The receipts of a record

What `_verify_embedded_receipts` accepts, without its loops: the receipts of the cases are
verified one by one, each binds what its case says, and no identifier, challenge or receipt
occurs twice.
-/

namespace Atcap.Lab

open Base

/-! ### Values that have not occurred before -/

section Fresh

variable {α κ : Type} {key : α → κ} {old xs ys : List α} {a : α}

/-- The keys of the new elements are distinct and do not occur among the old ones. -/
def Fresh (key : α → κ) (old new : List α) : Prop :=
  (∀ a ∈ new, key a ∉ old.map key) ∧ (new.map key).Nodup

/-- No new keys are fresh. -/
@[simp] theorem fresh_nil : Fresh key old [] := ⟨by simp, List.nodup_nil⟩

/-- The first element is new, and the others are new after it. -/
theorem fresh_cons : Fresh key old (a :: xs) ↔ key a ∉ old.map key ∧ Fresh key (old ++ [a]) xs := by
  simp only [Fresh, List.forall_mem_cons, List.map_cons, List.nodup_cons, List.map_append,
    List.map_nil, List.mem_append, List.mem_singleton, not_or]
  constructor
  · rintro ⟨⟨ha, hxs⟩, hnot, hnodup⟩
    refine ⟨ha, fun b hb ↦ ⟨hxs b hb, ?_⟩, hnodup⟩
    intro heq
    exact hnot (heq ▸ List.mem_map_of_mem hb)
  · rintro ⟨ha, hxs, hnodup⟩
    refine ⟨⟨ha, fun b hb ↦ (hxs b hb).1⟩, ?_, hnodup⟩
    intro hmem
    obtain ⟨b, hb, heq⟩ := List.mem_map.mp hmem
    exact (hxs b hb).2 heq

/-- New elements in two parts. -/
theorem fresh_append : Fresh key old (xs ++ ys) ↔ Fresh key old xs ∧ Fresh key (old ++ xs) ys := by
  induction xs generalizing old with
  | nil => simp
  | cons x xs ih =>
    rw [List.cons_append, fresh_cons, fresh_cons, ih, List.append_assoc, List.singleton_append,
      and_assoc]

/-- After nothing, new elements are distinct ones. -/
@[simp] theorem fresh_of_nil : Fresh key [] xs ↔ (xs.map key).Nodup := by
  simp [Fresh]

end Fresh

/-! ### One receipt -/

/-- A broker receipt that a case accepts, and what it binds. -/
structure BrokerClaims (observedAt : Int) (b : ReceiptFields) (k : BrokerBinding) : Prop where
  receiptId : b.receiptId = k.receiptId
  decidedAt : b.decidedAt = k.decidedAt
  decidingService : b.decidingService = .broker
  decision : b.decision = .allow
  reason : b.reason = .ALLOW
  credentialId : b.credentialId = some k.credentialId
  qualifiedScope : b.qualifiedScope = some k.qualifiedScope
  challengeTokenHash : b.challengeTokenHash = some k.challengeTokenHash
  manifestDigest : b.manifestDigest = some k.manifestDigest
  observed : k.decidedAt ≤ observedAt
  artifactNames : artifactNames b.artifactHashes = brokerArtifacts
  lowerHex : ∀ t ∈ [k.credentialId, k.challengeTokenHash] ++ b.artifactHashes.toList.map Prod.snd,
    Text.isLowerHexOf 64 t = true
  manifest : text "sha256:" <+: k.manifestDigest ∧
    Text.isLowerHexOf 64 (k.manifestDigest.drop 7) = true
  unbound : b.method = none ∧ b.audience = none ∧ b.argumentsDigest = none ∧ b.recordId = none
  brokerPolicySha256 : b.artifactHashes[text "broker_policy_sha256"]? = some k.brokerPolicySha256
  issuanceRequestSha256 :
    b.artifactHashes[text "issuance_request_sha256"]? = some k.issuanceRequestSha256
  tpmAkChainSha256 : b.artifactHashes[text "tpm_ak_chain_sha256"]? = some k.tpmAkChainSha256
  tpmAttestSha256 : b.artifactHashes[text "tpm_attest_sha256"]? = some k.tpmAttestSha256
  tpmSignatureSha256 : b.artifactHashes[text "tpm_signature_sha256"]? = some k.tpmSignatureSha256

/-- A broker receipt is accepted exactly when its identifiers are new and its claims fit. -/
theorem readBroker_eq_ok {brokers : List BrokerBinding} {observedAt : Int} {jws : Text}
    {b : ReceiptFields} {k : BrokerBinding} :
    readBroker brokers observedAt jws b = .ok k ↔
      k.jws = jws ∧ k.receiptId ∉ brokers.map BrokerBinding.receiptId ∧
      k.credentialId ∉ brokers.map BrokerBinding.credentialId ∧
      k.challengeTokenHash ∉ brokers.map BrokerBinding.challengeTokenHash ∧
      BrokerClaims observedAt b k := by
  simp only [readBroker, bind_eq_ok, raiseIf_eq_ok, orRaise_eq_ok, pure, Except.pure,
    Except.ok.injEq, not_or, ne_eq, not_not, not_lt, not_exists, not_and, Bool.not_eq_false,
    Bool.not_eq_true, Option.isSome_eq_false_iff, Option.isNone_iff_eq_none]
  constructor
  · rintro ⟨_, ⟨hid, hservice, hdecision, hreason⟩, credentialId, hcredential, _, hcredential',
      scope, hscope, challenge, hchallenge, _, hchallenge', manifest, hmanifest, _,
      ⟨hobserved, hnames⟩, _, hhex, _, hdigest, _, hunbound, _, h₁, _, h₂, _, h₃, _, h₄, _, h₅, rfl⟩
    exact ⟨rfl, hid, hcredential', hchallenge', rfl, rfl, hservice, hdecision, hreason, hcredential,
      hscope, hchallenge, hmanifest, hobserved, hnames, hhex, by simpa using hdigest, hunbound, h₁,
      h₂, h₃, h₄, h₅⟩
  · rintro ⟨rfl, hid, hcredential', hchallenge', h⟩
    refine ⟨(), ⟨by rw [h.receiptId]; exact hid, h.decidingService, h.decision, h.reason⟩, _,
      h.credentialId, (), hcredential', _, h.qualifiedScope, _, h.challengeTokenHash, (),
      hchallenge', _, h.manifestDigest, (), ⟨by rw [h.decidedAt]; exact h.observed,
      h.artifactNames⟩, (), h.lowerHex, (), by simpa using h.manifest, (), h.unbound, _,
      h.brokerPolicySha256, _, h.issuanceRequestSha256, _, h.tpmAkChainSha256, _,
      h.tpmAttestSha256, _, h.tpmSignatureSha256, ?_⟩
    rw [h.receiptId, h.decidedAt]

/-- A resource receipt that an attempt accepts, and what it binds. -/
structure ResourceClaims (observedAt : Int) (broker : BrokerBinding) (variant : Variant)
    (a : AttemptFields) (r : ReceiptFields) (k : ResourceBinding) : Prop where
  jws : k.jws = a.receiptJws.val
  receiptId : r.receiptId = k.receiptId
  decidedAt : r.decidedAt = k.decidedAt
  challengeTokenHash : r.challengeTokenHash = k.challengeTokenHash
  handlerCountSnapshot : r.handlerCountSnapshot = k.handlerCountSnapshot
  decidingService : r.decidingService = .inventoryd
  decision : r.decision = a.expectedDecision
  reason : r.reason = a.reason
  credentialId : r.credentialId = some broker.credentialId
  qualifiedScope : r.qualifiedScope = some broker.qualifiedScope
  method : r.method = some k.method
  audience : r.audience = some k.audience
  argumentsDigest : r.argumentsDigest = some k.argumentsDigest
  recordId : r.recordId = some k.recordId
  manifestDigest : r.manifestDigest = none
  ordered : broker.decidedAt ≤ k.decidedAt ∧ k.decidedAt ≤ observedAt
  handlerInvoked : r.handlerInvoked = a.handlerInvoked
  businessResult : r.businessResult = a.businessResult.val
  invocationId : r.invocationId = a.invocationId.map Subtype.val
  artifactNames : artifactNames r.artifactHashes = {text "resource_policy_sha256"}
  resourcePolicySha256 :
    r.artifactHashes[text "resource_policy_sha256"]? = some k.resourcePolicySha256
  lowerHex : Text.isLowerHexOf 64 k.resourcePolicySha256 = true ∧
    Text.isLowerHexOf 64 k.argumentsDigest = true
  malformed : variant = .malformed → k.challengeTokenHash = none
  challenged : variant ≠ .malformed → k.challengeTokenHash.any (Text.isLowerHexOf 64) = true

/-- A resource receipt is accepted exactly when its identifier is new and its claims fit. -/
theorem readResource_eq_ok {resources : List ResourceBinding} {observedAt : Int}
    {broker : BrokerBinding} {variant : Variant} {a : AttemptFields} {r : ReceiptFields}
    {k : ResourceBinding} :
    readResource resources observedAt broker variant a r = .ok k ↔
      k.receiptId ∉ resources.map ResourceBinding.receiptId ∧
      ResourceClaims observedAt broker variant a r k := by
  simp only [readResource, bind_eq_ok, raiseIf_eq_ok, orRaise_eq_ok, pure, Except.pure,
    Except.ok.injEq, not_or, ne_eq, not_not, not_lt, not_and, Bool.not_eq_false, Bool.not_eq_true,
    Option.isSome_eq_false_iff, Option.isNone_iff_eq_none]
  constructor
  · rintro ⟨_, ⟨hid, hservice, hdecision, hreason, hcredential, hscope⟩, _, hmethod, _, haudience,
      _, harguments, _, hrecord, _, ⟨hmanifest, hafter, hobserved, hinvoked, hresult, hinvocation,
      hnames⟩, _, hpolicy, _, hhex, _, hmalformed, _, hchallenged, rfl⟩
    exact ⟨hid, rfl, rfl, rfl, rfl, rfl, hservice, hdecision, hreason, hcredential, hscope, hmethod,
      haudience, harguments, hrecord, hmanifest, ⟨hafter, hobserved⟩, hinvoked, hresult,
      hinvocation, hnames, hpolicy, hhex, hmalformed, hchallenged⟩
  · rintro ⟨hid, h⟩
    refine ⟨(), ⟨by rw [h.receiptId]; exact hid, h.decidingService, h.decision, h.reason,
      h.credentialId, h.qualifiedScope⟩, _, h.method, _, h.audience, _, h.argumentsDigest, _,
      h.recordId, (), ⟨h.manifestDigest, by rw [h.decidedAt]; exact h.ordered.1,
      by rw [h.decidedAt]; exact h.ordered.2, h.handlerInvoked, h.businessResult, h.invocationId,
      h.artifactNames⟩, _, h.resourcePolicySha256, (), h.lowerHex, (),
      by rw [h.challengeTokenHash]; exact h.malformed, (),
      by rw [h.challengeTokenHash]; exact h.challenged, ?_⟩
    rw [h.receiptId, h.decidedAt, h.challengeTokenHash, h.handlerCountSnapshot, ← h.jws]

/-! ### The receipts of a case -/

section Cases

variable {lib : Libraries} {v : Verifiers} {observedAt : Int}

/-- An attempt whose receipt is verified and binds `k`. -/
def AttemptBinds (lib : Libraries) (v : Verifiers) (observedAt : Int) (broker : BrokerBinding)
    (variant : Variant) (a : AttemptObservation) (k : ResourceBinding) : Prop :=
  ∃ receipt, v.resource.verify lib ⟨a.val.receiptJws.val⟩ = .ok receipt ∧
    ResourceClaims observedAt broker variant a.val receipt.toReceiptFields k

/-- The attempts of a case are accepted exactly when each binds something new. -/
theorem verifyAttempts_eq_ok {resources own result : List ResourceBinding} {broker : BrokerBinding}
    {variant : Variant} {attempts : List AttemptObservation} :
    verifyAttempts lib v observedAt resources broker variant own attempts = .ok result ↔
      ∃ new, result = own ++ new ∧
        List.Forall₂ (AttemptBinds lib v observedAt broker variant) attempts new ∧
        Fresh ResourceBinding.jws (resources ++ own) new ∧
        Fresh ResourceBinding.receiptId (resources ++ own) new := by
  induction attempts generalizing own with
  | nil =>
    simp only [verifyAttempts, Except.ok.injEq, List.forall₂_nil_left_iff]
    constructor
    · rintro rfl
      exact ⟨[], by simp⟩
    · rintro ⟨_, rfl, rfl, -⟩
      simp
  | cons a attempts ih =>
    simp only [verifyAttempts, bind_eq_ok, raiseIf_eq_ok, ih, readResource_eq_ok]
    constructor
    · rintro ⟨_, hjws, receipt, hreceipt, k, ⟨hid, hk⟩, new, rfl, hnew, hfresh, hfresh'⟩
      rw [← List.append_assoc] at hfresh hfresh'
      refine ⟨k :: new, by simp, .cons ⟨receipt, hreceipt, hk⟩ hnew, ?_, ?_⟩
      · rw [fresh_cons, hk.jws]
        exact ⟨hjws, hfresh⟩
      · rw [fresh_cons]
        exact ⟨hid, hfresh'⟩
    · rintro ⟨_, rfl, hnew, hfresh, hfresh'⟩
      cases hnew with
      | cons hk hnew =>
        obtain ⟨receipt, hreceipt, hk⟩ := hk
        rw [fresh_cons] at hfresh hfresh'
        rw [hk.jws] at hfresh
        refine ⟨(), hfresh.1, receipt, hreceipt, _, ⟨hfresh'.1, hk⟩, _, by simp, hnew, ?_, ?_⟩
        · rw [← List.append_assoc]
          exact hfresh.2
        · rw [← List.append_assoc]
          exact hfresh'.2

/-- What the receipts of a case bind. -/
abbrev CaseBinding := BrokerBinding × List ResourceBinding

/-- A case whose receipts are verified and bind `b`. -/
structure CaseBinds (lib : Libraries) (v : Verifiers) (observedAt : Int) (c : CaseObservation)
    (b : CaseBinding) : Prop where
  jws : b.1.jws = c.val.brokerReceiptJws.val
  broker : ∃ receipt, v.broker.verify lib ⟨c.val.brokerReceiptJws.val⟩ = .ok receipt ∧
    BrokerClaims observedAt receipt.toReceiptFields b.1
  attempts : List.Forall₂ (AttemptBinds lib v observedAt b.1 c.val.variant) c.val.attempts b.2
  checked : checkCaseReceipts c.val b.2 = .ok ()

/-- New broker receipts: no receipt, identifier, credential or challenge a second time. -/
structure FreshBrokers (old new : List BrokerBinding) : Prop where
  jws : Fresh BrokerBinding.jws old new
  receiptId : Fresh BrokerBinding.receiptId old new
  credentialId : Fresh BrokerBinding.credentialId old new
  challengeTokenHash : Fresh BrokerBinding.challengeTokenHash old new

/-- New resource receipts: no receipt and no identifier a second time. -/
structure FreshResources (old new : List ResourceBinding) : Prop where
  jws : Fresh ResourceBinding.jws old new
  receiptId : Fresh ResourceBinding.receiptId old new

/-- Broker bindings are fresh one after another. -/
theorem freshBrokers_cons {old new : List BrokerBinding} {k : BrokerBinding} :
    FreshBrokers old (k :: new) ↔ FreshBrokers old [k] ∧ FreshBrokers (old ++ [k]) new := by
  constructor
  · rintro ⟨h₁, h₂, h₃, h₄⟩
    rw [fresh_cons] at h₁ h₂ h₃ h₄
    refine ⟨⟨?_, ?_, ?_, ?_⟩, h₁.2, h₂.2, h₃.2, h₄.2⟩ <;> rw [fresh_cons]
    · exact ⟨h₁.1, fresh_nil⟩
    · exact ⟨h₂.1, fresh_nil⟩
    · exact ⟨h₃.1, fresh_nil⟩
    · exact ⟨h₄.1, fresh_nil⟩
  · rintro ⟨⟨h₁, h₂, h₃, h₄⟩, g₁, g₂, g₃, g₄⟩
    rw [fresh_cons] at h₁ h₂ h₃ h₄
    refine ⟨?_, ?_, ?_, ?_⟩ <;> rw [fresh_cons]
    · exact ⟨h₁.1, g₁⟩
    · exact ⟨h₂.1, g₂⟩
    · exact ⟨h₃.1, g₃⟩
    · exact ⟨h₄.1, g₄⟩

/-- Resource bindings are fresh in two parts. -/
theorem freshResources_append {old xs ys : List ResourceBinding} :
    FreshResources old (xs ++ ys) ↔ FreshResources old xs ∧ FreshResources (old ++ xs) ys := by
  constructor
  · rintro ⟨h₁, h₂⟩
    rw [fresh_append] at h₁ h₂
    exact ⟨⟨h₁.1, h₂.1⟩, h₁.2, h₂.2⟩
  · rintro ⟨⟨h₁, h₂⟩, g₁, g₂⟩
    exact ⟨fresh_append.mpr ⟨h₁, g₁⟩, fresh_append.mpr ⟨h₂, g₂⟩⟩

/-- The variable `replay_challenge_hash` after a case. -/
def replayHash (hash : Option Text) (c : CaseObservation) (b : CaseBinding) : Option Text :=
  if c.val.variant = .replay then b.2.head?.bind ResourceBinding.challengeTokenHash else hash

/-- A case is accepted exactly when its receipts bind something new. -/
theorem verifyCase_eq_ok {s s' : Seen} {c : CaseObservation} :
    verifyCase lib v observedAt s c.val = .ok s' ↔
      ∃ b, CaseBinds lib v observedAt c b ∧ FreshBrokers s.brokers [b.1] ∧
        FreshResources s.resources b.2 ∧
        s' = ⟨s.brokers ++ [b.1], s.resources ++ b.2, replayHash s.replayChallengeHash c b⟩ := by
  have hone : ∀ {κ : Type} {key : BrokerBinding → κ} {k : BrokerBinding},
      Fresh key s.brokers [k] ↔ key k ∉ s.brokers.map key := by
    intro κ key k
    rw [fresh_cons]
    simp
  simp only [verifyCase, bind_eq_ok, raiseIf_eq_ok, readBroker_eq_ok, verifyAttempts_eq_ok, pure,
    Except.pure, Except.ok.injEq, List.append_nil, List.nil_append]
  constructor
  · rintro ⟨_, hjws, receipt, hreceipt, k, ⟨hk, hid, hcredential, hchallenge, hclaims⟩, own,
      ⟨_, rfl, hown, hfresh, hfresh'⟩, _, hchecked, rfl⟩
    rw [← hk] at hjws
    exact ⟨(k, own), ⟨hk, ⟨receipt, hreceipt, hclaims⟩, hown, hchecked⟩,
      ⟨hone.mpr hjws, hone.mpr hid, hone.mpr hcredential, hone.mpr hchallenge⟩,
      ⟨hfresh, hfresh'⟩, rfl⟩
  · rintro ⟨⟨k, own⟩, ⟨hk, ⟨receipt, hreceipt, hclaims⟩, hown, hchecked⟩,
      ⟨hjws, hid, hcredential, hchallenge⟩, ⟨hfresh, hfresh'⟩, rfl⟩
    rw [hone] at hjws hid hcredential hchallenge
    rw [hk] at hjws
    exact ⟨(), hjws, receipt, hreceipt, k, ⟨hk, hid, hcredential, hchallenge, hclaims⟩, own,
      ⟨own, rfl, hown, hfresh, hfresh'⟩, (), hchecked, rfl⟩

/-- The variable `replay_challenge_hash` after the loop. -/
def replayHashes (hash : Option Text) : List CaseObservation → List CaseBinding → Option Text
  | c :: cases, b :: bs => replayHashes (replayHash hash c b) cases bs
  | _, _ => hash

/-- The cases are accepted exactly when the receipts of each bind something new. -/
theorem verifyCases_eq_ok {s s' : Seen} {cases : List CaseObservation} :
    verifyCases lib v observedAt s cases = .ok s' ↔
      ∃ bs, List.Forall₂ (CaseBinds lib v observedAt) cases bs ∧
        FreshBrokers s.brokers (bs.map Prod.fst) ∧
        FreshResources s.resources (bs.flatMap Prod.snd) ∧
        s' = ⟨s.brokers ++ bs.map Prod.fst, s.resources ++ bs.flatMap Prod.snd,
          replayHashes s.replayChallengeHash cases bs⟩ := by
  induction cases generalizing s with
  | nil =>
    simp only [verifyCases, Except.ok.injEq, List.forall₂_nil_left_iff]
    constructor
    · rintro rfl
      refine ⟨[], rfl, ⟨?_, ?_, ?_, ?_⟩, ⟨?_, ?_⟩, ?_⟩ <;> simp [replayHashes]
    · rintro ⟨_, rfl, -, -, rfl⟩
      simp [replayHashes]
  | cons c cases ih =>
    simp only [verifyCases, bind_eq_ok, verifyCase_eq_ok, ih]
    constructor
    · rintro ⟨_, ⟨b, hb, hbrokers, hresources, rfl⟩, bs, hbs, hbrokers', hresources', rfl⟩
      refine ⟨b :: bs, .cons hb hbs, ?_, ?_, ?_⟩
      · rw [List.map_cons, freshBrokers_cons]
        exact ⟨hbrokers, hbrokers'⟩
      · rw [List.flatMap_cons, freshResources_append]
        exact ⟨hresources, hresources'⟩
      · simp [replayHashes]
    · rintro ⟨_, hbs, hbrokers, hresources, rfl⟩
      cases hbs with
      | cons hb hbs =>
        rw [List.map_cons, freshBrokers_cons] at hbrokers
        rw [List.flatMap_cons, freshResources_append] at hresources
        exact ⟨_, ⟨_, hb, hbrokers.1, hresources.1, rfl⟩, _, hbs, hbrokers.2, hresources.2,
          by simp [replayHashes]⟩

/-- Every element on the right has one on the left. -/
theorem exists_of_forall₂ {α β : Type} {R : α → β → Prop} {xs : List α} {ys : List β}
    (h : List.Forall₂ R xs ys) {y : β} (hy : y ∈ ys) : ∃ x ∈ xs, R x y := by
  induction h with
  | nil => cases hy
  | cons hr _ ih =>
    rcases List.mem_cons.mp hy with rfl | hy
    · exact ⟨_, List.mem_cons_self, hr⟩
    · obtain ⟨x, hx, hr⟩ := ih hy
      exact ⟨x, List.mem_cons_of_mem _ hx, hr⟩

/-- Receipts with distinct identifiers are distinct receipts. -/
theorem nodup_jws {α : Type} (lib : Libraries) (r : ReceiptVerifier) {ks : List α}
    {jws receiptId : α → Text}
    (hverify : ∀ k ∈ ks, ∃ receipt, r.verify lib ⟨jws k⟩ = .ok receipt ∧
      receipt.receiptId = receiptId k) (hnodup : (ks.map receiptId).Nodup) :
    (ks.map jws).Nodup := by
  refine (List.Nodup.of_map _ hnodup).map_on fun k hk l hl hjws ↦ ?_
  obtain ⟨receipt, hreceipt, hid⟩ := hverify k hk
  obtain ⟨receipt', hreceipt', hid'⟩ := hverify l hl
  rw [hjws, hreceipt', Except.ok.injEq] at hreceipt
  subst hreceipt
  exact List.inj_on_of_nodup_map hnodup hk hl (hid.symm.trans hid')

/-- What the receipts of all cases bind, with the cross-checks of the record. -/
structure RecordBinds (lib : Libraries) (v : Verifiers) (p : ExperimentRecordFields)
    (bs : List CaseBinding) : Prop where
  cases : List.Forall₂ (CaseBinds lib v p.observedAt.val) p.cases bs
  brokerIds : (bs.map fun b ↦ b.1.receiptId).Nodup
  credentialIds : (bs.map fun b ↦ b.1.credentialId).Nodup
  challengeTokenHashes : (bs.map fun b ↦ b.1.challengeTokenHash).Nodup
  resourceIds : ((bs.flatMap Prod.snd).map ResourceBinding.receiptId).Nodup
  checked : ∀ s : Seen, s = ⟨bs.map Prod.fst, bs.flatMap Prod.snd, replayHashes none p.cases bs⟩ →
    s.checkBindings = .ok () ∧ s.checkIssuances p = .ok () ∧ s.checkSnapshots p = .ok () ∧
      s.checkChallenges = .ok ()

/-- The receipts of a record are accepted if they bind its cases and pass its cross-checks. -/
theorem RecordBinds.verifyEmbeddedReceipts {importKey : ImportKey} {p : ExperimentRecordFields}
    {bs : List CaseBinding} (h : RecordBinds lib v p bs)
    (hbroker : p.brokerReceiptVerifier.val.receiptVerifier importKey = .ok v.broker)
    (hresource : p.resourceReceiptVerifier.val.receiptVerifier importKey = .ok v.resource) :
    verifyEmbeddedReceipts lib importKey p = .ok () := by
  have hbs : ∀ b ∈ bs, ∃ c, CaseBinds lib v p.observedAt.val c b := by
    intro b hb
    obtain ⟨c, -, hc⟩ := exists_of_forall₂ h.cases hb
    exact ⟨c, hc⟩
  have hbrokers : FreshBrokers [] (bs.map Prod.fst) := by
    constructor <;> rw [fresh_of_nil, List.map_map]
    · refine nodup_jws lib v.broker (fun b hb ↦ ?_) h.brokerIds
      obtain ⟨c, hc⟩ := hbs b hb
      obtain ⟨receipt, hreceipt, hclaims⟩ := hc.broker
      exact ⟨receipt, by rw [Function.comp_apply, hc.jws]; exact hreceipt, hclaims.receiptId⟩
    · exact h.brokerIds
    · exact h.credentialIds
    · exact h.challengeTokenHashes
  have hresources : FreshResources [] (bs.flatMap Prod.snd) := by
    constructor <;> rw [fresh_of_nil]
    · refine nodup_jws lib v.resource (fun k hk ↦ ?_) h.resourceIds
      obtain ⟨b, hb, hk⟩ := List.mem_flatMap.mp hk
      obtain ⟨c, hc⟩ := hbs b hb
      obtain ⟨a, -, receipt, hreceipt, hclaims⟩ := exists_of_forall₂ hc.attempts hk
      exact ⟨receipt, by rw [hclaims.jws]; exact hreceipt, hclaims.receiptId⟩
    · exact h.resourceIds
  obtain ⟨hbindings, hissuances, hsnapshots, hchallenges⟩ := h.checked _ rfl
  simp only [Lab.verifyEmbeddedReceipts, hbroker, hresource, bind_eq_ok, verifyCases_eq_ok]
  exact ⟨_, rfl, _, rfl, _, ⟨bs, h.cases, hbrokers, hresources, rfl⟩, (), hbindings, (), hissuances,
    (), hsnapshots, hchallenges⟩

end Cases

end Atcap.Lab
