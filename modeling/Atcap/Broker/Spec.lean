import Atcap.Broker
import Atcap.History

/-!
# What an issuance has established

The program logic of `issue` and `new_challenge`: what a call's history shows when it consumes
its challenge, and when it returns a credential.
-/

namespace Atcap

open Base

variable {L : Type} {lib : Libraries} {A : History → Event Op Op.Reply → Prop}
  {G : History → Op → Prop} {h h' : History} {l : L}

/-! ### Manifest, identity and TPM -/

/-- The manifest was normalised, pinned and verified. -/
def ManifestVerified (manifest : Value) (policy : ManifestPolicy) (h : History) : Prop :=
  ∃ normalized result, ⟨.lib (.manifestNormalize manifest), .ok normalized⟩ ∈ h ∧
    issuedBy normalized policy.issuer = true ∧
    ⟨.lib (.manifestCanonicalHash normalized), .ok policy.expectedDigest⟩ ∈ h ∧
    ⟨.lib (.verifyManifest normalized policy.verificationContext), .ok result⟩ ∈ h ∧
    result.valid = true ∧ result.signatureVerified = true

/-- A longer history keeps a verified manifest. -/
theorem ManifestVerified.mono {manifest : Value} {policy : ManifestPolicy}
    (hm : ManifestVerified manifest policy h) (hs : h ⊆ h') :
    ManifestVerified manifest policy h' := by
  obtain ⟨normalized, result, hnormal, hissuer, hdigest, hverify, hvalid, hsigned⟩ := hm
  exact ⟨normalized, result, hs hnormal, hissuer, hs hdigest, hs hverify, hvalid, hsigned⟩

/-- `verify_signed_manifest` asks only queries, and returns after verification. -/
theorem verifySignedManifest_sat {manifest : Value} {policy : ManifestPolicy}
    (hG : ∀ h e, e.isQuery = true → G h e) (hq : Quiet h) :
    Body.Sat A G (fun h' r l' ↦ Quiet h' ∧ l' = l ∧
      ∀ v, r = .ok v → ManifestVerified manifest policy h')
      (verifySignedManifest manifest policy) h l := by
  unfold verifySignedManifest normalizeSignedManifest callLibExcept callLib
  apply Body.Sat.invoke (hG _ _ rfl)
  · intro r x _ _
    exact ⟨hq.snoc rfl, rfl, nofun⟩
  intro r normalized _ hr
  obtain rfl := mapError_eq_ok.mp hr
  have hq₁ : Quiet (h ++ [⟨.lib (.manifestNormalize manifest), .ok normalized⟩]) := hq.snoc rfl
  apply Body.Sat.raiseIf
  · intro _
    exact ⟨hq₁, rfl, nofun⟩
  intro hissuer
  apply Body.Sat.invoke (hG _ _ rfl)
  · intro r x _ _
    exact ⟨hq₁.snoc rfl, rfl, nofun⟩
  rintro r digest _ rfl
  apply Body.Sat.raiseIf
  · intro _
    exact ⟨hq₁.snoc rfl, rfl, nofun⟩
  intro hdigest
  obtain rfl := not_not.mp hdigest
  apply Body.Sat.invoke (hG _ _ rfl)
  · intro r x _ _
    exact ⟨(hq₁.snoc rfl).snoc rfl, rfl, nofun⟩
  rintro r result _ rfl
  apply Body.Sat.raiseIf
  · intro _
    exact ⟨(hq₁.snoc rfl).snoc rfl, rfl, nofun⟩
  intro hresult
  rw [not_or] at hresult
  refine ⟨(hq₁.snoc rfl).snoc rfl, rfl, fun v _ ↦ ?_⟩
  exact ⟨normalized, result, by simp, by simpa using hissuer, by simp, by simp,
    by simpa using hresult.1, by simpa using hresult.2⟩

variable (lib) in
/-- The request names this policy, and the policy's identity signed its nine other fields. -/
structure IdentityEndorsed (request : IssuanceRequest) (policy : BrokerPolicy) (h : History) :
    Prop where
  bound : checkRequestBinding request policy = .ok ()
  endorsed : ∃ key signature message,
    bytesFromHex policy.manifest.identityPublicHex = .ok key ∧
    bytesFromHex request.identitySignature = .ok signature ∧
    request.signingBytes lib = .ok message ∧
    ⟨.lib (.ed25519Verify key signature message), .ok ()⟩ ∈ h

/-- A longer history keeps an endorsement. -/
theorem IdentityEndorsed.mono {request : IssuanceRequest} {policy : BrokerPolicy}
    (hi : IdentityEndorsed lib request policy h) (hs : h ⊆ h') :
    IdentityEndorsed lib request policy h' := by
  obtain ⟨key, signature, message, hkey, hsignature, hmessage, hverify⟩ := hi.endorsed
  exact ⟨hi.bound, key, signature, message, hkey, hsignature, hmessage, hs hverify⟩

/-- `verify_identity_endorsement` asks only queries, and returns after verification. -/
theorem verifyIdentityEndorsement_sat {request : IssuanceRequest} {policy : BrokerPolicy}
    (hG : ∀ h e, e.isQuery = true → G h e) (hq : Quiet h) :
    Body.Sat A G (fun h' r l' ↦ Quiet h' ∧ l' = l ∧
      (r = .ok () → IdentityEndorsed lib request policy h'))
      (verifyIdentityEndorsement lib request policy) h l := by
  unfold verifyIdentityEndorsement callLibExcept
  apply Body.Sat.ofExcept
  · intro x _
    exact ⟨hq, rfl, nofun⟩
  rintro ⟨⟩ hbound
  apply Body.Sat.ofExcept
  · intro x _
    exact ⟨hq, rfl, nofun⟩
  intro holderKey _
  apply Body.Sat.invoke (hG _ _ rfl)
  · intro r x _ _
    exact ⟨hq.snoc rfl, rfl, nofun⟩
  intro r u _ _
  have hq₁ : Quiet (h ++ [⟨.lib (.ed25519PublicKey holderKey), r⟩]) := hq.snoc rfl
  apply Body.Sat.raiseIf
  · intro _
    exact ⟨hq₁, rfl, nofun⟩
  intro _
  apply Body.Sat.ofExcept
  · intro x _
    exact ⟨hq₁, rfl, nofun⟩
  intro identityKey hkey
  apply Body.Sat.invoke (hG _ _ rfl)
  · intro r x _ _
    exact ⟨hq₁.snoc rfl, rfl, nofun⟩
  intro r' u' _ _
  apply Body.Sat.ofExcept
  · intro x _
    exact ⟨hq₁.snoc rfl, rfl, nofun⟩
  intro signature hsignature
  apply Body.Sat.ofExcept
  · intro x _
    exact ⟨hq₁.snoc rfl, rfl, nofun⟩
  intro message hmessage
  rw [Body.sat_invoke]
  refine ⟨hG _ _ rfl, fun r'' _ ↦ ⟨(hq₁.snoc rfl).snoc rfl, rfl, fun hr ↦ ⟨hbound, ?_⟩⟩⟩
  refine ⟨identityKey, signature, message, mapError_eq_ok.mp hkey, mapError_eq_ok.mp hsignature,
    mapError_eq_ok.mp hmessage, ?_⟩
  rw [mapError_eq_ok.mp hr]
  simp

/-- What an appraiser has accepted. -/
def TpmAppraiser.Accepted (appraiser : TpmAppraiser) (evidence : TpmEvidence)
    (qualifyingData : Bytes) (policy : TpmPolicy) (h : History) : Prop :=
  match appraiser with
  | .released => ⟨.lib (.readPcrSelection evidence.attest), .ok policy.selection⟩ ∈ h ∧
      ∃ time, ⟨.lib (.verifyTpmQuote (quoteCheck evidence qualifyingData policy time)),
        .ok (.bool true)⟩ ∈ h
  | .test acceptedEvidence => evidence = acceptedEvidence
  | .other => ⟨.lib (.appraise evidence qualifyingData policy), .ok ()⟩ ∈ h

/-- A longer history keeps an appraisal. -/
theorem TpmAppraiser.Accepted.mono {appraiser : TpmAppraiser} {evidence : TpmEvidence}
    {qualifyingData : Bytes} {policy : TpmPolicy}
    (ha : appraiser.Accepted evidence qualifyingData policy h) (hs : h ⊆ h') :
    appraiser.Accepted evidence qualifyingData policy h' := by
  cases appraiser with
  | released =>
    obtain ⟨hselection, time, hquote⟩ := ha
    exact ⟨hs hselection, time, hs hquote⟩
  | test acceptedEvidence => exact ha
  | other => exact hs ha

/-- Loading certificates asks only queries. -/
theorem loadCertificates_sat {pem : Bytes} {label : String} (hG : ∀ h e, e.isQuery = true → G h e)
    (hq : Quiet h) :
    Body.Sat A G (fun h' _ _ ↦ Quiet h') (loadCertificates pem label) h l := by
  unfold loadCertificates callLibExcept
  apply Body.Sat.raiseIf
  · intro _
    exact hq
  intro _
  apply Body.Sat.invoke (hG _ _ rfl)
  · intro r x _ _
    exact hq.snoc rfl
  intro r certificates _ _
  apply Body.Sat.raiseIf
  · intro _
    exact hq.snoc rfl
  intro _
  exact hq.snoc rfl

/-- The certificate guard asks only queries. -/
theorem evaluateChain_sat {evidence : TpmEvidence} {policy : TpmPolicy}
    (hG : ∀ h e, e.isQuery = true → G h e) (hq : Quiet h) :
    Body.Sat A G (fun h' _ _ ↦ Quiet h') (evaluateChain evidence policy) h () := by
  unfold evaluateChain enforceSyntheticAkCertificatePolicy callLib
  apply Body.Sat.invoke (hG _ _ rfl)
  · intro r x _ _
    exact hq.snoc rfl
  intro r evaluationTime _ _
  have hq₁ : Quiet (h ++ [⟨.lib .evaluationTime, r⟩]) := hq.snoc rfl
  apply Body.Sat.ofExcept
  · intro x _
    exact hq₁
  intro now _
  apply Body.Sat.bind (loadCertificates_sat hG hq₁)
  · intro h₂ e l₂ _ hq₂
    exact hq₂
  intro h₂ chain l₂ _ hq₂
  apply Body.Sat.bind (loadCertificates_sat hG hq₂)
  · intro h₃ e l₃ _ hq₃
    exact hq₃
  intro h₃ roots l₃ _ hq₃
  apply Body.Sat.ofExcept
  · intro x _
    exact hq₃
  intro u _
  exact hq₃

/-- `TpmAppraiser.appraise` asks only queries, and returns after acceptance. -/
theorem TpmAppraiser.appraise_sat {appraiser : TpmAppraiser} {evidence : TpmEvidence}
    {qualifyingData : Bytes} {policy : TpmPolicy} (hG : ∀ h e, e.isQuery = true → G h e)
    (hq : Quiet h) :
    Body.Sat A G (fun h' r l' ↦ Quiet h' ∧ l' = l ∧
      (r = .ok () → appraiser.Accepted evidence qualifyingData policy h'))
      (appraiser.appraise evidence qualifyingData policy) h l := by
  cases appraiser with
  | test acceptedEvidence =>
    unfold TpmAppraiser.appraise Body.raiseIf
    rw [Body.sat_ofExcept]
    refine ⟨hq, rfl, fun hr ↦ ?_⟩
    rw [raiseIf_eq_ok, not_not] at hr
    exact hr
  | other =>
    unfold TpmAppraiser.appraise callLib
    rw [Body.sat_invoke]
    refine ⟨hG _ _ rfl, fun r _ ↦ ⟨hq.snoc rfl, rfl, fun hr ↦ ?_⟩⟩
    rw [id_eq] at hr
    subst hr
    exact List.mem_append_right _ (List.mem_singleton_self _)
  | released =>
    unfold TpmAppraiser.appraise appraiseReleased callLibExcept
    apply Body.Sat.invoke (hG _ _ rfl)
    · intro r x _ _
      exact ⟨hq.snoc rfl, rfl, nofun⟩
    intro r selection _ hr
    obtain rfl := mapError_eq_ok.mp hr
    have hq₁ : Quiet (h ++ [⟨.lib (.readPcrSelection evidence.attest), .ok selection⟩]) :=
      hq.snoc rfl
    apply Body.Sat.raiseIf
    · intro _
      exact ⟨hq₁, rfl, nofun⟩
    intro hselection
    obtain rfl := not_not.mp hselection
    apply Body.Sat.attempt (evaluateChain_sat hG hq₁)
    intro h₂ outcome _ hsub hq₂
    apply Body.Sat.ofExcept
    · intro x _
      exact ⟨hq₂, rfl, nofun⟩
    intro time _
    apply Body.Sat.invoke (hG _ _ rfl)
    · intro r x _ _
      exact ⟨hq₂.snoc rfl, rfl, nofun⟩
    intro r verified _ hr'
    obtain rfl := mapError_eq_ok.mp hr'
    unfold Body.raiseIf
    rw [Body.sat_ofExcept]
    refine ⟨hq₂.snoc rfl, rfl, fun hok ↦ ⟨?_, time, ?_⟩⟩
    · exact List.mem_append_left _ (hsub.subset (by simp))
    · have hv : isTrue verified = true := by simpa using hok
      have hb : verified = .bool true := by
        unfold isTrue at hv
        split at hv
        · rw [hv]
        · cases hv
      rw [hb]
      simp

/-! ### Issuance -/

namespace CapabilityBroker

variable (lib) (broker : CapabilityBroker) (raw : RawIssuanceRequest) (manifest : Value)
  (rawEvidence : RawTpmEvidence)

/-- The typed values of a submission and the hash of its challenge. -/
structure Submission where
  request : IssuanceRequest
  evidence : TpmEvidence
  tokenHash : Text

variable {raw rawEvidence} in
/-- The values are those of the submitted objects. -/
structure Submission.Typed (s : Submission) (raw : RawIssuanceRequest)
    (rawEvidence : RawTpmEvidence) : Prop where
  request : validateIssuanceRequestRuntime raw = .ok s.request
  evidence : validateTpmEvidenceRuntime rawEvidence = .ok s.evidence
  hashed : challengeTokenHash s.request.challenge = .ok s.tokenHash

/-- The submitted objects determine the submission. -/
theorem Submission.Typed.unique {s s' : Submission} {raw : RawIssuanceRequest}
    {rawEvidence : RawTpmEvidence} (hs : s.Typed raw rawEvidence) (hs' : s'.Typed raw rawEvidence) :
    s = s' := by
  obtain ⟨hrequest, hevidence, hhash⟩ := hs
  obtain ⟨hrequest', hevidence', hhash'⟩ := hs'
  rw [hrequest, Except.ok.injEq] at hrequest'
  rw [hevidence, Except.ok.injEq] at hevidence'
  rw [hrequest'] at hhash
  rw [hhash, Except.ok.injEq] at hhash'
  cases s
  cases s'
  congr

/-- Every appraisal has been answered, in this call's own history. -/
structure Submission.Appraised (s : Submission) (h : History) : Prop where
  challenge : ∃ now, ⟨.clock, .ok now⟩ ∈ h ∧
    ⟨.lib (.verifyChallenge broker.challengeSecret s.request.challenge now), .ok ()⟩ ∈ h
  manifest : ManifestVerified manifest broker.policy.manifest h
  identity : IdentityEndorsed lib s.request broker.policy h
  tpm : ∃ qualifyingData, issuanceQualifyingData lib s.request = .ok qualifyingData ∧
    broker.tpmAppraiser.Accepted s.evidence qualifyingData broker.policy.tpm h

/-- The credential of a submission was minted, signed and put into the decision. -/
def Submission.Minted (s : Submission) (d : Decision) (h : History) : Prop :=
  ∃ now credentialId credential body, ⟨.clock, .ok now⟩ ∈ h ∧ ⟨.tokenHex 32, credentialId⟩ ∈ h ∧
    ⟨.lib (.credentialSign (broker.unsignedCredential s.request credentialId now)
      broker.issuerPrivateKey), .ok credential⟩ ∈ h ∧
    ⟨.lib (.credentialBody credential), .ok body⟩ ∈ h ∧
    d.result = some (.dict [(text "credential",
      .dict (Value.setMember body (text "signature") (.str credential.signature)))])

/-- The history of a call that returns a credential: appraisal, consumption, minting. -/
def Submission.Granted (s : Submission) (d : Decision) (h : History) : Prop :=
  ∃ h₀ h₁, h = h₀ ++ ⟨.consumeBrokerChallenge s.tokenHash, .ok ()⟩ :: h₁ ∧ Quiet h₀ ∧
    s.Appraised lib broker manifest h₀ ∧ s.Minted broker d h₁

/-- What `issue` guarantees for each operation it issues after a history. -/
def issueGuarantee (h : History) : Op → Prop
  | .consumeBrokerChallenge tokenHash => ∃ s : Submission, s.tokenHash = tokenHash ∧
      s.Typed raw rawEvidence ∧ Quiet h ∧ s.Appraised lib broker manifest h
  | .sign signer payload => signer = broker.receiptSigner ∧ payload.decidingService = .broker
  | e => e.isQuery = true

variable {lib broker raw manifest rawEvidence}

/-- `issue` guarantees nothing of its queries. -/
theorem issueGuarantee_query (h : History) {e : Op} (he : e.isQuery = true) :
    issueGuarantee lib broker raw manifest rawEvidence h e := by
  cases e with
  | clock | tokenHex | lib | getResourceChallenge | invocationCount => exact he
  | sign | storeBrokerChallenge | consumeBrokerChallenge | storeResourceChallenge | spend
  | recordInvocation | inventoryLookup => cases he

/-- `bindInputs` issues nothing and returns the typed submission. -/
theorem bindInputs_sat {l : IssueLocals} :
    Body.Sat A G (fun h' r _ ↦ h' = h ∧ ∀ request evidence tokenHash,
      r = .ok (request, evidence, tokenHash) →
        Submission.Typed ⟨request, evidence, tokenHash⟩ raw rawEvidence)
      (broker.bindInputs lib raw rawEvidence) h l := by
  unfold bindInputs
  apply Body.Sat.ofExcept
  · intro x _
    exact ⟨rfl, nofun⟩
  intro policyDict _
  apply Body.Sat.ofExcept
  · intro x _
    exact ⟨rfl, nofun⟩
  intro policyDigest _
  apply Body.Sat.assign
  apply Body.Sat.ofExcept
  · intro x _
    exact ⟨rfl, nofun⟩
  intro request hrequest
  apply Body.Sat.assign
  apply Body.Sat.ofExcept
  · intro x _
    exact ⟨rfl, nofun⟩
  intro tokenHash hhash
  apply Body.Sat.assign
  apply Body.Sat.ofExcept
  · intro x _
    exact ⟨rfl, nofun⟩
  intro evidence hevidence
  apply Body.Sat.assign
  apply Body.Sat.ofExcept
  · intro x _
    exact ⟨rfl, nofun⟩
  intro requestDigest _
  apply Body.Sat.assign
  refine ⟨rfl, ?_⟩
  rintro request' evidence' tokenHash' ⟨⟩
  exact ⟨hrequest, hevidence, hhash⟩

/-- `appraiseRequest` asks only queries, and returns after every appraisal. -/
theorem appraiseRequest_sat {s : Submission} {l : IssueLocals}
    (hG : ∀ h e, e.isQuery = true → G h e) (hq : Quiet h) :
    Body.Sat A G (fun h' r l' ↦ Quiet h' ∧ l' = l ∧
      (r = .ok () → s.Appraised lib broker manifest h'))
      (broker.appraiseRequest lib s.request manifest s.evidence) h l := by
  unfold appraiseRequest callLibExcept
  apply Body.Sat.invoke (hG _ _ rfl)
  · intro r x _ _
    exact ⟨hq.snoc rfl, rfl, nofun⟩
  intro r now _ hclock
  obtain rfl := mapError_eq_ok.mp hclock
  apply Body.Sat.invoke (hG _ _ rfl)
  · intro r x _ _
    exact ⟨(hq.snoc rfl).snoc rfl, rfl, nofun⟩
  intro r u _ hchallenge
  obtain rfl := mapError_eq_ok.mp hchallenge
  have hq₁ : Quiet (h ++ [⟨.clock, .ok now⟩] ++ [⟨.lib (.verifyChallenge broker.challengeSecret
    s.request.challenge now), .ok ()⟩]) := (hq.snoc rfl).snoc rfl
  apply Body.Sat.bind (verifySignedManifest_sat hG hq₁)
  · intro h₂ e l₂ _ hpost
    exact ⟨hpost.1, hpost.2.1, nofun⟩
  intro h₂ normalized l₂ hsub₂ hpost₂
  obtain rfl := hpost₂.2.1
  apply Body.Sat.bind (verifyIdentityEndorsement_sat hG hpost₂.1)
  · intro h₃ e l₃ _ hpost
    exact ⟨hpost.1, hpost.2.1, nofun⟩
  rintro h₃ ⟨⟩ l₃ hsub₃ hpost₃
  obtain rfl := hpost₃.2.1
  apply Body.Sat.ofExcept
  · intro x _
    exact ⟨hpost₃.1, rfl, nofun⟩
  intro qualifyingData hqd
  apply (Prog.Sat.extend (TpmAppraiser.appraise_sat hG hpost₃.1)).mono
  rintro h₄ ⟨r, l₄⟩ ⟨hsub₄, hpost₄⟩
  refine ⟨hpost₄.1, hpost₄.2.1, fun hr ↦ ⟨⟨now, ?_, ?_⟩, ?_, ?_, qualifyingData, hqd,
    hpost₄.2.2 hr⟩⟩
  · exact (hsub₂.trans (hsub₃.trans hsub₄)).subset (by simp)
  · exact (hsub₂.trans (hsub₃.trans hsub₄)).subset (by simp)
  · exact (hpost₂.2.2 normalized rfl).mono (hsub₃.trans hsub₄).subset
  · exact (hpost₃.2.2 rfl).mono hsub₄.subset

/-- `_receipt` signs for the broker. -/
theorem receipt_sat {L : Type} {l : L} {decision : Verdict} {reason : Reason}
    {credentialId challengeHash manifestDigest : Option Text} {artifactHashes : ArtifactHashes} :
    Body.Sat A (issueGuarantee lib broker raw manifest rawEvidence) (fun _ _ _ ↦ True)
      (broker.receipt decision reason credentialId challengeHash manifestDigest artifactHashes)
      h l := by
  unfold receipt readClock
  apply Body.Sat.perform (issueGuarantee_query _ rfl)
  intro receiptId _
  apply Body.Sat.invoke (issueGuarantee_query _ rfl)
  · intro r x _ _
    trivial
  intro r decidedAt _ _
  apply Body.Sat.ofExcept
  · intro x _
    trivial
  intro payload hpayload
  rw [Body.sat_invoke]
  refine ⟨⟨rfl, ?_⟩, fun _ _ ↦ trivial⟩
  rw [DecisionReceiptPayload.construct_eq_ok hpayload]

/-- `mint` returns the credential it signed. -/
theorem mint_sat {s : Submission} {locals l : IssueLocals} (h₀ : History) (hh : h₀ <+: h) :
    Body.Sat A (issueGuarantee lib broker raw manifest rawEvidence)
      (fun h' r _ ↦ ∀ d, r = .ok d → ∃ h₁, h' = h₀ ++ h₁ ∧ s.Minted broker d h₁)
      (broker.mint s.request s.tokenHash locals) h l := by
  obtain ⟨q, rfl⟩ := hh
  unfold mint credentialToDict readClock callLib
  apply Body.Sat.invoke (issueGuarantee_query _ rfl)
  · intro r x _ _
    exact nofun
  rintro r now _ rfl
  apply Body.Sat.perform (issueGuarantee_query _ rfl)
  intro credentialId _
  apply Body.Sat.invoke (issueGuarantee_query _ rfl)
  · intro r x _ _
    exact nofun
  rintro r credential _ rfl
  apply Body.Sat.bind receipt_sat
  · intro _ _ _ _ _
    exact nofun
  rintro h₂ receipt l₂ ⟨q₂, rfl⟩ _
  rw [Body.sat_bind]
  apply Body.Sat.invoke (issueGuarantee_query _ rfl)
  · intro r x _ _
    exact nofun
  rintro r body _ rfl
  rintro d ⟨⟩
  refine ⟨q ++ [⟨.clock, .ok now⟩] ++ [⟨.tokenHex 32, credentialId⟩] ++
    [⟨.lib (.credentialSign (broker.unsignedCredential s.request credentialId now)
      broker.issuerPrivateKey), .ok credential⟩] ++ q₂ ++
    [⟨.lib (.credentialBody credential), .ok body⟩], by simp, ?_⟩
  exact ⟨now, credentialId, credential, body, by simp, by simp, by simp, by simp, rfl⟩

/-- The `try` block of `issue` returns a decision only after the whole grant. -/
theorem grant_sat {l : IssueLocals} (hq : Quiet h) :
    Body.Sat A (issueGuarantee lib broker raw manifest rawEvidence)
      (fun h' r _ ↦ ∀ d, r = .ok d → ∃ s : Submission, s.Typed raw rawEvidence ∧
        s.Granted lib broker manifest d h')
      (broker.grant lib raw manifest rawEvidence) h l := by
  have hG : ∀ h e, e.isQuery = true → issueGuarantee lib broker raw manifest rawEvidence h e :=
    fun h e ↦ issueGuarantee_query h
  unfold grant
  apply Body.Sat.bind bindInputs_sat
  · intro h₁ e l₁ _ _
    exact nofun
  rintro h₁ ⟨request, evidence, tokenHash⟩ l₁ _ ⟨rfl, htyped⟩
  let s : Submission := ⟨request, evidence, tokenHash⟩
  have hs : s.Typed raw rawEvidence := htyped request evidence tokenHash rfl
  apply Body.Sat.bind (appraiseRequest_sat (s := s) hG hq)
  · intro h₂ e l₂ _ _
    exact nofun
  rintro h₂ ⟨⟩ l₂ _ ⟨hq₂, _, happraised⟩
  apply Body.Sat.invoke ⟨s, rfl, hs, hq₂, happraised rfl⟩
  · intro r x _ _
    exact nofun
  rintro r ⟨⟩ _ rfl
  apply Body.Sat.locals
  apply (mint_sat (s := s) _ List.prefix_rfl).mono
  intro h₄ r l₄ hpost d hd
  obtain ⟨h₅, rfl, hminted⟩ := hpost d hd
  refine ⟨s, hs, h₂, h₅, ?_, hq₂, happraised rfl, hminted⟩
  rw [List.append_assoc]
  rfl

/-- Every operation of `issue` satisfies its guarantee, and an allow comes with a grant. -/
theorem issue_sat :
    Body.Sat A (issueGuarantee lib broker raw manifest rawEvidence)
      (fun h' r _ ↦ ∀ d, r = .ok d → d.allowed = true → ∃ s : Submission,
        s.Typed raw rawEvidence ∧ s.Granted lib broker manifest d h')
      (broker.issue lib raw manifest rawEvidence) [] () := by
  unfold issue
  apply Body.Sat.attempt (grant_sat quiet_nil)
  intro h' outcome locals _ hpost
  cases outcome with
  | ok decision =>
    rintro d ⟨⟩ _
    exact hpost decision rfl
  | error e =>
    apply Body.Sat.bind receipt_sat
    · intro _ _ _ _ _
      exact nofun
    rintro h₂ receipt l₂ _ _ d ⟨⟩ hallowed
    cases hallowed

/-! ### New challenges -/

variable (broker) in
/-- What `new_challenge` guarantees for each operation it issues after a history. -/
def newChallengeGuarantee (h : History) : Op → Prop
  | .storeBrokerChallenge tokenHash issuedAt expiresAt => ∃ token,
      challengeTokenHash token = .ok tokenHash ∧ ⟨.clock, .ok issuedAt⟩ ∈ h ∧
      TokenIssued broker.challengeSecret issuedAt broker.policy.challengeTtlSeconds token
        expiresAt h ∧ Quiet h
  | e => e.isQuery = true

/-- Every operation of `new_challenge` satisfies its guarantee, and it returns the token whose
hash it stored. -/
theorem newChallenge_sat :
    Body.Sat A (newChallengeGuarantee broker) (fun h' r _ ↦ ∀ token, r = .ok token →
      ∃ tokenHash issuedAt expiresAt, challengeTokenHash token = .ok tokenHash ∧
        ⟨.storeBrokerChallenge tokenHash issuedAt expiresAt, .ok ()⟩ ∈ h')
      broker.newChallenge [] () := by
  have hG : ∀ h e, e.isQuery = true → newChallengeGuarantee broker h e := by
    intro h e he
    cases e with
    | clock | tokenHex | lib | getResourceChallenge | invocationCount => exact he
    | sign | storeBrokerChallenge | consumeBrokerChallenge | storeResourceChallenge | spend
    | recordInvocation | inventoryLookup => cases he
  unfold newChallenge readClock
  apply Body.Sat.invoke (hG _ _ rfl)
  · intro r x _ _
    exact nofun
  rintro r issuedAt _ rfl
  have hq : Quiet ([] ++ [⟨.clock, .ok issuedAt⟩]) := quiet_nil.snoc rfl
  apply Body.Sat.bind (issueCa2aChallengeAt_sat hG hq)
  · intro _ _ _ _ _
    exact nofun
  rintro h₁ ⟨token, expiry⟩ l₁ hsub ⟨hq₁, _, hissued⟩
  apply Body.Sat.ofExcept
  · intro x _
    exact nofun
  intro tokenHash hhash
  apply Body.Sat.invoke ⟨token, hhash, hsub.subset (by simp), hissued token expiry rfl, hq₁⟩
  · intro r x _ _
    exact nofun
  rintro r u _ rfl token' ⟨⟩
  exact ⟨tokenHash, issuedAt, expiry, hhash, by simp⟩

end CapabilityBroker
end Atcap
