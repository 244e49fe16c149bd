import Atcap.Broker

/-!
# The operations of a broker

Which operations `new_challenge` and `issue` can issue, whatever they are answered.
-/

namespace Atcap

open Base

variable {L : Type} {P : Op → Prop}


/-- `issue_ca2a_challenge_at` draws randomness and asks the released verifier. -/
theorem issues_issueCa2aChallengeAt (htoken : ∀ n, P (.tokenHex n)) (hlib : ∀ c, P (.lib c))
    (secret : Bytes) (now ttl : Int) :
    Body.Issues P (issueCa2aChallengeAt secret now ttl : Py L (Text × Int)) := by
  unfold issueCa2aChallengeAt callLib
  apply Body.Issues.bind (.raiseIf _ _)
  intro _
  apply Body.Issues.bind (.raiseIf _ _)
  intro _
  refine Body.Issues.bind (.perform (htoken 16)) fun randomHex ↦ ?_
  apply Body.Issues.bind (.raiseIf _ _)
  intro _
  exact Body.Issues.bind (.invoke (hlib _) _) fun _ ↦ .pure _

/-- `verify_signed_manifest` only calls the libraries. -/
theorem issues_verifySignedManifest (hlib : ∀ c, P (.lib c)) (manifest : Value)
    (policy : ManifestPolicy) :
    Body.Issues P (verifySignedManifest manifest policy : Py L Value) := by
  unfold verifySignedManifest normalizeSignedManifest callLib
  apply Body.Issues.bind (issues_callLibExcept (hlib _) _)
  intro normalized
  apply Body.Issues.bind (.raiseIf _ _)
  intro _
  apply Body.Issues.bind (.invoke (hlib _) _)
  intro digest
  apply Body.Issues.bind (.raiseIf _ _)
  intro _
  apply Body.Issues.bind (.invoke (hlib _) _)
  intro result
  exact Body.Issues.bind (.raiseIf _ _) fun _ ↦ .pure _

/-- `verify_identity_endorsement` only calls the libraries. -/
theorem issues_verifyIdentityEndorsement (hlib : ∀ c, P (.lib c)) (lib : Libraries)
    (request : IssuanceRequest) (policy : BrokerPolicy) :
    Body.Issues P (verifyIdentityEndorsement lib request policy : Py L Unit) := by
  unfold verifyIdentityEndorsement
  apply Body.Issues.bind (.ofExcept _)
  intro _
  apply Body.Issues.bind (.ofExcept _)
  intro holderKey
  apply Body.Issues.bind (issues_callLibExcept (hlib _) _)
  intro _
  apply Body.Issues.bind (.raiseIf _ _)
  intro _
  apply Body.Issues.bind (.ofExcept _)
  intro identityKey
  apply Body.Issues.bind (issues_callLibExcept (hlib _) _)
  intro _
  apply Body.Issues.bind (.ofExcept _)
  intro signature
  apply Body.Issues.bind (.ofExcept _)
  intro message
  exact issues_callLibExcept (hlib _) _

/-- The certificate guard only parses certificates. -/
theorem issues_loadCertificates (hload : ∀ pem, P (.lib (.loadPemX509Certificates pem)))
    (pem : Bytes) (label : String) :
    Body.Issues P (loadCertificates pem label : Py L (List Certificate)) := by
  unfold loadCertificates
  apply Body.Issues.bind (.raiseIf _ _)
  intro _
  apply Body.Issues.bind (issues_callLibExcept (hload _) _)
  intro certificates
  exact Body.Issues.bind (.raiseIf _ _) fun _ ↦ .pure _

/-- Both policy layers of a chain read the evaluation time and the certificates. -/
theorem issues_evaluateChain (htime : P (.lib .evaluationTime))
    (hload : ∀ pem, P (.lib (.loadPemX509Certificates pem))) (evidence : TpmEvidence)
    (policy : TpmPolicy) : Body.Issues P (evaluateChain evidence policy) := by
  unfold evaluateChain enforceSyntheticAkCertificatePolicy callLib
  apply Body.Issues.bind (.invoke htime _)
  intro evaluationTime
  apply Body.Issues.bind (.ofExcept _)
  intro now
  apply Body.Issues.bind (issues_loadCertificates hload _ _)
  intro chain
  apply Body.Issues.bind (issues_loadCertificates hload _ _)
  intro roots
  exact Body.Issues.bind (.ofExcept _) fun _ ↦ .pure _

/-- Every appraiser only calls the libraries. -/
theorem issues_appraise (hlib : ∀ c, P (.lib c)) (appraiser : TpmAppraiser)
    (evidence : TpmEvidence) (expectedQualifyingData : Bytes) (policy : TpmPolicy) :
    Body.Issues P (appraiser.appraise evidence expectedQualifyingData policy : Py L Unit) := by
  cases appraiser with
  | test acceptedEvidence => exact .raiseIf _ _
  | other => exact .invoke (hlib _) _
  | released =>
    change Body.Issues P (appraiseReleased evidence expectedQualifyingData policy)
    unfold appraiseReleased
    apply Body.Issues.bind (issues_callLibExcept (hlib _) _)
    intro selection
    apply Body.Issues.bind (.raiseIf _ _)
    intro _
    apply Body.Issues.bind
    · exact Body.Issues.attempt () (issues_evaluateChain (hlib _) (fun _ ↦ hlib _) evidence policy)
    intro outcome
    apply Body.Issues.bind (.ofExcept _)
    intro evaluationTime
    apply Body.Issues.bind (issues_callLibExcept (hlib _) _)
    intro verified
    exact .raiseIf _ _

/-- A receipt of a broker draws an id, reads the clock and signs. -/
theorem issues_brokerReceipt (hclock : P .clock) (htoken : ∀ n, P (.tokenHex n))
    (hsign : ∀ signer payload, P (.sign signer payload)) (broker : CapabilityBroker)
    (decision : Verdict) (reason : Reason)
    (credentialId challengeHash manifestDigest : Option Text) (artifactHashes : ArtifactHashes) :
    Body.Issues P (broker.receipt decision reason credentialId challengeHash manifestDigest
      artifactHashes : Py L SignedDecisionReceipt) := by
  unfold CapabilityBroker.receipt
  apply Body.Issues.bind (.perform (htoken 16))
  intro receiptId
  apply Body.Issues.bind (issues_readClock hclock)
  intro decidedAt
  apply Body.Issues.bind (.ofExcept _)
  intro payload
  exact .invoke (hsign _ _) _

/-- The operations of `new_challenge`. -/
theorem issues_newChallenge (hclock : P .clock) (htoken : ∀ n, P (.tokenHex n))
    (hlib : ∀ c, P (.lib c)) (hstore : ∀ k i e, P (.storeBrokerChallenge k i e))
    (broker : CapabilityBroker) : Body.Issues P broker.newChallenge := by
  unfold CapabilityBroker.newChallenge
  apply Body.Issues.bind (issues_readClock hclock)
  intro issuedAt
  apply Body.Issues.bind (issues_issueCa2aChallengeAt htoken hlib _ _ _)
  intro issued
  apply Body.Issues.bind (.ofExcept _)
  intro tokenHash
  exact Body.Issues.bind (.invoke (hstore _ _ _) _) fun _ ↦ .pure _

/-- Validating the inputs issues nothing. -/
theorem issues_bindInputs (lib : Libraries) (broker : CapabilityBroker)
    (request : RawIssuanceRequest) (tpmEvidence : RawTpmEvidence) :
    Body.Issues P (broker.bindInputs lib request tpmEvidence) := by
  unfold CapabilityBroker.bindInputs
  apply Body.Issues.bind (.ofExcept _)
  intro policyDict
  apply Body.Issues.bind (.ofExcept _)
  intro policyDigest
  apply Body.Issues.bind (.assign _)
  intro _
  apply Body.Issues.bind (.ofExcept _)
  intro request
  apply Body.Issues.bind (.assign _)
  intro _
  apply Body.Issues.bind (.ofExcept _)
  intro tokenHash
  apply Body.Issues.bind (.assign _)
  intro _
  apply Body.Issues.bind (.ofExcept _)
  intro evidence
  apply Body.Issues.bind (.assign _)
  intro _
  apply Body.Issues.bind (.ofExcept _)
  intro requestDigest
  exact Body.Issues.bind (.assign _) fun _ ↦ .pure _

/-- The appraisal reads the clock and calls the libraries. -/
theorem issues_appraiseRequest (hclock : P .clock) (hlib : ∀ c, P (.lib c)) (lib : Libraries)
    (broker : CapabilityBroker) (request : IssuanceRequest) (manifest : Value)
    (evidence : TpmEvidence) :
    Body.Issues P (broker.appraiseRequest lib request manifest evidence) := by
  unfold CapabilityBroker.appraiseRequest
  apply Body.Issues.bind (.invoke hclock _)
  intro now
  apply Body.Issues.bind (issues_callLibExcept (hlib _) _)
  intro _
  apply Body.Issues.bind (issues_verifySignedManifest hlib _ _)
  intro _
  apply Body.Issues.bind (issues_verifyIdentityEndorsement hlib _ _ _)
  intro _
  apply Body.Issues.bind (.ofExcept _)
  intro qualifyingData
  exact issues_appraise hlib _ _ _ _

/-- Minting reads the clock, draws an id, calls the libraries and signs. -/
theorem issues_mint (hclock : P .clock) (htoken : ∀ n, P (.tokenHex n)) (hlib : ∀ c, P (.lib c))
    (hsign : ∀ signer payload, P (.sign signer payload)) (broker : CapabilityBroker)
    (request : IssuanceRequest) (tokenHash : Text) (locals : CapabilityBroker.IssueLocals) :
    Body.Issues P (broker.mint request tokenHash locals) := by
  unfold CapabilityBroker.mint CapabilityBroker.credentialToDict callLib
  apply Body.Issues.bind (issues_readClock hclock)
  intro now
  apply Body.Issues.bind (.perform (htoken 32))
  intro credentialId
  apply Body.Issues.bind (.invoke (hlib _) _)
  intro credential
  apply Body.Issues.bind (issues_brokerReceipt hclock htoken hsign _ _ _ _ _ _ _)
  intro receipt
  apply Body.Issues.bind
  · exact Body.Issues.bind (.invoke (hlib _) _) fun _ ↦ .pure _
  · intro dict
    exact .pure _

/-- The operations of `issue`. -/
theorem issues_issue (hclock : P .clock) (htoken : ∀ n, P (.tokenHex n)) (hlib : ∀ c, P (.lib c))
    (hsign : ∀ signer payload, P (.sign signer payload))
    (hconsume : ∀ k, P (.consumeBrokerChallenge k)) (lib : Libraries) (broker : CapabilityBroker)
    (request : RawIssuanceRequest) (manifest : Value) (tpmEvidence : RawTpmEvidence) :
    Body.Issues P (broker.issue lib request manifest tpmEvidence) := by
  unfold CapabilityBroker.issue
  apply Body.Issues.bind
  · apply Body.Issues.attempt
    unfold CapabilityBroker.grant
    apply Body.Issues.bind (issues_bindInputs _ _ _ _)
    rintro ⟨request, evidence, tokenHash⟩
    apply Body.Issues.bind (issues_appraiseRequest hclock hlib _ _ _ _ _)
    intro _
    apply Body.Issues.bind (.invoke (hconsume _) _)
    intro _
    apply Body.Issues.bind Body.Issues.locals
    intro locals
    exact issues_mint hclock htoken hlib hsign _ _ _ _
  rintro ⟨outcome, locals⟩
  cases outcome with
  | ok decision => exact .pure _
  | error e =>
    apply Body.Issues.bind (issues_brokerReceipt hclock htoken hsign _ _ _ _ _ _ _)
    intro receipt
    exact .pure _

end Atcap
