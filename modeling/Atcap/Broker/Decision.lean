import Atcap.Broker.Outcome
import Atcap.Inventory.Decision
import Atcap.Tpm.Appraisal

/-!
# The decision of an issuance

The reference for `issue`: what the released packages answer, the database and one clock value
decide whether a credential is issued. A call that nothing disturbs allows exactly the requests
that the reference allows.
-/

namespace Atcap

open Base

/-! ### The reference -/

section Reference

variable (lib : Libraries) (o : Occasion)

/-- The manifest is the one of the policy, and it verifies. -/
def ManifestPolicy.Accepts (policy : ManifestPolicy) (manifest : Value) : Prop :=
  ∃ normalized result, o.answer (.manifestNormalize manifest) = .ok normalized ∧
    issuedBy normalized policy.issuer = true ∧
    o.answer (.manifestCanonicalHash normalized) = .ok policy.expectedDigest ∧
    o.answer (.verifyManifest normalized policy.verificationContext) = .ok result ∧
    result.valid = true ∧ result.signatureVerified = true

/-- The request names what the policy names. -/
structure BrokerPolicy.Binds (policy : BrokerPolicy) (request : IssuanceRequest) : Prop where
  version : request.version = issuanceVersion
  identityKey : request.identityKey = policy.manifest.identityPublicHex
  manifestDigest : request.manifestDigest = policy.manifest.expectedDigest
  brokerId : request.brokerId = policy.brokerId
  requestedScope : request.requestedScope = policy.qualifiedScope
  resourceIssuerKid : request.resourceIssuerKid = policy.resourceIssuerKid
  resourceIssuerKey : request.resourceIssuerKey = policy.resourceIssuerPublicHex
  holderKey : request.holderKey.isLowerHexOf 64 = true

/-- The holder key is a valid Ed25519 key. -/
def HolderKeyValid (request : IssuanceRequest) : Prop :=
  ∃ key, bytesFromHex request.holderKey = .ok key ∧ o.answer (.ed25519PublicKey key) = .ok ()

/-- The identity of the policy signed the request. -/
def Endorsed (policy : BrokerPolicy) (request : IssuanceRequest) : Prop :=
  request.identitySignature ≠ [] ∧ ∃ key signature message,
    bytesFromHex policy.manifest.identityPublicHex = .ok key ∧
    o.answer (.ed25519PublicKey key) = .ok () ∧
    bytesFromHex request.identitySignature = .ok signature ∧
    request.signingBytes lib = .ok message ∧
    o.answer (.ed25519Verify key signature message) = .ok ()

/-- The appraiser accepts evidence for qualifying data. -/
def TpmAppraiser.Accepts (appraiser : TpmAppraiser) (evidence : TpmEvidence)
    (qualifyingData : Bytes) (policy : TpmPolicy) : Prop :=
  match appraiser with
  | .released => ∃ t, AppraisalAccepts o.answer evidence qualifyingData policy t
  | .test acceptedEvidence => evidence = acceptedEvidence
  | .other => o.answer (.appraise evidence qualifyingData policy) = .ok ()

namespace CapabilityBroker

variable (broker : CapabilityBroker)

/-- The appraisal of a request accepts it. -/
structure Appraises (request : IssuanceRequest) (manifest : Value) (evidence : TpmEvidence) :
    Prop where
  challenge : o.answer (.verifyChallenge broker.challengeSecret request.challenge o.now) = .ok ()
  manifest : broker.policy.manifest.Accepts o manifest
  bound : broker.policy.Binds request
  holder : HolderKeyValid o request
  endorsed : Endorsed lib o broker.policy request
  quote : ∃ qualifyingData, issuanceQualifyingData lib request = .ok qualifyingData ∧
    broker.tpmAppraiser.Accepts o evidence qualifyingData broker.policy.tpm

/-- The reference decision: the inputs have their runtime types, the appraisal accepts them, and
the challenge is stored, not consumed and not expired. -/
def Allows (raw : RawIssuanceRequest) (manifest : Value) (rawEvidence : RawTpmEvidence) : Prop :=
  ∃ request evidence, validateIssuanceRequestRuntime raw = .ok request ∧
    validateTpmEvidenceRuntime rawEvidence = .ok evidence ∧
    broker.Appraises lib o request manifest evidence ∧
    ∃ row, BrokerConsumable o.store (sha256Hex (utf8 request.challenge)) row o.now

end CapabilityBroker
end Reference

/-! ### The appraisal -/

/-- The replies of an issuance are those of an occasion. -/
structure Occasion.Answers (o : Occasion) (A : History → Event Op Op.Reply → Prop) : Prop where
  clock : ∀ h r, A h ⟨.clock, r⟩ → r = .ok o.now
  lib : ∀ h c r, A h ⟨.lib c, r⟩ → r = o.answer c
  consume : ∀ h tokenHash r, Quiet h → A h ⟨.consumeBrokerChallenge tokenHash, r⟩ →
    r = (Store.consumeBrokerChallenge tokenHash (.ok o.now) Faults.none o.store).1

section Appraisal

variable {lib : Libraries} {o : Occasion} {A : History → Event Op Op.Reply → Prop} {L : Type}
  {l : L} {h : History}

/-- A body that nothing disturbs returns exactly when `P` holds. -/
def ReturnsIff (A : History → Event Op Op.Reply → Prop) (P : Prop) {α : Type} (x : Py L α)
    (h : History) (l : L) : Prop :=
  Body.Sat A (fun _ _ ↦ True) (fun _ r _ ↦ (∃ a, r = .ok a) ↔ P) x h l

variable {α β : Type} {P Q : Prop}

/-- Equivalent conditions decide the same. -/
theorem ReturnsIff.congr {x : Py L α} (hx : ReturnsIff A P x h l) (hpq : P ↔ Q) :
    ReturnsIff A Q x h l := by
  rw [← hpq]
  exact hx

/-- A pure result is returned. -/
theorem returnsIff_pure {a : α} : ReturnsIff A True (pure a : Py L α) h l :=
  ⟨fun _ ↦ trivial, fun _ ↦ ⟨a, rfl⟩⟩

private theorem returns_error {e : Exn} (hp : ¬P) : (∃ a : α, Except.error e = .ok a) ↔ P := by
  refine ⟨?_, fun h ↦ absurd h hp⟩
  rintro ⟨a, ha⟩
  cases ha

/-- An operation goes on with the value of its reply. -/
theorem returnsIff_invoke {e : Op} {f : e.Reply → Except Exn α} {g : α → Py L β} {P : α → Prop}
    {reply : e.Reply} (hreply : ∀ r, A h ⟨e, r⟩ → r = reply)
    (hg : ∀ a, f reply = .ok a → ReturnsIff A (P a) (g a) (h ++ [⟨e, reply⟩]) l) :
    ReturnsIff A (∃ a, f reply = .ok a ∧ P a) (Body.invoke e f >>= g) h l := by
  apply Body.Sat.invoke trivial
  · intro r x hr hx
    rw [hreply r hr] at hx
    apply returns_error
    rintro ⟨a, ha, _⟩
    rw [hx] at ha
    cases ha
  · intro r a hr ha
    obtain rfl := hreply r hr
    apply (hg a ha).mono
    intro _ _ _ hreturns
    rw [hreturns]
    constructor
    · intro hp
      exact ⟨a, ha, hp⟩
    · rintro ⟨a', ha', hp⟩
      rw [ha, Except.ok.injEq] at ha'
      rw [ha']
      exact hp

/-- A package call goes on with its answer. -/
theorem returnsIff_callLib (hA : o.Answers A) {c : LibCall} {g : c.Result → Py L β}
    {P : c.Result → Prop}
    (hg : ∀ a h', o.answer c = .ok a → ReturnsIff A (P a) (g a) h' l) :
    ReturnsIff A (∃ a, o.answer c = .ok a ∧ P a) (callLib c >>= g) h l :=
  returnsIff_invoke (f := id) (fun _ hr ↦ hA.lib _ _ _ hr) fun a ha ↦ hg a _ ha

/-- A package call with translated exceptions goes on with its answer. -/
theorem returnsIff_callLibExcept (hA : o.Answers A) {c : LibCall} {translate : Exn → Exn}
    {g : c.Result → Py L β} {P : c.Result → Prop}
    (hg : ∀ a h', o.answer c = .ok a → ReturnsIff A (P a) (g a) h' l) :
    ReturnsIff A (∃ a, o.answer c = .ok a ∧ P a) (callLibExcept c translate >>= g) h l := by
  apply ReturnsIff.congr
  · exact returnsIff_invoke (fun _ hr ↦ hA.lib _ _ _ hr) fun a ha ↦ hg a _ (mapError_eq_ok.mp ha)
  · simp only [mapError_eq_ok]

/-- A package call at the end of a body. -/
theorem returnsIff_last (hA : o.Answers A) {c : LibCall} {translate : Exn → Exn} :
    ReturnsIff A (∃ a, o.answer c = .ok a) (callLibExcept c translate : Py L c.Result) h l := by
  rw [ReturnsIff, callLibExcept, Body.sat_invoke]
  refine ⟨trivial, ?_⟩
  intro r hr
  rw [hA.lib _ _ _ hr]
  simp only [mapError_eq_ok]

/-- A pure computation goes on with its result. -/
theorem returnsIff_ofExcept {x : Except Exn α} {g : α → Py L β} {P : α → Prop}
    (hg : ∀ a, x = .ok a → ReturnsIff A (P a) (g a) h l) :
    ReturnsIff A (∃ a, x = .ok a ∧ P a) (Body.ofExcept x >>= g) h l := by
  apply Body.Sat.ofExcept
  · intro e he
    apply returns_error
    rintro ⟨a, ha, _⟩
    rw [he] at ha
    cases ha
  · intro a ha
    apply (hg a ha).mono
    intro _ _ _ hreturns
    rw [hreturns, ha]
    simp

/-- An assignment goes on. -/
theorem returnsIff_assign {f : L → L} {g : Unit → Py L β} (hg : ReturnsIff A P (g ()) h (f l)) :
    ReturnsIff A P (Body.assign f >>= g) h l := Body.Sat.assign hg

/-- A raising statement goes on when its condition does not hold. -/
theorem returnsIff_raiseIf {c : Prop} [Decidable c] {e : Exn} {g : Unit → Py L β}
    (hg : ¬c → ReturnsIff A P (g ()) h l) :
    ReturnsIff A (¬c ∧ P) (Body.raiseIf c e >>= g) h l := by
  apply Body.Sat.raiseIf
  · intro hc
    exact returns_error fun hnot ↦ hnot.1 hc
  · intro hc
    apply (hg hc).mono
    intro _ _ _ hreturns
    rw [hreturns]
    exact ⟨fun hp ↦ ⟨hc, hp⟩, fun hp ↦ hp.2⟩

/-- One body after another. -/
theorem ReturnsIff.bind {x : Py L α} {g : α → Py L β} (hx : ReturnsIff A P x h l)
    (hg : ∀ a h' l', ReturnsIff A Q (g a) h' l') : ReturnsIff A (P ∧ Q) (x >>= g) h l := by
  apply Body.Sat.bind hx
  · intro h' e l' _ hreturns
    apply returns_error
    rintro ⟨hp, _⟩
    obtain ⟨a, ha⟩ := hreturns.mpr hp
    cases ha
  · intro h' a l' _ hreturns
    have hp : P := hreturns.mp ⟨a, rfl⟩
    apply (hg a h' l').mono
    intro _ _ _ hq
    rw [hq]
    exact ⟨fun h ↦ ⟨hp, h⟩, fun h ↦ h.2⟩

/-- `verify_signed_manifest` returns exactly for the manifest of the policy. -/
theorem verifySignedManifest_returnsIff (hA : o.Answers A) {manifest : Value}
    {policy : ManifestPolicy} :
    ReturnsIff A (policy.Accepts o manifest) (verifySignedManifest manifest policy) h l := by
  unfold verifySignedManifest normalizeSignedManifest
  apply ReturnsIff.congr
  · apply returnsIff_callLibExcept hA
    intro normalized h₁ _
    apply returnsIff_raiseIf
    intro _
    apply returnsIff_callLib hA
    intro digest h₂ _
    apply returnsIff_raiseIf
    intro _
    apply returnsIff_callLib hA
    intro result h₃ _
    apply returnsIff_raiseIf
    intro _
    exact returnsIff_pure
  · simp only [ManifestPolicy.Accepts, Bool.not_eq_false, ne_eq, Decidable.not_not, not_or,
      and_true]
    constructor
    · rintro ⟨normalized, hnormalized, hissued, digest, hdigest, rfl, result, hresult, hvalid⟩
      exact ⟨normalized, result, hnormalized, hissued, hdigest, hresult, hvalid⟩
    · rintro ⟨normalized, result, hnormalized, hissued, hdigest, hresult, hvalid⟩
      exact ⟨normalized, hnormalized, hissued, _, hdigest, rfl, result, hresult, hvalid⟩

/-- The comparisons of a request with the policy. -/
theorem checkRequestBinding_eq_ok {request : IssuanceRequest} {policy : BrokerPolicy} {u : Unit} :
    checkRequestBinding request policy = .ok u ↔ policy.Binds request := by
  simp only [checkRequestBinding, bind_eq_ok, raiseIf_eq_ok, ne_eq, Decidable.not_not,
    Bool.not_eq_false]
  constructor
  · rintro ⟨_, h₁, _, h₂, _, h₃, _, h₄, _, h₅, _, h₆, _, h₇, h₈⟩
    exact ⟨h₁, h₂, h₃, h₄, h₅, h₆, h₇, h₈⟩
  · rintro ⟨h₁, h₂, h₃, h₄, h₅, h₆, h₇, h₈⟩
    exact ⟨(), h₁, (), h₂, (), h₃, (), h₄, (), h₅, (), h₆, (), h₇, h₈⟩

/-- `verify_identity_endorsement` returns exactly for an endorsed request of the policy. -/
theorem verifyIdentityEndorsement_returnsIff (hA : o.Answers A) {request : IssuanceRequest}
    {policy : BrokerPolicy} :
    ReturnsIff A (policy.Binds request ∧ HolderKeyValid o request ∧ Endorsed lib o policy request)
      (verifyIdentityEndorsement lib request policy) h l := by
  unfold verifyIdentityEndorsement
  apply ReturnsIff.congr
  · apply returnsIff_ofExcept
    intro _ _
    apply returnsIff_ofExcept
    intro holderKey _
    apply returnsIff_callLibExcept hA
    intro _ h₁ _
    apply returnsIff_raiseIf
    intro _
    apply returnsIff_ofExcept
    intro identityKey _
    apply returnsIff_callLibExcept hA
    intro _ h₂ _
    apply returnsIff_ofExcept
    intro signature _
    apply returnsIff_ofExcept
    intro message _
    exact returnsIff_last hA
  · simp only [mapError_eq_ok, checkRequestBinding_eq_ok, HolderKeyValid, Endorsed]
    constructor
    · rintro ⟨_, hbinds, holderKey, hholder, _, hvalid, hne, identityKey, hidentity, _, hkey,
        signature, hsignature, message, hmessage, _, hverified⟩
      exact ⟨hbinds, ⟨holderKey, hholder, hvalid⟩, hne, identityKey, signature, message, hidentity,
        hkey, hsignature, hmessage, hverified⟩
    · rintro ⟨hbinds, ⟨holderKey, hholder, hvalid⟩, hne, identityKey, signature, message, hidentity,
        hkey, hsignature, hmessage, hverified⟩
      exact ⟨(), hbinds, holderKey, hholder, (), hvalid, hne, identityKey, hidentity, (), hkey,
        signature, hsignature, message, hmessage, (), hverified⟩

/-- `appraise` returns exactly for accepted evidence. -/
theorem TpmAppraiser.appraise_returnsIff (hA : o.Answers A) {appraiser : TpmAppraiser}
    {evidence : TpmEvidence} {qualifyingData : Bytes} {policy : TpmPolicy} :
    ReturnsIff A (appraiser.Accepts o evidence qualifyingData policy)
      (appraiser.appraise evidence qualifyingData policy) h l := by
  cases appraiser with
  | released =>
    apply Body.Sat.mono ((appraiseReleased_exact hA.lib).weaken fun _ _ _ ↦ trivial)
    rintro _ r _ ⟨_, hreturns⟩
    refine Iff.trans ?_ hreturns
    constructor
    · rintro ⟨_, hr⟩
      exact hr
    · intro hr
      exact ⟨(), hr⟩
  | test acceptedEvidence =>
    unfold ReturnsIff TpmAppraiser.appraise Body.raiseIf
    rw [Body.sat_ofExcept]
    simp [raiseIf_eq_ok, TpmAppraiser.Accepts]
  | other =>
    unfold ReturnsIff TpmAppraiser.appraise callLib
    rw [Body.sat_invoke]
    refine ⟨trivial, ?_⟩
    intro r hr
    rw [hA.lib _ _ _ hr]
    constructor
    · rintro ⟨_, hr⟩
      exact hr
    · intro hr
      exact ⟨(), hr⟩

end Appraisal

/-! ### The members of a request -/

/-- The members of a request have names of their own. -/
theorem IssuanceRequest.distinctKeys_toDict (request : IssuanceRequest) :
    request.toDict.distinctKeys = true := by
  apply Value.distinctKeys_dict.mpr
  constructor
  · have hnodup : (["version", "broker_id", "challenge", "manifest_digest", "identity_key",
        "holder_key", "resource_issuer_kid", "resource_issuer_key", "requested_scope",
        "identity_signature"].map text).Nodup := by
      apply List.Nodup.map text_injective
      decide
    exact hnodup
  · simp [bodyMembers, Value.distinctKeys, Value.everywhere]

/-- The members of a request's body have names of their own. -/
theorem IssuanceRequest.distinctKeys_body (request : IssuanceRequest) :
    request.body.distinctKeys = true := by
  obtain ⟨hnames, hvalues⟩ := Value.distinctKeys_dict.mp request.distinctKeys_toDict
  rw [List.map_append] at hnames
  exact Value.distinctKeys_dict.mpr
    ⟨hnames.of_append_left, fun p hp ↦ hvalues p (List.mem_append_left _ hp)⟩

namespace CapabilityBroker

section Appraise

variable {lib : Libraries} {broker : CapabilityBroker} {o : Occasion}
  {A : History → Event Op Op.Reply → Prop} {h : History} {l : IssueLocals}

/-- `appraiseRequest` returns exactly for the requests that the reference appraises. -/
theorem appraiseRequest_returnsIff (hA : o.Answers A) {request : IssuanceRequest}
    {manifest : Value} {evidence : TpmEvidence} :
    ReturnsIff A (broker.Appraises lib o request manifest evidence)
      (broker.appraiseRequest lib request manifest evidence) h l := by
  unfold appraiseRequest
  apply ReturnsIff.congr (P := ∃ now, (Except.ok o.now : Except Exn Int).mapError challengeFailure =
    .ok now ∧ ∃ u : Unit,
      o.answer (.verifyChallenge broker.challengeSecret request.challenge now) = .ok u ∧
        broker.policy.manifest.Accepts o manifest ∧
        (broker.policy.Binds request ∧ HolderKeyValid o request ∧
          Endorsed lib o broker.policy request) ∧
        ∃ qualifyingData, issuanceQualifyingData lib request = .ok qualifyingData ∧
          broker.tpmAppraiser.Accepts o evidence qualifyingData broker.policy.tpm)
  · apply returnsIff_invoke fun r hr ↦ hA.clock _ _ hr
    intro now _
    apply returnsIff_callLibExcept hA
    intro _ h₁ _
    apply (verifySignedManifest_returnsIff hA).bind
    intro _ h₂ l₂
    apply (verifyIdentityEndorsement_returnsIff hA).bind
    intro _ h₃ l₃
    apply returnsIff_ofExcept
    intro qualifyingData _
    exact TpmAppraiser.appraise_returnsIff hA
  · constructor
    · rintro ⟨now, hnow, _, hchallenge, hmanifest, ⟨hbinds, hholder, hendorsed⟩, hquote⟩
      cases hnow
      exact ⟨hchallenge, hmanifest, hbinds, hholder, hendorsed, hquote⟩
    · rintro ⟨hchallenge, hmanifest, hbinds, hholder, hendorsed, hquote⟩
      exact ⟨o.now, rfl, (), hchallenge, hmanifest, ⟨hbinds, hholder, hendorsed⟩, hquote⟩

end Appraise

/-! ### Minting -/

section Minting

variable {lib : Libraries} {broker : CapabilityBroker} {o : Occasion}
  {A : History → Event Op Op.Reply → Prop} {h : History} {l : IssueLocals}

/-- Hashes whose names and values have a UTF-8 encoding. -/
def EncodableHashes (hashes : ArtifactHashes) : Prop :=
  ∀ k v : Text, hashes[k]? = some v → k.encodable = true ∧ v.encodable = true

/-- A recorded hash has an encoding when its name and its value do. -/
theorem EncodableHashes.insert {hashes : ArtifactHashes} (hh : EncodableHashes hashes) {k v : Text}
    (hk : k.encodable = true) (hv : v.encodable = true) :
    EncodableHashes (hashes.insert k v) := by
  intro k' v' hv'
  rw [Std.ExtTreeMap.getElem?_insert] at hv'
  split at hv'
  · next hcmp =>
    rw [Std.LawfulEqCmp.compare_eq_iff_eq] at hcmp
    cases hv'
    rw [← hcmp]
    exact ⟨hk, hv⟩
  · exact hh k' v' hv'

/-- The hashes of evidence have encodings. -/
theorem EncodableHashes.digestable {hashes : ArtifactHashes} (hh : EncodableHashes hashes)
    (evidence : TpmEvidence) : EncodableHashes (hashes.insertMany evidence.digestable) := by
  simp only [TpmEvidence.digestable, Std.ExtTreeMap.insertMany_cons, Std.ExtTreeMap.insertMany_nil]
  apply EncodableHashes.insert _ (encodable_text _) (encodable_sha256Hex _)
  apply EncodableHashes.insert _ (encodable_text _) (encodable_sha256Hex _)
  exact hh.insert (encodable_text _) (encodable_sha256Hex _)

/-- The policy is one that receipts can name. -/
structure Policied (broker : CapabilityBroker) : Prop where
  scope : broker.policy.qualifiedScope ≠ []
  encodable : ∀ dict, broker.policy.publicDict = .ok dict → Json.canonicalizable dict = true

/-- What is assumed of the packages: the signer of credentials sets the signature and nothing else,
a credential has a body, and the hash of a manifest is not empty. -/
structure Mints (o : Occasion) : Prop where
  sign : ∀ c k, ∃ signature, o.answer (.credentialSign c k) = .ok { c with signature := signature }
  body : ∀ c, ∃ members, o.answer (.credentialBody c) = .ok members
  hash : ∀ m digest, o.answer (.manifestCanonicalHash m) = .ok digest → digest ≠ []

/-- The claims of an allow receipt pass validation. -/
theorem check_allow {credentialId tokenHash manifestDigest receiptId policyDigest : Text}
    {hashes : ArtifactHashes} {decidedAt : Int} (hid : ReceiptId receiptId) (hnow : 0 ≤ decidedAt)
    (hscope : broker.policy.qualifiedScope ≠ []) (htoken : tokenHash ≠ [])
    (hmanifest : manifestDigest ≠ [])
    (hpolicy : hashes[text "broker_policy_sha256"]? = some policyDigest)
    (hdigest : policyDigest ≠ []) :
    (broker.receiptFields .allow .ALLOW (some credentialId) (some tokenHash) (some manifestDigest)
      hashes receiptId decidedAt).check = .ok () := by
  have hbounds : (broker.receiptFields .allow .ALLOW (some credentialId) (some tokenHash)
      (some manifestDigest) hashes receiptId decidedAt).boundsHold = true := by
    simp [ReceiptFields.boundsHold, receiptFields, hid.1, hid.2, hnow]
  rw [ReceiptFields.check, if_pos hbounds]
  simp [ReceiptFields.consistentDecisionState, ReceiptFields.checkBroker, receiptFields,
    bind_eq_ok, hscope, htoken, hmanifest, hpolicy, hdigest]

/-- The claims of an allow receipt have a canonical encoding. -/
theorem encodable_allow {credentialId tokenHash manifestDigest receiptId : Text}
    {hashes : ArtifactHashes} {decidedAt : Int} (hid : receiptId.encodable = true)
    (hnow : Json.exactInt decidedAt = true) (hcredential : credentialId.encodable = true)
    (hscope : broker.policy.qualifiedScope.encodable = true) (htoken : tokenHash.encodable = true)
    (hmanifest : manifestDigest.encodable = true) (hhashes : EncodableHashes hashes) :
    (broker.receiptFields .allow .ALLOW (some credentialId) (some tokenHash) (some manifestDigest)
      hashes receiptId decidedAt).Encodable := by
  refine ⟨hid, hnow, ?_, nofun, rfl, ?_⟩
  · simp [ReceiptFields.optionalTexts, receiptFields, hcredential, hscope, htoken, hmanifest]
  · rintro ⟨k, v⟩ hq
    exact hhashes k v (Std.ExtTreeMap.mem_toList_iff_getElem?_eq_some.mp hq)

/-- The public dictionary of a broker's policy exists: the issuer key is a key. -/
theorem exists_publicDict (broker : CapabilityBroker) :
    ∃ dict, broker.policy.publicDict = .ok dict := by
  have hkey : bytesFromHex broker.policy.resourceIssuerPublicHex =
      .ok broker.issuerPrivateKey.publicRaw := by
    rw [← broker.issuerMatches, bytesFromHex, fromHex_hex]
  exact ⟨_, bind_eq_ok.mpr ⟨_, hkey, rfl⟩⟩

/-- The policy of a broker has a hash. -/
theorem Policied.exists_sha256 (law : Rfc8785 lib) (hp : Policied broker) :
    ∃ data, broker.policy.sha256 lib = .ok (sha256Hex data) := by
  obtain ⟨dict, hdict⟩ := exists_publicDict broker
  obtain ⟨digest, hdigest⟩ := law.exists_canonicalDigest
    (BrokerPolicy.distinctKeys_publicDict hdict) (hp.encodable dict hdict)
  obtain ⟨data, _, rfl⟩ := canonicalDigest_eq_ok hdigest
  exact ⟨data, bind_eq_ok.mpr ⟨dict, hdict, hdigest⟩⟩

private theorem sha256Hex_ne_nil (data : Bytes) : sha256Hex data ≠ [] :=
  truthy_some.mp (truthy_sha256Hex data)

/-- `_receipt` returns a receipt for an allowed request. -/
theorem receipt_returns (law : Rfc8785 lib) (hs : SigningReplies lib broker.receiptSigner A)
    (hw : broker.receiptSigner.Working lib) (hp : Policied broker)
    {credentialId manifestDigest : Text} {token data : Bytes} {hashes : ArtifactHashes}
    (hcredential : credentialId.encodable = true)
    (hdigest : manifestDigest ≠ []) (hencodable : manifestDigest.encodable = true)
    (hhashes : EncodableHashes hashes)
    (hpolicy : hashes[text "broker_policy_sha256"]? = some (sha256Hex data)) :
    Body.Sat A (fun _ _ ↦ True) (fun _ r _ ↦ ∃ receipt, r = .ok receipt)
      (broker.receipt .allow .ALLOW (some credentialId) (some (sha256Hex token))
        (some manifestDigest) hashes : Py IssueLocals SignedDecisionReceipt) h l := by
  obtain ⟨dict, hdict⟩ := exists_publicDict broker
  have hscope := BrokerPolicy.encodable_scope hdict (hp.encodable dict hdict)
  unfold receipt readClock
  apply Body.Sat.perform trivial
  intro receiptId hr
  obtain ⟨b, hb, rfl⟩ := hs.tokenHex _ _ _ hr
  apply Body.Sat.invoke trivial
  · intro r x hr hx
    obtain ⟨now, rfl, _⟩ := hs.clock _ _ hr
    cases hx
  intro r decidedAt hr hdecided
  obtain ⟨now, rfl, hnow, hlt⟩ := hs.clock _ _ hr
  cases hdecided
  have hcheck : (broker.receiptFields .allow .ALLOW (some credentialId) (some (sha256Hex token))
      (some manifestDigest) hashes (hex b) decidedAt).check = .ok () :=
    check_allow (receiptId_hex hb) hnow hp.scope (sha256Hex_ne_nil token) hdigest hpolicy
      (sha256Hex_ne_nil data)
  have hconstruct := DecisionReceiptPayload.construct_of_check hcheck
  have hencoded : (broker.receiptFields .allow .ALLOW (some credentialId) (some (sha256Hex token))
      (some manifestDigest) hashes (hex b) decidedAt).Encodable :=
    encodable_allow (encodable_hex b) (exactInt_of_lt hnow hlt) hcredential hscope
      (encodable_sha256Hex token) hencodable hhashes
  apply Body.Sat.ofExcept
  · intro x hx
    cases hconstruct.symm.trans hx
  intro payload hpayload
  obtain rfl := Except.ok.inj (hconstruct.symm.trans hpayload)
  obtain ⟨receipt, hsign, _⟩ := hw.signed law ⟨_, hcheck⟩ hencoded
  rw [Body.sat_invoke]
  refine ⟨trivial, ?_⟩
  intro r hr
  exact ⟨receipt, (hs.sign _ _ _ hr).trans hsign⟩

/-- `mint` returns an allow. -/
theorem mint_returns (law : Rfc8785 lib) (hA : o.Answers A)
    (hs : SigningReplies lib broker.receiptSigner A) (hw : broker.receiptSigner.Working lib)
    (hp : Policied broker) (hm : Mints o) {request : IssuanceRequest} {token data : Bytes}
    {locals : IssueLocals} (hdigest : request.manifestDigest ≠ [])
    (hencodable : request.manifestDigest.encodable = true)
    (hhashes : EncodableHashes locals.artifactHashes)
    (hpolicy : locals.artifactHashes[text "broker_policy_sha256"]? = some (sha256Hex data)) :
    Body.Sat A (fun _ _ ↦ True) (fun _ r _ ↦ ∃ d, r = .ok d ∧ d.allowed = true)
      (broker.mint request (sha256Hex token) locals) h l := by
  unfold mint credentialToDict readClock callLib
  apply Body.Sat.invoke trivial
  · intro r x hr hx
    rw [hA.clock _ _ hr] at hx
    cases hx
  intro r now _ _
  apply Body.Sat.perform trivial
  intro credentialId hr
  obtain ⟨b, _, rfl⟩ := hs.tokenHex _ _ _ hr
  obtain ⟨signature, hsigned⟩ := hm.sign (broker.unsignedCredential request (hex b) now)
    broker.issuerPrivateKey
  apply Body.Sat.invoke trivial
  · intro r x hr hx
    rw [hA.lib _ _ _ hr, hsigned] at hx
    cases hx
  intro r credential hr hcredential
  rw [hA.lib _ _ _ hr, hsigned] at hcredential
  cases hcredential
  apply Body.Sat.bind (receipt_returns law hs hw hp (encodable_hex b) hdigest hencodable hhashes
    hpolicy)
  · rintro h' e l' _ ⟨receipt, hreceipt⟩
    cases hreceipt
  intro h' receipt l' _ _
  rw [Body.sat_bind]
  apply Body.Sat.invoke trivial
  · intro r x hr hx
    obtain ⟨members, hmembers⟩ := hm.body { broker.unsignedCredential request (hex b) now with
      signature := signature }
    rw [hA.lib _ _ _ hr, hmembers] at hx
    cases hx
  intro r members _ _
  exact ⟨_, rfl, rfl⟩

end Minting

/-! ### The whole call -/

section Call

variable {lib : Libraries} {broker : CapabilityBroker} {o : Occasion}
  {A : History → Event Op Op.Reply → Prop} {h : History} {l : IssueLocals}
  {raw : RawIssuanceRequest} {manifest : Value} {rawEvidence : RawTpmEvidence}

/-- The strings of a request have a UTF-8 encoding. -/
def EncodableRequest (raw : RawIssuanceRequest) : Prop :=
  ∀ request, validateIssuanceRequestRuntime raw = .ok request →
    Json.canonicalizable request.toDict = true

/-- A request of such strings: its challenge, its manifest digest and its digest. -/
theorem EncodableRequest.texts (law : Rfc8785 lib) (he : EncodableRequest raw)
    {request : IssuanceRequest} (hr : validateIssuanceRequestRuntime raw = .ok request) :
    request.challenge.encodable = true ∧ request.manifestDigest.encodable = true ∧
      ∃ data, canonicalDigest lib request.toDict = .ok (sha256Hex data) := by
  have hc := he request hr
  have hmember := Json.canonicalizable_dict.mp hc
  have htext : ∀ (name : String) {t : Text},
      (text name, Value.str t) ∈ request.bodyMembers ++
        [(text "identity_signature", .str request.identitySignature)] → t.encodable = true := by
    intro name t hmem
    have ht := (hmember _ hmem).2
    simpa [Json.canonicalizable, Value.everywhere] using ht
  refine ⟨?_, ?_, ?_⟩
  · exact htext "challenge" (by simp [IssuanceRequest.bodyMembers])
  · exact htext "manifest_digest" (by simp [IssuanceRequest.bodyMembers])
  · obtain ⟨digest, hdigest⟩ := law.exists_canonicalDigest request.distinctKeys_toDict hc
    obtain ⟨data, _, rfl⟩ := canonicalDigest_eq_ok hdigest
    exact ⟨data, hdigest⟩

/-- `bindInputs` returns exactly for inputs of their runtime types. -/
theorem bindInputs_returnsIff (law : Rfc8785 lib) (hp : Policied broker)
    (he : EncodableRequest raw) :
    ReturnsIff A (∃ request evidence, validateIssuanceRequestRuntime raw = .ok request ∧
      validateTpmEvidenceRuntime rawEvidence = .ok evidence)
      (broker.bindInputs lib raw rawEvidence) h l := by
  obtain ⟨data, hsha⟩ := hp.exists_sha256 law
  obtain ⟨dict, hdict, hdigest⟩ := bind_eq_ok.mp hsha
  unfold bindInputs
  apply ReturnsIff.congr (P := ∃ policyDict, broker.policy.publicDict = .ok policyDict ∧
    ∃ policyDigest, canonicalDigest lib policyDict = .ok policyDigest ∧
    ∃ request, validateIssuanceRequestRuntime raw = .ok request ∧
    ∃ tokenHash, challengeTokenHash request.challenge = .ok tokenHash ∧
    ∃ evidence, validateTpmEvidenceRuntime rawEvidence = .ok evidence ∧
    ∃ requestDigest, canonicalDigest lib request.toDict = .ok requestDigest ∧ True)
  · apply returnsIff_ofExcept
    intro policyDict _
    apply returnsIff_ofExcept
    intro policyDigest _
    apply returnsIff_assign
    apply returnsIff_ofExcept
    intro request _
    apply returnsIff_assign
    apply returnsIff_ofExcept
    intro tokenHash _
    apply returnsIff_assign
    apply returnsIff_ofExcept
    intro evidence _
    apply returnsIff_assign
    apply returnsIff_ofExcept
    intro requestDigest _
    apply returnsIff_assign
    exact returnsIff_pure
  · constructor
    · rintro ⟨_, _, _, _, request, hrequest, _, _, evidence, hevidence, _⟩
      exact ⟨request, evidence, hrequest, hevidence⟩
    · rintro ⟨request, evidence, hrequest, hevidence⟩
      obtain ⟨hchallenge, _, body, hbody⟩ := he.texts law hrequest
      exact ⟨dict, hdict, _, hdigest, request, hrequest, _,
        challengeTokenHash_of_encodable hchallenge, evidence, hevidence, _, hbody, trivial⟩

/-- The hashes of inputs of their runtime types have encodings. -/
theorem encodable_derived (law : Rfc8785 lib) (hp : Policied broker) (he : EncodableRequest raw)
    {request : IssuanceRequest} {evidence : TpmEvidence}
    (hrequest : validateIssuanceRequestRuntime raw = .ok request)
    (hevidence : validateTpmEvidenceRuntime rawEvidence = .ok evidence) :
    EncodableHashes (derived lib broker raw rawEvidence).artifactHashes := by
  obtain ⟨data, hsha⟩ := hp.exists_sha256 law
  obtain ⟨hchallenge, _, body, hbody⟩ := he.texts law hrequest
  have hnone : EncodableHashes (∅ : ArtifactHashes) := by
    intro k v hv
    simp at hv
  simp only [derived, hsha, hrequest, challengeTokenHash_of_encodable hchallenge, hevidence, hbody]
  apply EncodableHashes.insert _ (encodable_text _) (encodable_sha256Hex _)
  apply EncodableHashes.digestable
  exact hnone.insert (encodable_text _) (encodable_sha256Hex _)

/-- The `try` block returns an allow exactly for what the reference allows. -/
theorem grant_returns (law : Rfc8785 lib) (hA : o.Answers A)
    (hs : SigningReplies lib broker.receiptSigner A) (hw : broker.receiptSigner.Working lib)
    (hp : Policied broker) (hm : Mints o) (he : EncodableRequest raw)
    (htime : bindInt o.now = .ok ()) :
    Body.Sat A (fun _ _ ↦ True) (fun _ r _ ↦ (∃ d, r = .ok d ∧ d.allowed = true) ↔
      broker.Allows lib o raw manifest rawEvidence)
      (broker.grant lib raw manifest rawEvidence) [] ⟨none, none, ∅⟩ := by
  have hrejects : ∀ {e : Exn}, ¬broker.Allows lib o raw manifest rawEvidence →
      ((∃ d : Decision, Except.error e = .ok d ∧ d.allowed = true) ↔
        broker.Allows lib o raw manifest rawEvidence) := by
    intro e hnot
    refine ⟨?_, fun hallows ↦ absurd hallows hnot⟩
    rintro ⟨d, hd, _⟩
    cases hd
  unfold grant
  apply Body.Sat.bind (bindInputs_derived.and (bindInputs_returnsIff law hp he))
  · rintro h₁ e l₁ _ ⟨_, hreturns⟩
    apply hrejects
    rintro ⟨request, evidence, hrequest, hevidence, _⟩
    obtain ⟨_, hok⟩ := hreturns.mpr ⟨request, evidence, hrequest, hevidence⟩
    cases hok
  rintro h₁ ⟨request, evidence, tokenHash⟩ l₁ _ ⟨⟨rfl, rfl, htyped⟩, _⟩
  obtain ⟨hrequest, hevidence, hhash⟩ := htyped request evidence tokenHash rfl
  dsimp only at hrequest hevidence hhash
  obtain ⟨_, rfl⟩ := challengeTokenHash_eq_ok hhash
  have hallows : broker.Allows lib o raw manifest rawEvidence ↔
      broker.Appraises lib o request manifest evidence ∧
        ∃ row, BrokerConsumable o.store (sha256Hex (utf8 request.challenge)) row o.now := by
    constructor
    · rintro ⟨request', evidence', hrequest', hevidence', happraises, hrow⟩
      cases hrequest.symm.trans hrequest'
      cases hevidence.symm.trans hevidence'
      exact ⟨happraises, hrow⟩
    · rintro ⟨happraises, hrow⟩
      exact ⟨request, evidence, hrequest, hevidence, happraises, hrow⟩
  apply Body.Sat.bind ((appraiseRequest_sat
    (s := ⟨request, evidence, sha256Hex (utf8 request.challenge)⟩) (fun _ _ _ ↦ trivial)
    quiet_nil).and (appraiseRequest_returnsIff hA))
  · rintro h₂ e l₂ _ ⟨_, hreturns⟩
    apply hrejects
    intro hall
    obtain ⟨_, hok⟩ := hreturns.mpr (hallows.mp hall).1
    cases hok
  rintro h₂ ⟨⟩ l₂ _ ⟨⟨hquiet, rfl, _⟩, hreturns⟩
  have happraises := hreturns.mp ⟨(), rfl⟩
  have hbind : bindText (sha256Hex (utf8 request.challenge)) = .ok () := by
    rw [bindText, if_pos (encodable_sha256Hex _)]
  have hconsume : (∃ u, (Store.consumeBrokerChallenge (sha256Hex (utf8 request.challenge))
      (.ok o.now) Faults.none o.store).1 = .ok u) ↔ _ := consumeBroker_faultless hbind htime
  apply Body.Sat.invoke trivial
  · intro r x hr hx
    rw [hA.consume _ _ _ hquiet hr] at hx
    apply hrejects
    intro hall
    obtain ⟨u, hu⟩ := hconsume.mpr (hallows.mp hall).2
    rw [id, hu] at hx
    cases hx
  intro r u hr hu
  rw [hA.consume _ _ _ hquiet hr] at hu
  apply Body.Sat.locals
  obtain ⟨data, hsha⟩ := hp.exists_sha256 law
  have hpolicy : (derived lib broker raw rawEvidence).artifactHashes[text "broker_policy_sha256"]? =
      some (sha256Hex data) := by
    rw [policyHash_derived, hsha]
    rfl
  obtain ⟨_, _, hnormalized, _, hcanonical, _⟩ := happraises.manifest
  have hdigest : request.manifestDigest ≠ [] := by
    rw [happraises.bound.manifestDigest]
    exact hm.hash _ _ hcanonical
  apply (mint_returns law hA hs hw hp hm hdigest (he.texts law hrequest).2.1
    (encodable_derived law hp he hrequest hevidence) hpolicy).mono
  intro h' r' l' hmade
  exact ⟨fun _ ↦ hallows.mpr ⟨happraises, hconsume.mp ⟨u, hu⟩⟩, fun _ ↦ hmade⟩

/-- `issue` allows exactly what the reference allows. -/
theorem issue_allows (law : Rfc8785 lib) (hA : o.Answers A)
    (hs : SigningReplies lib broker.receiptSigner A) (hw : broker.receiptSigner.Working lib)
    (hp : Policied broker) (hm : Mints o) (he : EncodableRequest raw)
    (htime : bindInt o.now = .ok ()) :
    Body.Sat A (fun _ _ ↦ True) (fun _ r _ ↦ (∃ d, r = .ok d ∧ d.allowed = true) ↔
      broker.Allows lib o raw manifest rawEvidence)
      (broker.issue lib raw manifest rawEvidence) [] () := by
  unfold issue
  apply Body.Sat.attempt (grant_returns law hA hs hw hp hm he htime)
  intro h₁ outcome locals _ hgrant
  cases outcome with
  | ok decision => exact hgrant
  | error e =>
    have hnot : ¬broker.Allows lib o raw manifest rawEvidence := by
      intro hall
      obtain ⟨d, hd, _⟩ := hgrant.mpr hall
      cases hd
    apply Body.Sat.bind receipt_made
    · intro h₂ x l₂ _ _
      refine ⟨?_, fun hall ↦ absurd hall hnot⟩
      rintro ⟨d, hd, _⟩
      cases hd
    · intro h₂ receipt l₂ _ _
      refine ⟨?_, fun hall ↦ absurd hall hnot⟩
      rintro ⟨d, hd, hallowed⟩
      cases hd
      cases hallowed

end Call
end CapabilityBroker
end Atcap
