import Atcap.Broker.Operations
import Atcap.Broker.Spec
import Atcap.Policy.Commitment

/-!
# How an issuance ends

The outcome of `issue` against its own history: what its local variables hold when it is denied,
what its receipts carry, and at which point it was refused.
-/

namespace Atcap

open Base

namespace CapabilityBroker

/-! ### What was derived -/

/-- What the local variables hold after the inputs are bound: everything that was derived before
the first input that is not valid. -/
def derived (lib : Libraries) (broker : CapabilityBroker) (raw : RawIssuanceRequest)
    (rawEvidence : RawTpmEvidence) : IssueLocals :=
  match broker.policy.sha256 lib with
  | .error _ => ⟨none, none, ∅⟩
  | .ok policyDigest =>
    let hashes := (∅ : ArtifactHashes).insert (text "broker_policy_sha256") policyDigest
    match validateIssuanceRequestRuntime raw with
    | .error _ => ⟨none, none, hashes⟩
    | .ok request =>
      match challengeTokenHash request.challenge with
      | .error _ => ⟨none, some request.manifestDigest, hashes⟩
      | .ok tokenHash =>
        match validateTpmEvidenceRuntime rawEvidence with
        | .error _ => ⟨some tokenHash, some request.manifestDigest, hashes⟩
        | .ok evidence =>
          let hashes := hashes.insertMany evidence.digestable
          match canonicalDigest lib request.toDict with
          | .error _ => ⟨some tokenHash, some request.manifestDigest, hashes⟩
          | .ok requestDigest => ⟨some tokenHash, some request.manifestDigest,
              hashes.insert (text "issuance_request_sha256") requestDigest⟩

variable {lib : Libraries} {broker : CapabilityBroker} {raw : RawIssuanceRequest}
  {manifest : Value} {rawEvidence : RawTpmEvidence} {A : History → Event Op Op.Reply → Prop}
  {G : History → Op → Prop} {h : History}

/-- `bindInputs` leaves what was derived in the local variables. -/
theorem bindInputs_derived :
    Body.Sat A G (fun h' r l' ↦ h' = h ∧ l' = derived lib broker raw rawEvidence ∧
      ∀ request evidence tokenHash, r = .ok (request, evidence, tokenHash) →
        Submission.Typed ⟨request, evidence, tokenHash⟩ raw rawEvidence)
      (broker.bindInputs lib raw rawEvidence) h ⟨none, none, ∅⟩ := by
  unfold bindInputs
  apply Body.Sat.ofExcept
  · intro x hx
    have hsha : broker.policy.sha256 lib = .error x := bind_eq_error.mpr (.inl hx)
    refine ⟨rfl, ?_, nofun⟩
    simp only [derived, hsha]
  intro policyDict hdict
  apply Body.Sat.ofExcept
  · intro x hx
    have hsha : broker.policy.sha256 lib = .error x :=
      bind_eq_error.mpr (.inr ⟨policyDict, hdict, hx⟩)
    refine ⟨rfl, ?_, nofun⟩
    simp only [derived, hsha]
  intro policyDigest hdigest
  have hsha : broker.policy.sha256 lib = .ok policyDigest :=
    bind_eq_ok.mpr ⟨policyDict, hdict, hdigest⟩
  apply Body.Sat.assign
  apply Body.Sat.ofExcept
  · intro x hx
    refine ⟨rfl, ?_, nofun⟩
    simp only [derived, hsha, hx, IssueLocals.record]
  intro request hrequest
  apply Body.Sat.assign
  apply Body.Sat.ofExcept
  · intro x hx
    refine ⟨rfl, ?_, nofun⟩
    simp only [derived, hsha, hrequest, hx, IssueLocals.record]
  intro tokenHash hhash
  apply Body.Sat.assign
  apply Body.Sat.ofExcept
  · intro x hx
    refine ⟨rfl, ?_, nofun⟩
    simp only [derived, hsha, hrequest, hhash, hx, IssueLocals.record]
  intro evidence hevidence
  apply Body.Sat.assign
  apply Body.Sat.ofExcept
  · intro x hx
    refine ⟨rfl, ?_, nofun⟩
    simp only [derived, hsha, hrequest, hhash, hevidence, hx, IssueLocals.record,
      IssueLocals.recordAll]
  intro requestDigest hbody
  apply Body.Sat.assign
  refine ⟨rfl, ?_, ?_⟩
  · simp only [derived, hsha, hrequest, hhash, hevidence, hbody, IssueLocals.record,
      IssueLocals.recordAll]
  rintro request' evidence' tokenHash' ⟨⟩
  exact ⟨hrequest, hevidence, hhash⟩

/-- The policy hash of what was derived is the one of the broker's policy. -/
theorem policyHash_derived :
    (derived lib broker raw rawEvidence).artifactHashes[text "broker_policy_sha256"]? =
      (broker.policy.sha256 lib).toOption := by
  unfold derived
  cases broker.policy.sha256 lib with
  | error e => rfl
  | ok policyDigest =>
    have hpolicy : ((∅ : ArtifactHashes).insert (text "broker_policy_sha256")
        policyDigest)[text "broker_policy_sha256"]? = some policyDigest :=
      Std.ExtTreeMap.getElem?_insert_self
    dsimp only
    cases validateIssuanceRequestRuntime raw with
    | error e => exact hpolicy
    | ok request =>
      dsimp only
      cases challengeTokenHash request.challenge with
      | error e => exact hpolicy
      | ok tokenHash =>
        dsimp only
        cases validateTpmEvidenceRuntime rawEvidence with
        | error e => exact hpolicy
        | ok evidence =>
          have hevidence : (((∅ : ArtifactHashes).insert (text "broker_policy_sha256")
              policyDigest).insertMany evidence.digestable)[text "broker_policy_sha256"]? =
                some policyDigest := by
            rw [Std.ExtTreeMap.getElem?_insertMany_list_of_contains_eq_false]
            · exact hpolicy
            · change [text "tpm_attest_sha256", text "tpm_signature_sha256",
                text "tpm_ak_chain_sha256"].contains (text "broker_policy_sha256") = false
              decide
          dsimp only
          cases canonicalDigest lib request.toDict with
          | error e => exact hevidence
          | ok requestDigest =>
            change ((Std.ExtTreeMap.insertMany _ _).insert _ _)[_]? = _
            rw [Std.ExtTreeMap.getElem?_insert, if_neg]
            · exact hevidence
            · rw [Std.LawfulEqCmp.compare_eq_iff_eq]
              decide

/-! ### Receipts -/

/-- The claims `_receipt` makes of its arguments and of what it reads. -/
def receiptFields (broker : CapabilityBroker) (decision : Verdict) (reason : Reason)
    (credentialId challengeHash manifestDigest : Option Text) (artifactHashes : ArtifactHashes)
    (receiptId : Text) (decidedAt : Int) : ReceiptFields where
  receiptId := receiptId
  decidingService := .broker
  decision := decision
  reason := reason
  decidedAt := decidedAt
  credentialId := credentialId
  qualifiedScope := some broker.policy.qualifiedScope
  challengeTokenHash := challengeHash
  manifestDigest := manifestDigest
  method := none
  audience := none
  argumentsDigest := none
  recordId := none
  invocationId := none
  handlerCountSnapshot := 0
  handlerInvoked := false
  businessResult := .notApplicable
  artifactHashes := artifactHashes

/-- Every receipt that is signed carries the given hashes. -/
def SignsWith (broker : CapabilityBroker) (hashes : ArtifactHashes) : Op → Prop
  | .sign signer payload => signer = broker.receiptSigner ∧ payload.artifactHashes = hashes
  | _ => True

/-- An exception that minting passes on: the clock, the signatures of the credential and of the
receipt or the credential's body raised it, or the receipt is not valid. -/
inductive Raised (h : History) (e : Exn) : Prop where
  | clock : ⟨.clock, .error e⟩ ∈ h → Raised h e
  | credentialSign {c : Credential} {k : Ed25519PrivateKey} :
      ⟨.lib (.credentialSign c k), .error e⟩ ∈ h → Raised h e
  | credentialBody {c : Credential} : ⟨.lib (.credentialBody c), .error e⟩ ∈ h → Raised h e
  | sign {signer : ReceiptSigner} {payload : DecisionReceiptPayload} :
      ⟨.sign signer payload, .error e⟩ ∈ h → Raised h e
  | invalid (message : String) : e = .validation message → Raised h e

section Receipt

variable {L : Type} {l : L} {decision : Verdict} {reason : Reason}
  {credentialId challengeHash manifestDigest : Option Text} {hashes : ArtifactHashes}

/-- `_receipt` returns a signature of its arguments, or passes an exception on. -/
theorem receipt_made :
    Body.Sat A (fun _ _ ↦ True) (fun h' r l' ↦ l' = l ∧
      (∀ receipt, r = .ok receipt → ∃ payload receiptId decidedAt,
        ⟨.sign broker.receiptSigner payload, .ok receipt⟩ ∈ h' ∧
        payload.toReceiptFields = broker.receiptFields decision reason credentialId challengeHash
          manifestDigest hashes receiptId decidedAt) ∧
      ∀ e, r = .error e → Raised h' e)
      (broker.receipt decision reason credentialId challengeHash manifestDigest hashes) h l := by
  unfold receipt readClock
  apply Body.Sat.perform trivial
  intro receiptId _
  apply Body.Sat.invoke trivial
  · rintro r x _ rfl
    refine ⟨rfl, nofun, ?_⟩
    rintro e ⟨⟩
    exact .clock (by simp)
  intro r decidedAt _ _
  apply Body.Sat.ofExcept
  · intro x hx
    refine ⟨rfl, nofun, ?_⟩
    rintro e ⟨⟩
    obtain ⟨message, rfl⟩ := DecisionReceiptPayload.construct_raises hx
    exact .invalid message rfl
  intro payload hpayload
  rw [Body.sat_invoke]
  refine ⟨trivial, ?_⟩
  intro r _
  refine ⟨rfl, ?_, ?_⟩
  · rintro receipt rfl
    exact ⟨payload, receiptId, decidedAt, List.mem_append_right _ (List.mem_singleton_self _),
      DecisionReceiptPayload.construct_eq_ok hpayload⟩
  · rintro e rfl
    exact .sign (List.mem_append_right _ (List.mem_singleton_self _))

/-- `_receipt` signs the hashes it is given. -/
theorem receipt_signsWith : Body.Issues (broker.SignsWith hashes)
    (broker.receipt decision reason credentialId challengeHash manifestDigest hashes :
      Py L SignedDecisionReceipt) := by
  intro A h l
  unfold receipt readClock
  apply Body.Sat.perform trivial
  intro receiptId _
  apply Body.Sat.invoke trivial
  · intro r x _ _
    trivial
  intro r decidedAt _ _
  apply Body.Sat.ofExcept
  · intro x _
    trivial
  intro payload hpayload
  rw [Body.sat_invoke]
  refine ⟨⟨rfl, ?_⟩, fun _ _ ↦ trivial⟩
  rw [DecisionReceiptPayload.construct_eq_ok hpayload]

end Receipt

/-! ### Minting -/

/-- `mint` returns an allow, or passes an exception on. -/
theorem mint_made {request : IssuanceRequest} {tokenHash : Text} {locals l : IssueLocals} :
    Body.Sat A (fun _ _ ↦ True) (fun h' r l' ↦ l' = l ∧
      (∀ d, r = .ok d → d.allowed = true) ∧ ∀ e, r = .error e → Raised h' e)
      (broker.mint request tokenHash locals) h l := by
  unfold mint credentialToDict readClock callLib
  apply Body.Sat.invoke trivial
  · rintro r x _ rfl
    refine ⟨rfl, nofun, ?_⟩
    rintro e ⟨⟩
    exact .clock (by simp)
  intro r now _ _
  apply Body.Sat.perform trivial
  intro credentialId _
  apply Body.Sat.invoke trivial
  · rintro r x _ rfl
    refine ⟨rfl, nofun, ?_⟩
    rintro e ⟨⟩
    exact .credentialSign (List.mem_append_right _ (List.mem_singleton_self _))
  intro r credential _ _
  apply Body.Sat.bind receipt_made
  · rintro h₂ e l₂ _ ⟨hl, _, hraised⟩
    exact ⟨hl, nofun, fun e' he' ↦ by cases he'; exact hraised e rfl⟩
  rintro h₂ receipt l₂ _ ⟨hl, _, _⟩
  rw [Body.sat_bind]
  apply Body.Sat.invoke trivial
  · rintro r x _ rfl
    refine ⟨hl, nofun, ?_⟩
    rintro e ⟨⟩
    exact .credentialBody (List.mem_append_right _ (List.mem_singleton_self _))
  intro r body _ _
  rw [Body.sat_pure]
  refine ⟨hl, ?_, nofun⟩
  rintro d ⟨⟩
  rfl

/-- `mint` signs the hashes of the local variables. -/
theorem mint_signsWith {request : IssuanceRequest} {tokenHash : Text} {locals : IssueLocals} :
    Body.Issues (broker.SignsWith locals.artifactHashes)
      (broker.mint request tokenHash locals) := by
  unfold mint credentialToDict callLib
  apply Body.Issues.bind (issues_readClock trivial)
  intro now
  apply Body.Issues.bind (.perform trivial)
  intro credentialId
  apply Body.Issues.bind (.invoke trivial _)
  intro credential
  apply Body.Issues.bind receipt_signsWith
  intro receipt
  apply Body.Issues.bind
  · exact Body.Issues.bind (.invoke trivial _) fun _ ↦ .pure _
  · intro dict
    exact .pure _

/-! ### Refusals -/

/-- How the `try` block of `issue` refuses a call. -/
inductive Refused (raw : RawIssuanceRequest) (rawEvidence : RawTpmEvidence) (h : History)
    (e : Exn) : Prop where
  /-- Before the challenge is consumed. -/
  | early : Quiet h → Refused raw rawEvidence h e
  /-- By an exception of the transaction that consumes it. -/
  | locked {s : Submission} {h₀ : History} :
      h = h₀ ++ [⟨.consumeBrokerChallenge s.tokenHash, .error e⟩] → s.Typed raw rawEvidence →
      Refused raw rawEvidence h e
  /-- After it was consumed. -/
  | unminted {s : Submission} {h₀ q : History} :
      h = h₀ ++ ⟨.consumeBrokerChallenge s.tokenHash, .ok ()⟩ :: q → s.Typed raw rawEvidence →
      Raised h e → Refused raw rawEvidence h e

/-- The `try` block returns an allow, or refuses with what was derived in its local variables. -/
theorem grant_ended :
    Body.Sat A (fun _ _ ↦ True) (fun h' r l' ↦ l' = derived lib broker raw rawEvidence ∧
      (∀ d, r = .ok d → d.allowed = true) ∧ ∀ e, r = .error e → Refused raw rawEvidence h' e)
      (broker.grant lib raw manifest rawEvidence) [] ⟨none, none, ∅⟩ := by
  unfold grant
  apply Body.Sat.bind bindInputs_derived
  · rintro h₁ e l₁ _ ⟨rfl, hl, _⟩
    exact ⟨hl, nofun, fun _ _ ↦ .early quiet_nil⟩
  rintro h₁ ⟨request, evidence, tokenHash⟩ l₁ _ ⟨rfl, rfl, htyped⟩
  let s : Submission := ⟨request, evidence, tokenHash⟩
  have hs : s.Typed raw rawEvidence := htyped request evidence tokenHash rfl
  apply Body.Sat.bind (appraiseRequest_sat (s := s) (fun _ _ _ ↦ trivial) quiet_nil)
  · rintro h₂ e l₂ _ ⟨hq, hl, _⟩
    exact ⟨hl, nofun, fun _ _ ↦ .early hq⟩
  rintro h₂ ⟨⟩ l₂ _ ⟨hq, rfl, _⟩
  apply Body.Sat.invoke trivial
  · rintro r x _ rfl
    refine ⟨rfl, nofun, ?_⟩
    rintro e ⟨⟩
    exact .locked (s := s) rfl hs
  rintro r ⟨⟩ _ rfl
  apply Body.Sat.locals
  apply (mint_made.extend).mono
  rintro h₃ ⟨r, l₃⟩ ⟨⟨q, rfl⟩, hl, hallowed, hraised⟩
  refine ⟨hl, hallowed, ?_⟩
  intro e he
  have hh : h₂ ++ [⟨.consumeBrokerChallenge s.tokenHash, .ok ()⟩] ++ q =
      h₂ ++ ⟨.consumeBrokerChallenge s.tokenHash, .ok ()⟩ :: q := by
    rw [List.append_assoc]
    rfl
  exact .unminted hh hs (hraised e he)

/-- The `try` block signs what was derived. -/
theorem grant_signsWith :
    Body.Sat A (fun _ e ↦ broker.SignsWith (derived lib broker raw rawEvidence).artifactHashes e)
      (fun _ _ _ ↦ True) (broker.grant lib raw manifest rawEvidence) [] ⟨none, none, ∅⟩ := by
  have hquery : ∀ {hashes : ArtifactHashes} (_ : History) (e : Op), e.isQuery = true →
      broker.SignsWith hashes e := by
    intro hashes _ e he
    cases e with
    | sign => cases he
    | clock | tokenHex | lib | storeBrokerChallenge | consumeBrokerChallenge
    | storeResourceChallenge | getResourceChallenge | spend | recordInvocation | invocationCount
    | inventoryLookup => trivial
  unfold grant
  apply Body.Sat.bind bindInputs_derived
  · intro _ _ _ _ _
    trivial
  rintro h₁ ⟨request, evidence, tokenHash⟩ l₁ _ ⟨rfl, rfl, _⟩
  apply Body.Sat.bind
    (appraiseRequest_sat (s := ⟨request, evidence, tokenHash⟩) hquery quiet_nil)
  · intro _ _ _ _ _
    trivial
  rintro h₂ ⟨⟩ l₂ _ ⟨_, rfl, _⟩
  apply Body.Sat.invoke trivial
  · intro _ _ _ _
    trivial
  intro r u _ _
  apply Body.Sat.locals
  exact mint_signsWith A _ _

/-- Every receipt of `issue` carries the hashes that were derived. -/
theorem issue_signsWith :
    Body.Sat A (fun _ e ↦ broker.SignsWith (derived lib broker raw rawEvidence).artifactHashes e)
      (fun _ _ _ ↦ True) (broker.issue lib raw manifest rawEvidence) [] () := by
  unfold issue
  apply Body.Sat.attempt (grant_signsWith.and grant_ended)
  rintro h₁ outcome locals _ ⟨_, rfl, _, _⟩
  cases outcome with
  | ok decision => trivial
  | error e =>
    apply Body.Sat.bind (receipt_signsWith A h₁ ())
    · intro _ _ _ _ _
      trivial
    · intro _ _ _ _ _
      trivial

/-- A denied `issue` has no result; it was refused, and then asked and signed what was derived. -/
theorem issue_ended :
    Body.Sat A (fun _ _ ↦ True) (fun h' r _ ↦ ∀ d, r = .ok d → d.allowed = false →
      d.result = none ∧ ∃ h₁ e, Refused raw rawEvidence h₁ e ∧ d.reason = e.denialReason ∧
        Prog.ExtendedBy (fun e ↦ (e.isQuery || e.isSign) = true) h₁ h' ∧
        ∃ payload receiptId decidedAt, ⟨.sign broker.receiptSigner payload, .ok d.receipt⟩ ∈ h' ∧
          payload.toReceiptFields = broker.receiptFields .deny d.reason none
            (derived lib broker raw rawEvidence).tokenHash
            (derived lib broker raw rawEvidence).manifestDigest
            (derived lib broker raw rawEvidence).artifactHashes receiptId decidedAt)
      (broker.issue lib raw manifest rawEvidence) [] () := by
  unfold issue
  apply Body.Sat.attempt grant_ended
  rintro h₁ outcome locals _ ⟨rfl, hallowed, hrefused⟩
  cases outcome with
  | ok decision =>
    rintro d ⟨⟩ hdenied
    rw [hallowed decision rfl] at hdenied
    cases hdenied
  | error e =>
    let P : Op → Prop := fun e ↦ (e.isQuery || e.isSign) = true
    have hissues := issues_brokerReceipt (P := P) (L := Unit) (show P .clock from rfl)
      (fun n ↦ show P (.tokenHex n) from rfl) (fun s p ↦ show P (.sign s p) from rfl)
      broker .deny e.denialReason none (derived lib broker raw rawEvidence).tokenHash
      (derived lib broker raw rawEvidence).manifestDigest
      (derived lib broker raw rawEvidence).artifactHashes A h₁ ()
    apply Body.Sat.bind ((hissues.collect.weaken fun _ _ _ ↦ trivial).and receipt_made)
    · rintro h₂ x _ _ _ d ⟨⟩
    · rintro h₂ receipt _ _ ⟨⟨_, hext⟩, _, hmade, _⟩ d ⟨⟩ _
      obtain ⟨payload, receiptId, decidedAt, hsigned, hfields⟩ := hmade receipt rfl
      exact ⟨rfl, h₁, e, hrefused e rfl, rfl, hext, payload, receiptId, decidedAt, hsigned,
        hfields⟩

end CapabilityBroker
end Atcap
