import Atcap.Broker.Outcome
import Atcap.Inventory.Numbering
import Atcap.Policy.Commitment
import Atcap.System.Calls
import Atcap.System.Schedule

/-!
# Receipts name the policy they were decided under

Every receipt that a service signs carries the hash of the service's policy, and the hash commits
to the whole policy.
-/

namespace Atcap

open Base System

namespace InventoryApplication

variable {lib : Libraries} {app : InventoryApplication} {i : Nat} {request : LookupInput}

/-- Every receipt that is signed carries the hash of the resource policy. -/
def SignsPolicy (lib : Libraries) (app : InventoryApplication) : Op → Prop
  | .sign _ payload => payload.artifactHashes[text "resource_policy_sha256"]? =
      (app.policy.sha256 lib).toOption
  | _ => True

/-- `_receipt` signs the hash of the policy. -/
theorem receipt_signsPolicy (a : ReceiptArgs) :
    Body.Issues (SignsPolicy lib app) (app.receipt lib i a) := by
  intro A h l
  unfold receipt readClock
  apply Body.Sat.perform trivial
  intro receiptId _
  apply Body.Sat.invoke trivial
  · intro _ _ _ _
    trivial
  intro _ decidedAt _ _
  apply Body.Sat.perform trivial
  intro snapshot _
  apply Body.Sat.ofExcept
  · intro _ _
    trivial
  intro digest hdigest
  apply Body.Sat.ofExcept
  · intro _ _
    trivial
  intro payload hpayload
  rw [Body.sat_invoke]
  refine ⟨?_, fun _ _ ↦ trivial⟩
  have hsha : app.policy.sha256 lib = .ok digest := hdigest
  have hfields := DecisionReceiptPayload.construct_eq_ok hpayload
  change payload.artifactHashes[text "resource_policy_sha256"]? = (app.policy.sha256 lib).toOption
  rw [hsha, hfields]
  simp [receiptFields, Except.toOption]

/-- `redeem` signs the hash of the policy. -/
theorem redeem_signsPolicy : Body.Issues (SignsPolicy lib app) (app.redeem lib i request) := by
  have hdeciding : ∀ e : Op, e.isDeciding = true → SignsPolicy lib app e := by
    intro e he
    cases e with
    | sign => cases he
    | clock | tokenHex | lib | storeBrokerChallenge | consumeBrokerChallenge
    | storeResourceChallenge | getResourceChallenge | spend | recordInvocation | invocationCount
    | inventoryLookup => trivial
  have hreceipt : ∀ digest locals n completed, Body.Issues (SignsPolicy lib app)
      (app.invocationReceipt lib i request digest locals n completed) := by
    intro digest locals n completed
    apply Body.Issues.bind (.attempt _ (receipt_signsPolicy _))
    intro r
    exact .ofExcept _
  unfold redeem
  apply Body.Issues.bind (.ofExcept _)
  intro digest
  apply Body.Issues.bind (.attempt _ ((authorize_deciding digest).mono hdeciding))
  rintro ⟨outcome, locals⟩
  cases outcome with
  | error e =>
    apply Body.Issues.bind (receipt_signsPolicy _)
    intro receipt
    exact .pure _
  | ok u =>
    apply Body.Issues.bind (.perform trivial)
    intro n
    apply Body.Issues.bind
    · apply Body.Issues.attempt
      apply Body.Issues.bind (.invoke trivial _)
      intro result
      exact .ofExcept _
    rintro ⟨handled, _⟩
    cases handled with
    | error e => exact .bind (hreceipt _ _ _ _) fun _ ↦ .pure _
    | ok result => exact .bind (hreceipt _ _ _ _) fun _ ↦ .pure _

/-- `direct_lookup_attempt` signs the hash of the policy. -/
theorem directLookupAttempt_signsPolicy (arguments : List (Text × Value)) :
    Body.Issues (SignsPolicy lib app) (app.directLookupAttempt lib i arguments) := by
  apply Body.Issues.bind (.ofExcept _)
  intro digest
  apply Body.Issues.bind (receipt_signsPolicy _)
  intro receipt
  exact .pure _

/-- `issue_resource_challenge` signs nothing. -/
theorem issueResourceChallenge_signsPolicy (credentialId : Text) (arguments : InventoryArguments)
    (recordId : Text) : Body.Issues (SignsPolicy lib app)
      (app.issueResourceChallenge lib credentialId arguments recordId) := by
  unfold issueResourceChallenge
  apply Body.Issues.bind (.raiseIf _ _)
  intro _
  apply Body.Issues.bind (issues_readClock trivial)
  intro issuedAt
  apply Body.Issues.bind
    (issues_issueCa2aChallengeAt (fun _ ↦ trivial) (fun _ ↦ trivial) _ _ _)
  rintro ⟨token, expiresAt⟩
  apply Body.Issues.bind (.ofExcept _)
  intro digest
  apply Body.Issues.bind (.ofExcept _)
  intro tokenHash
  apply Body.Issues.bind (.invoke trivial _)
  intro _
  exact .pure _

/-- `_call_tool` signs the hash of the policy. -/
theorem callTool_signsPolicy (name : Text) (arguments : Option (List (Text × Value))) :
    Body.Issues (SignsPolicy lib app) (app.callTool lib i name arguments) := by
  have hdeny : Body.Issues (SignsPolicy lib app) (app.denyTool lib i (arguments.getD [])) :=
    .bind (directLookupAttempt_signsPolicy _) fun _ ↦ .ofExcept _
  unfold callTool
  dsimp only
  split
  · have htool : Body.Issues (SignsPolicy lib app)
        (app.challengeTool lib (arguments.getD [])) :=
      .bind (.ofExcept _) fun _ ↦ .bind (issueResourceChallenge_signsPolicy _ _ _) fun _ ↦
        .ofExcept _
    apply Body.Issues.bind (.attempt _ htool)
    rintro ⟨outcome, _⟩
    cases outcome with
    | ok result => exact .pure _
    | error e =>
      dsimp only
      split
      · exact hdeny
      · exact fun _ _ _ ↦ trivial
  · split
    · split
      · exact hdeny
      · apply Body.Issues.bind (.attempt _ redeem_signsPolicy)
        intro r
        exact .ofExcept _
    · exact hdeny

end InventoryApplication

namespace Deployment

variable {D : Deployment} {w : World} {tr : D.Trace} {t : Nat} {c : Call}
  {s : Config Op Op.Reply World Call (Except Exn Answer)}

/-- The name and the value of the policy hash of a service. -/
def policyHash (D : Deployment) : Service → Text × Except Exn Text
  | .broker b => (text "broker_policy_sha256", (D.broker b).policy.sha256 D.lib)
  | .inventoryd i => (text "resource_policy_sha256", (D.app i).policy.sha256 D.lib)

/-- A receipt that carries the policy hash of a service. -/
def CarriesPolicy (D : Deployment) (service : Service) : Op → Prop
  | .sign _ payload =>
    payload.artifactHashes[(D.policyHash service).1]? = (D.policyHash service).2.toOption
  | _ => True

/-- Every call signs the policy hash of its service. -/
theorem body_carriesPolicy (c : Call) :
    (D.system.body c).Sat (fun _ _ ↦ True) (fun _ e ↦ D.CarriesPolicy c.owner e)
      (fun _ _ ↦ True) [] := by
  have hinventory : ∀ {i : Nat} {e : Op}, (D.app i).SignsPolicy D.lib e →
      D.CarriesPolicy (.inventoryd i) e := by
    intro i e he
    cases e with
    | sign signer payload => exact he
    | clock | tokenHex | lib | storeBrokerChallenge | consumeBrokerChallenge
    | storeResourceChallenge | getResourceChallenge | spend | recordInvocation | invocationCount
    | inventoryLookup => trivial
  apply Body.sat_prog.mpr
  cases c with
  | newChallenge b =>
    apply Body.Sat.map
    exact issues_newChallenge (P := D.CarriesPolicy (.broker b)) trivial (fun _ ↦ trivial)
      (fun _ ↦ trivial) (fun _ _ _ ↦ trivial) _ _ _ _
  | issue b raw manifest rawEvidence =>
    apply Body.Sat.map
    apply CapabilityBroker.issue_signsWith.weaken
    intro h e he
    cases e with
    | sign signer payload =>
      obtain ⟨_, hhashes⟩ := he
      change payload.artifactHashes[text "broker_policy_sha256"]? =
        ((D.broker b).policy.sha256 D.lib).toOption
      rw [hhashes]
      exact CapabilityBroker.policyHash_derived
    | clock | tokenHex | lib | storeBrokerChallenge | consumeBrokerChallenge
    | storeResourceChallenge | getResourceChallenge | spend | recordInvocation | invocationCount
    | inventoryLookup => trivial
  | issueResourceChallenge i credentialId arguments recordId =>
    apply Body.Sat.map
    exact (InventoryApplication.issueResourceChallenge_signsPolicy _ _ _).mono
      (fun _ ↦ hinventory) _ _ _
  | redeem i request =>
    apply Body.Sat.map
    exact InventoryApplication.redeem_signsPolicy.mono (fun _ ↦ hinventory) _ _ _
  | directLookupAttempt i arguments =>
    apply Body.Sat.map
    exact (InventoryApplication.directLookupAttempt_signsPolicy _).mono
      (fun _ ↦ hinventory) _ _ _
  | callTool i name arguments =>
    apply Body.Sat.map
    exact (InventoryApplication.callTool_signsPolicy _ _).mono (fun _ ↦ hinventory) _ _ _

/-- Every receipt of a run carries the policy hash of the service that signs it. -/
theorem receipt_carriesPolicy (h : D.system.Run w tr s) (hc : Label.start t c ∈ tr)
    {signer : ReceiptSigner} {payload : DecisionReceiptPayload}
    {r : Except Exn SignedDecisionReceipt} (hs : ⟨.sign signer payload, r⟩ ∈ D.history t tr) :
    payload.artifactHashes[(D.policyHash c.owner).1]? = (D.policyHash c.owner).2.toOption := by
  obtain ⟨pre, post, he⟩ := List.append_of_mem hs
  have hg := h.guarantee_history (A := fun _ _ _ ↦ True)
    (G := fun c _ e ↦ D.CarriesPolicy c.owner e) (Q := fun _ _ _ ↦ True) hc
    (body_carriesPolicy c) he fun _ _ _ _ ↦ trivial
  exact hg

/-- Policy hashes commit to the whole policy, unless SHA-256 collides: two broker policies with one
hash are equal, two resource policies with one hash are equal, and a receipt that any run signs
carries the hash of no policy but the one of the service that signed it. -/
theorem policy_commitment (law : Rfc8785 D.lib) :
    (∀ (p q : BrokerPolicy) digest, p.sha256 D.lib = .ok digest → q.sha256 D.lib = .ok digest →
      p = q ∨ Collides p.tpm.trustedRootsPem q.tpm.trustedRootsPem ∨
      ∃ dict dict' data data', p.publicDict = .ok dict ∧ q.publicDict = .ok dict' ∧
        canonicalJson D.lib dict = .ok data ∧ canonicalJson D.lib dict' = .ok data' ∧
        Collides data data') ∧
    (∀ (p q : ResourcePolicy) digest, p.sha256 D.lib = .ok digest → q.sha256 D.lib = .ok digest →
      p = q ∨ ∃ data data', canonicalJson D.lib p.publicDict = .ok data ∧
        canonicalJson D.lib q.publicDict = .ok data' ∧ Collides data data') ∧
    (∀ w tr s t c signer payload r, D.system.Run w tr s → Label.start t c ∈ tr →
      ⟨.sign signer payload, r⟩ ∈ D.history t tr →
      payload.artifactHashes[(D.policyHash c.owner).1]? = (D.policyHash c.owner).2.toOption) := by
  refine ⟨?_, ?_, ?_⟩
  · intro p q digest hp hq
    exact BrokerPolicy.eq_of_sha256 law hp hq
  · intro p q digest hp hq
    exact ResourcePolicy.eq_of_sha256 law hp hq
  · intro w tr s t c signer payload r h hc hs
    exact receipt_carriesPolicy h hc hs

/-- The law at a resource policy and the one with a longer challenge lifetime: one hash for both
would be a collision. -/
theorem policy_commitment_challengeTtl :
    Rfc8785 Demo.deployment.lib ∧
      ∀ digest, Demo.app.policy.sha256 Demo.deployment.lib = .ok digest →
      ResourcePolicy.sha256 Demo.deployment.lib
        { Demo.app.policy with challengeTtlSeconds := 61 } = .ok digest →
      ∃ data data', Collides data data' := by
  refine ⟨rfc8785_standIn, ?_⟩
  intro digest h h'
  obtain heq | ⟨data, data', _, _, hcollides⟩ :=
    (policy_commitment (D := Demo.deployment) rfc8785_standIn).2.1 _ _ digest h h'
  · have httl : (60 : Int) = 61 := congrArg ResourcePolicy.challengeTtlSeconds heq
    cases httl
  · exact ⟨data, data', hcollides⟩

end Deployment
end Atcap
