import Atcap.Broker.Spec
import Atcap.Inventory.Spec
import Atcap.System

/-!
# What every call guarantees

The program logic of the single calls, collected for the system: `Deployment.guarantee` is
what a call guarantees for each of its operations, `body_sat` that it does. From it follows
which calls can issue the operations that matter, and after which history.
-/

namespace Atcap

open Base

namespace Deployment

variable (D : Deployment)

/-- The redemption a call performs: its instance and its validated request. -/
def redemption? : Call → Option (Nat × LookupInput)
  | .redeem i request => some (i, request)
  | .callTool i name arguments =>
    if name ≠ text "inventory.challenge" ∧ name = (D.app i).policy.method then
      (LookupInput.modelValidate (arguments.getD [])).toOption.map fun request ↦ (i, request)
    else none
  | _ => none

/-- Whether a call issues a resource challenge. -/
def issuesChallenge : Call → Bool
  | .issueResourceChallenge .. => true
  | .callTool _ name _ => decide (name = text "inventory.challenge")
  | _ => false

/-- What a call that performs no redemption guarantees. -/
def guaranteeOther : Call → History → Op → Prop
  | .newChallenge b => CapabilityBroker.newChallengeGuarantee (D.broker b)
  | .issue b request manifest tpmEvidence =>
    CapabilityBroker.issueGuarantee D.lib (D.broker b) request manifest tpmEvidence
  | .issueResourceChallenge i _ _ _ => (D.app i).unauthenticatedGuarantee D.lib true
  | .redeem i _ => (D.app i).unauthenticatedGuarantee D.lib false
  | .directLookupAttempt i _ => (D.app i).unauthenticatedGuarantee D.lib false
  | .callTool i name _ => (D.app i).unauthenticatedGuarantee D.lib
      (decide (name = text "inventory.challenge"))

/-- What a call guarantees for each operation it issues after a history. -/
def guarantee (c : Call) : History → Op → Prop :=
  match D.redemption? c with
  | some (i, request) => InventoryApplication.redeemGuarantee D.lib (D.app i) i request
  | none => D.guaranteeOther c

/-- What holds of the history and the answer of a finished call. -/
def outcome : Call → History → Except Exn Answer → Prop
  | .newChallenge _, h, a => ∀ token, a = .ok (.token token) →
      ∃ tokenHash issuedAt expiresAt, challengeTokenHash token = .ok tokenHash ∧
        ⟨.storeBrokerChallenge tokenHash issuedAt expiresAt, .ok ()⟩ ∈ h
  | .issue b request manifest tpmEvidence, h, a => ∀ d, a = .ok (.decision d) →
      d.allowed = true → ∃ s : CapabilityBroker.Submission, s.Typed request tpmEvidence ∧
        s.Granted D.lib (D.broker b) manifest d h
  | _, _, _ => True

variable {D} {A : History → Event Op Op.Reply → Prop}

private theorem denyTool_sat {issues : Bool} {i : Nat} {arguments : List (Text × Value)}
    {h : History} :
    Body.Sat A ((D.app i).unauthenticatedGuarantee D.lib issues) (fun _ _ _ ↦ True)
      ((D.app i).denyTool D.lib i arguments) h () := by
  unfold InventoryApplication.denyTool
  apply Body.Sat.bind InventoryApplication.directLookupAttempt_sat
  · intro _ _ _ _ _
    trivial
  · intro h' d l' _ _
    rw [Body.sat_ofExcept]
    trivial

private theorem challengeTool_sat {i : Nat} {arguments : List (Text × Value)} :
    Body.Sat A ((D.app i).unauthenticatedGuarantee D.lib true) (fun _ _ _ ↦ True)
      ((D.app i).challengeTool D.lib arguments) [] () := by
  unfold InventoryApplication.challengeTool
  apply Body.Sat.ofExcept
  · intro x _
    trivial
  intro request _
  apply Body.Sat.bind (InventoryApplication.issueResourceChallenge_sat quiet_nil)
  · intro _ _ _ _ _
    trivial
  · intro h' challenge l' _ _
    rw [Body.sat_ofExcept]
    trivial

/-- Every operation of `_call_tool` satisfies the guarantee of the call. -/
theorem callTool_sat {i : Nat} {name : Text} {arguments : Option (List (Text × Value))} :
    Body.Sat A (D.guarantee (.callTool i name arguments)) (fun _ _ _ ↦ True)
      ((D.app i).callTool D.lib i name arguments) [] () := by
  unfold InventoryApplication.callTool guarantee redemption?
  dsimp only
  by_cases hc : name = text "inventory.challenge"
  · rw [if_pos hc, if_neg (fun h ↦ h.1 hc)]
    simp only [guaranteeOther, hc, decide_true]
    apply Body.Sat.attempt challengeTool_sat
    intro h' outcome l' _ _
    cases outcome with
    | ok result => trivial
    | error e =>
      dsimp only
      split
      · exact denyTool_sat
      · trivial
  · rw [if_neg hc]
    by_cases hm : name = (D.app i).policy.method
    · rw [if_pos hm, if_pos ⟨hc, hm⟩]
      cases hv : LookupInput.modelValidate (arguments.getD []) with
      | error e => exact denyTool_sat
      | ok request =>
        apply Body.Sat.attempt InventoryApplication.redeem_sat
        intro h' outcome l' _ _
        rw [Body.sat_ofExcept]
        trivial
    · rw [if_neg hm, if_neg (fun h ↦ hm h.2)]
      exact denyTool_sat

/-- A tool call that redeems is the redemption of its validated request. -/
theorem callTool_eq_redeem {i j : Nat} {name : Text} {arguments : Option (List (Text × Value))}
    {request : LookupInput} (h : D.redemption? (.callTool i name arguments) = some (j, request)) :
    j = i ∧ (D.app i).callTool D.lib i name arguments = (do
      let (outcome, _) ← Body.attempt ((D.app i).redeem D.lib i request) ()
      Body.ofExcept (InventoryApplication.lookupResult D.lib outcome)) := by
  unfold redemption? at h
  dsimp only at h
  split at h
  · next hname =>
    obtain ⟨request', hvalid, heq⟩ := Option.map_eq_some_iff.mp h
    cases heq
    have hok : LookupInput.modelValidate (arguments.getD []) = .ok request := by
      cases hv : LookupInput.modelValidate (arguments.getD []) with
      | error e =>
        rw [hv] at hvalid
        cases hvalid
      | ok r =>
        rw [hv] at hvalid
        cases hvalid
        rfl
    refine ⟨rfl, ?_⟩
    rw [InventoryApplication.callTool]
    dsimp only
    rw [if_neg hname.1, if_pos hname.2, hok]
  · cases h

/-- Every operation of every call satisfies its guarantee, and every answer its outcome. -/
theorem body_sat (c : Call) :
    (D.system.body c).Sat A (D.guarantee c) (D.outcome c) [] := by
  change (D.body c).prog.Sat A (D.guarantee c) (D.outcome c) []
  rw [Body.sat_prog]
  cases c with
  | newChallenge b =>
    apply Body.Sat.map
    apply CapabilityBroker.newChallenge_sat.mono
    intro h r l hpost token ha
    cases r with
    | error e => cases ha
    | ok t =>
      cases ha
      exact hpost token rfl
  | issue b request manifest tpmEvidence =>
    apply Body.Sat.map
    apply CapabilityBroker.issue_sat.mono
    intro h r l hpost d ha
    cases r with
    | error e => cases ha
    | ok t =>
      cases ha
      exact hpost d rfl
  | issueResourceChallenge i credentialId arguments recordId =>
    exact Body.Sat.map (InventoryApplication.issueResourceChallenge_sat quiet_nil)
  | redeem i request => exact Body.Sat.map InventoryApplication.redeem_sat
  | directLookupAttempt i arguments =>
    exact Body.Sat.map InventoryApplication.directLookupAttempt_sat
  | callTool i name arguments => exact Body.Sat.map callTool_sat

/-! ### Which calls issue the operations that matter -/

section Inversion

open InventoryApplication

variable {c : Call} {h : History}

/-- Only a redemption spends, once, after every check. -/
theorem guarantee_spend {a : SpendArgs} (hg : D.guarantee c h (.spend a)) :
    ∃ i request, D.redemption? c = some (i, request) ∧ ∃ p : Presentation,
      a = p.spendArgs (D.app i) request ∧ Quiet h ∧ p.Checked D.lib (D.app i) request h := by
  unfold guarantee at hg
  cases hr : D.redemption? c with
  | some ir =>
    rw [hr] at hg
    exact ⟨ir.1, ir.2, rfl, hg⟩
  | none =>
    rw [hr] at hg
    cases c with
    | newChallenge | issue | issueResourceChallenge | redeem | directLookupAttempt | callTool =>
      cases hg

/-- Only an admitted redemption increments the invocation counter. -/
theorem guarantee_recordInvocation {j : Nat} (hg : D.guarantee c h (.recordInvocation j)) :
    ∃ i request, D.redemption? c = some (i, request) ∧ j = i ∧ ∃ p : Presentation,
      p.Admitted D.lib (D.app i) request h := by
  unfold guarantee at hg
  cases hr : D.redemption? c with
  | some ir =>
    rw [hr] at hg
    exact ⟨ir.1, ir.2, rfl, hg⟩
  | none =>
    rw [hr] at hg
    cases c with
    | newChallenge | issue | issueResourceChallenge | redeem | directLookupAttempt | callTool =>
      cases hg

/-- Only an admitted redemption enters the handler. -/
theorem guarantee_inventoryLookup {j : Nat} {sku : Text}
    (hg : D.guarantee c h (.inventoryLookup j sku)) :
    ∃ i request, D.redemption? c = some (i, request) ∧ j = i ∧ sku = request.sku.val ∧
      ∃ (p : Presentation) (h₀ : History) (n : Nat), p.Admitted D.lib (D.app i) request h₀ ∧
        h = h₀ ++ [⟨.recordInvocation i, n⟩] := by
  unfold guarantee at hg
  cases hr : D.redemption? c with
  | some ir =>
    rw [hr] at hg
    exact ⟨ir.1, ir.2, rfl, hg⟩
  | none =>
    rw [hr] at hg
    cases c with
    | newChallenge | issue | issueResourceChallenge | redeem | directLookupAttempt | callTool =>
      cases hg

/-- A credential is parsed by a redemption, as its first operation. -/
theorem guarantee_parse {d : Value} (hg : D.guarantee c h (.lib (.credentialFromDict d)))
    (hc : (D.redemption? c).isSome) : h = [] := by
  unfold guarantee at hg
  cases hr : D.redemption? c with
  | some ir =>
    rw [hr] at hg
    exact hg.2 rfl
  | none =>
    rw [hr] at hc
    cases hc

/-- A resource challenge is stored by a call that issues it, for exactly what it asked. -/
theorem guarantee_storeResourceChallenge {tokenHash : Text} {context : ChallengeContext}
    {issuedAt expiresAt : Int}
    (hg : D.guarantee c h (.storeResourceChallenge tokenHash context issuedAt expiresAt)) :
    issuesChallenge c = true ∧ ∃ i, c.owner = .inventoryd i ∧
      (D.app i).ChallengeIssued D.lib tokenHash context issuedAt expiresAt h := by
  unfold guarantee at hg
  cases hr : D.redemption? c with
  | some ir =>
    rw [hr] at hg
    cases hg.1
  | none =>
    rw [hr] at hg
    cases c with
    | newChallenge | issue => cases hg
    | issueResourceChallenge i credentialId arguments recordId => exact ⟨rfl, i, rfl, hg.2.1⟩
    | redeem i request => cases hg.1
    | directLookupAttempt i arguments => cases hg.1
    | callTool i name arguments => exact ⟨hg.1, i, rfl, hg.2.1⟩

/-- A broker challenge is stored by a `new_challenge`, for the token it made. -/
theorem guarantee_storeBrokerChallenge {tokenHash : Text} {issuedAt expiresAt : Int}
    (hg : D.guarantee c h (.storeBrokerChallenge tokenHash issuedAt expiresAt)) :
    ∃ b, c = .newChallenge b ∧ (D.broker b).newChallengeGuarantee h
      (.storeBrokerChallenge tokenHash issuedAt expiresAt) := by
  unfold guarantee at hg
  cases hr : D.redemption? c with
  | some ir =>
    rw [hr] at hg
    cases hg.1
  | none =>
    rw [hr] at hg
    cases c with
    | newChallenge b => exact ⟨b, rfl, hg⟩
    | issue | issueResourceChallenge | redeem | directLookupAttempt | callTool => cases hg

/-- The three kinds of receipts: of a broker, of a denial before any invocation, and of an
invocation. -/
theorem guarantee_sign {signer : ReceiptSigner} {payload : DecisionReceiptPayload}
    (hg : D.guarantee c h (.sign signer payload)) :
    payload.decidingService = .broker ∨
    (payload.decidingService = .inventoryd ∧ payload.decision = .deny ∧
      payload.handlerInvoked = false ∧ payload.invocationId = none ∧
      (D.redemption? c = none ∨ Unserved h)) ∨
    ∃ i request, D.redemption? c = some (i, request) ∧ ∃ (p : Presentation) (n : Nat),
      p.Invoked D.lib (D.app i) i request n h ∧
      ∃ completed receiptId decidedAt snapshot digest, payload.toReceiptFields =
        (D.app i).receiptFields (invocationArgs request p.argumentsDigest p.locals n completed)
          receiptId decidedAt snapshot digest := by
  unfold guarantee at hg
  cases hr : D.redemption? c with
  | some ir =>
    rw [hr] at hg
    obtain ⟨_, receiptId, decidedAt, snapshot, digest, a, hpayload, hcase⟩ := hg
    right
    rcases hcase with ⟨argumentsDigest, reason, locals, rfl, hu⟩ | ⟨p, n, completed, hp, rfl⟩
    · left
      rw [hpayload]
      exact ⟨rfl, rfl, rfl, rfl, .inr hu⟩
    · right
      exact ⟨ir.1, ir.2, rfl, p, n, hp, completed, receiptId, decidedAt, snapshot, digest,
        hpayload⟩
  | none =>
    rw [hr] at hg
    cases c with
    | newChallenge => cases hg
    | issue => exact .inl hg.2
    | issueResourceChallenge | redeem | directLookupAttempt | callTool =>
      obtain ⟨_, argumentsDigest, receiptId, decidedAt, snapshot, digest, hpayload⟩ := hg
      right
      left
      rw [hpayload]
      exact ⟨rfl, rfl, rfl, rfl, .inl rfl⟩

end Inversion
end Deployment
end Atcap
