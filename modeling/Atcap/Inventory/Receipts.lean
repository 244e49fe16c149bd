import Atcap.Inventory.Spec

/-!
# The receipts of inventoryd can be built

A receipt is validated before it is signed. Each of the three kinds of arguments `_receipt` is
called with passes the validation, whatever it reads, as long as the policy names its scope, its
method and its audience and the clock is not negative.
-/

namespace Atcap

open Base

/-- A text is truthy when it is not empty. -/
@[simp] theorem truthy_some {t : Text} : truthy (some t) = true ↔ t ≠ [] := by
  cases t with
  | nil => simp [truthy]
  | cons c rest => simp [truthy]

/-- The policy names the three strings that every resource receipt carries. -/
structure ResourcePolicy.Named (policy : ResourcePolicy) : Prop where
  scope : policy.qualifiedScope ≠ []
  method : policy.method ≠ []
  audience : policy.audience ≠ []

/-- The receipt identifiers that the bounds accept. -/
def ReceiptId (receiptId : Text) : Prop := 32 ≤ receiptId.length ∧ receiptId.encodable = true

/-- Sixteen random bytes make a receipt identifier. -/
theorem receiptId_hex {b : Bytes} (h : b.length = 16) : ReceiptId (hex b) := by
  refine ⟨?_, encodable_hex b⟩
  rw [length_hex, h]

namespace InventoryApplication

variable {lib : Libraries} {app : InventoryApplication} {a : ReceiptArgs} {receiptId digest : Text}
  {decidedAt : Int} {snapshot : Nat}

/-- What a denial is built from: a denying reason and no invocation. -/
structure ReceiptArgs.Denies (a : ReceiptArgs) : Prop where
  decision : a.decision = .deny
  reason : a.reason ≠ .ALLOW ∧ a.reason ≠ .HANDLER_FAILED
  digest : a.argumentsDigest ≠ []
  invocationId : a.invocationId = none
  handlerInvoked : a.handlerInvoked = false
  businessResult : a.businessResult = .notInvoked

/-- The receipt of a denial can be built. -/
theorem check_of_denies (hp : app.policy.Named) (ha : a.Denies) (hid : ReceiptId receiptId)
    (hnow : 0 ≤ decidedAt) :
    (app.receiptFields a receiptId decidedAt snapshot digest).check = .ok () := by
  obtain ⟨hdecision, ⟨hallow, hfailed⟩, hdigest, hinvocation, hinvoked, hresult⟩ := ha
  have hbounds : (app.receiptFields a receiptId decidedAt snapshot digest).boundsHold = true := by
    simp [ReceiptFields.boundsHold, receiptFields, hid.1, hid.2, hnow, hinvocation]
  rw [ReceiptFields.check, if_pos hbounds]
  simp [ReceiptFields.consistentDecisionState, ReceiptFields.checkInventory,
    ReceiptFields.checkInventoryDeny, receiptFields, bind_eq_ok, hdecision, hallow, hfailed,
    hdigest, hinvocation, hinvoked, hresult, hp.scope, hp.method, hp.audience]

/-- What the receipt of an invocation is built from. -/
structure ReceiptArgs.Invokes (a : ReceiptArgs) (n : Nat) : Prop where
  decision : a.decision = .allow
  outcome : (a.reason = .ALLOW ∧ a.businessResult = .completed) ∨
    (a.reason = .HANDLER_FAILED ∧ a.businessResult = .failed)
  credential : a.credentialId.isSome
  challenge : truthy a.tokenHash = true
  record : truthy a.recordId = true
  digest : a.argumentsDigest ≠ []
  invocationId : a.invocationId = some n
  handlerInvoked : a.handlerInvoked = true

/-- The receipt of an invocation can be built once the counter has reached it. -/
theorem check_of_invokes {n : Nat} (hp : app.policy.Named) (ha : a.Invokes n)
    (hid : ReceiptId receiptId) (hnow : 0 ≤ decidedAt) (hn : 1 ≤ n) (hsnapshot : n ≤ snapshot)
    (hdigest : digest ≠ []) :
    (app.receiptFields a receiptId decidedAt snapshot digest).check = .ok () := by
  obtain ⟨hdecision, houtcome, hcredential, hchallenge, hrecord, harguments, hinvocation,
    hinvoked⟩ :=
    ha
  have hbounds : (app.receiptFields a receiptId decidedAt snapshot digest).boundsHold = true := by
    simp [ReceiptFields.boundsHold, receiptFields, hid.1, hid.2, hnow, hinvocation]
    omega
  have hpolicy : truthy (app.receiptFields a receiptId decidedAt snapshot
      digest).artifactHashes[text "resource_policy_sha256"]? = true := by
    simp [receiptFields, hdigest]
  have hcredential' : a.credentialId ≠ none := by
    intro hnone
    rw [hnone] at hcredential
    cases hcredential
  rw [ReceiptFields.check, if_pos hbounds]
  unfold ReceiptFields.consistentDecisionState ReceiptFields.checkInventory
    ReceiptFields.checkInventoryAllow
  simp only [hpolicy]
  rcases houtcome with ⟨hreason, hresult⟩ | ⟨hreason, hresult⟩
  · simp [receiptFields, bind_eq_ok, hdecision, hreason, hresult, harguments, hinvocation,
      hinvoked, hp.scope, hp.method, hp.audience, hchallenge, hrecord, hcredential']
    omega
  · simp [receiptFields, bind_eq_ok, hdecision, hreason, hresult, harguments, hinvocation,
      hinvoked, hp.scope, hp.method, hp.audience, hchallenge, hrecord, hcredential']
    omega

/-! ### Operations -/

variable {i : Nat}

/-- `_receipt` asks and signs, and does nothing else. -/
theorem issues_receipt (a : ReceiptArgs) :
    Body.Issues (fun e ↦ (e.isQuery || e.isSign) = true) (app.receipt lib i a) := by
  let P : Op → Prop := fun e ↦ (e.isQuery || e.isSign) = true
  unfold receipt
  apply Body.Issues.bind (.perform (show P (.tokenHex 16) from rfl))
  intro receiptId
  apply Body.Issues.bind (issues_readClock (show P .clock from rfl))
  intro decidedAt
  apply Body.Issues.bind (.perform (show P (.invocationCount i) from rfl))
  intro snapshot
  apply Body.Issues.bind (.ofExcept _)
  intro policyDigest
  apply Body.Issues.bind (.ofExcept _)
  intro payload
  exact .invoke (show P (.sign app.receiptSigner payload) from rfl) id

/-- `_receipt` extends its history by queries and a signature. -/
theorem receipt_extends {A : History → Event Op Op.Reply → Prop} (h : History) (a : ReceiptArgs) :
    Body.Sat A (fun _ _ ↦ True)
      (fun h' _ _ ↦ Prog.ExtendedBy (fun e ↦ (e.isQuery || e.isSign) = true) h h')
      (app.receipt lib i a) h () := by
  apply ((issues_receipt a A h ()).collect.mono _).weaken
  · intro _ _ _
    trivial
  · intro h' r l' hpost
    exact hpost.2

/-- Queries and signatures do not enter the handler. -/
theorem not_entered_of_extended {h h' : History}
    (he : Prog.ExtendedBy (fun e ↦ (e.isQuery || e.isSign) = true) h h')
    (hh : ∀ ev ∈ h, ev.op.entersHandler = false) : ∀ ev ∈ h', ev.op.entersHandler = false := by
  obtain ⟨q, rfl, hq⟩ := he
  intro ev hev
  rcases List.mem_append.mp hev with hev | hev
  · exact hh ev hev
  · have hop := hq ev hev
    rcases ev with ⟨e, r⟩
    cases e with
    | inventoryLookup => cases hop
    | clock | tokenHex | lib | sign | storeBrokerChallenge | consumeBrokerChallenge
    | storeResourceChallenge | getResourceChallenge | spend | recordInvocation
    | invocationCount => rfl

end InventoryApplication
end Atcap
