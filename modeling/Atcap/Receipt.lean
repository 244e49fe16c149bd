import Std.Data.ExtTreeMap
import Atcap.Base.Program
import Atcap.Models

/-!
# Decision receipts

`src/atcap/receipt.py`. `ReceiptFields` are the values given to the payload's constructor;
a `DecisionReceiptPayload` is one that passed the field bounds and the semantic validator,
so an inconsistent payload cannot be built.
-/

namespace Atcap

open Base

/-- The algorithm of every receipt signature. -/
def jwsAlgorithm : Text := text "Ed25519"

/-- The protected type of every receipt. -/
def jwsType : Text := text "atcap-decision+jws"

/-- The schema every receipt names. -/
def receiptSchemaVersion : Text := text "atcap-decision-receipt/v1"

/-- `deciding_service`. -/
inductive DecidingService where
  | broker
  | inventoryd
  deriving DecidableEq, Repr

/-- `decision`. -/
inductive Verdict where
  | allow
  | deny
  deriving DecidableEq, Repr

/-- `business_result`. -/
inductive BusinessResult where
  | notApplicable
  | notInvoked
  | completed
  | failed
  deriving DecidableEq, Repr

/-- `artifact_hashes`: a dictionary, compared without regard to the order of its members. -/
abbrev ArtifactHashes := Std.ExtTreeMap Text Text

/-- The typed claims of a receipt, `schema_version` apart: it is the one literal. -/
structure ReceiptFields where
  receiptId : Text
  decidingService : DecidingService
  decision : Verdict
  reason : Reason
  decidedAt : Int
  credentialId : Option Text
  qualifiedScope : Option Text
  challengeTokenHash : Option Text
  manifestDigest : Option Text
  method : Option Text
  audience : Option Text
  argumentsDigest : Option Text
  recordId : Option Text
  invocationId : Option Int
  handlerCountSnapshot : Int
  handlerInvoked : Bool
  businessResult : BusinessResult
  artifactHashes : ArtifactHashes
  deriving DecidableEq

namespace ReceiptFields

/-- The bounds of the `Field` declarations. A length bound also rejects a lone surrogate. -/
def boundsHold (p : ReceiptFields) : Bool :=
  decide (32 ≤ p.receiptId.length) && p.receiptId.encodable && decide (0 ≤ p.decidedAt) &&
    (match p.invocationId with
      | some n => decide (1 ≤ n)
      | none => true) &&
    decide (0 ≤ p.handlerCountSnapshot)

/-- The part of `_consistent_decision_state` that only a broker receipt meets. -/
def checkBroker (p : ReceiptFields) : Except Exn Unit := do
  raiseIf (p.handlerInvoked ∨ p.businessResult ≠ .notApplicable)
    (.validation "broker receipts cannot describe handler execution")
  raiseIf (p.handlerCountSnapshot ≠ 0)
    (.validation "broker receipts cannot carry a handler counter")
  raiseIf (p.reason = .HANDLER_FAILED)
    (.validation "broker receipts cannot carry a handler result reason")
  raiseIf (decide (p.decision = .allow) ≠ decide (p.reason = .ALLOW))
    (.validation "broker decision and reason disagree")
  raiseIf (p.decision = .allow ∧ p.credentialId.isNone)
    (.validation "broker allow receipt must identify the credential")
  raiseIf (p.decision = .deny ∧ p.credentialId.isSome)
    (.validation "broker denial receipt cannot identify an issued credential")
  raiseIf (p.decision = .allow ∧ ¬ (truthy p.manifestDigest ∧ truthy p.challengeTokenHash ∧
      truthy p.qualifiedScope ∧ truthy p.artifactHashes[text "broker_policy_sha256"]?))
    (.validation "broker allow receipt is missing security bindings")

/-- What `_consistent_decision_state` asks of a resource denial. -/
def checkInventoryDeny (p : ReceiptFields) : Except Exn Unit := do
  raiseIf (p.reason = .ALLOW ∨ p.reason = .HANDLER_FAILED)
    (.validation "denial receipt carries an allow-path reason")
  raiseIf (p.handlerInvoked ∨ p.businessResult ≠ .notInvoked)
    (.validation "denial receipt cannot describe handler execution")

/-- What `_consistent_decision_state` asks of a resource allow. -/
def checkInventoryAllow (p : ReceiptFields) : Except Exn Unit := do
  raiseIf (p.credentialId.isNone ∨ ¬ p.handlerInvoked)
    (.validation "inventory allow receipt must identify an invocation")
  raiseIf (¬ (truthy p.challengeTokenHash ∧ truthy p.recordId ∧
      truthy p.artifactHashes[text "resource_policy_sha256"]?))
    (.validation "inventory allow receipt is missing security bindings")
  raiseIf (¬ (p.reason = .ALLOW ∧ p.businessResult = .completed) ∧
      ¬ (p.reason = .HANDLER_FAILED ∧ p.businessResult = .failed))
    (.validation "inventory allow decision, reason, and result disagree")

/-- The part of `_consistent_decision_state` that only a resource receipt meets. -/
def checkInventory (p : ReceiptFields) : Except Exn Unit := do
  raiseIf (¬ (truthy p.qualifiedScope ∧ truthy p.method ∧ truthy p.audience ∧
      truthy p.argumentsDigest))
    (.validation "inventory receipt is missing resource-binding claims")
  match p.decision with
  | .deny => p.checkInventoryDeny
  | .allow => p.checkInventoryAllow

/-- `_consistent_decision_state`. -/
def consistentDecisionState (p : ReceiptFields) : Except Exn Unit := do
  raiseIf (p.handlerInvoked ≠ p.invocationId.isSome)
    (.validation "handler_invoked and invocation_id disagree")
  raiseIf (p.invocationId.any fun n ↦ decide (p.handlerCountSnapshot < n))
    (.validation "handler counter snapshot precedes this invocation")
  match p.decidingService with
  | .broker => p.checkBroker
  | .inventoryd => p.checkInventory

/-- Field validation, then the semantic validator. -/
def check (p : ReceiptFields) : Except Exn Unit :=
  if p.boundsHold then p.consistentDecisionState
  else .error (.validation "a field is outside its bounds")

end ReceiptFields

/-- `DecisionReceiptPayload`: authenticated claims that passed validation. -/
structure DecisionReceiptPayload extends ReceiptFields where
  valid : toReceiptFields.check = .ok ()

/-- Payloads are equal when their claims are. -/
@[ext] theorem DecisionReceiptPayload.ext {p q : DecisionReceiptPayload}
    (h : p.toReceiptFields = q.toReceiptFields) : p = q := by
  cases p
  cases q
  cases h
  rfl

/-- The validating constructor. -/
def DecisionReceiptPayload.construct (p : ReceiptFields) : Except Exn DecisionReceiptPayload :=
  match h : p.check with
  | .ok () => .ok ⟨p, h⟩
  | .error e => .error e

/-- Construction keeps the claims it was given. -/
theorem DecisionReceiptPayload.construct_eq_ok {p : ReceiptFields} {q : DecisionReceiptPayload}
    (h : construct p = .ok q) : q.toReceiptFields = p := by
  unfold construct at h
  split at h
  · cases h
    rfl
  · cases h

/-- Construction succeeds exactly on the claims that pass validation. -/
theorem DecisionReceiptPayload.construct_of_check {p : ReceiptFields} (h : p.check = .ok ()) :
    construct p = .ok ⟨p, h⟩ := by
  unfold construct
  split
  · rfl
  · next e he =>
    rw [h] at he
    cases he

/-- Claims that are not valid raise `ValidationError`. -/
theorem DecisionReceiptPayload.construct_raises {p : ReceiptFields} {e : Exn}
    (h : DecisionReceiptPayload.construct p = .error e) : ∃ message, e = .validation message := by
  have hraise : ∀ {c : Prop} [Decidable c] {message : String} {e : Exn},
      raiseIf c (Exn.validation message) = .error e → ∃ message, e = .validation message := by
    intro c _ message e he
    exact ⟨message, (raiseIf_eq_error.mp he).2⟩
  unfold DecisionReceiptPayload.construct at h
  split at h
  · cases h
  · next e' he =>
    cases h
    unfold ReceiptFields.check at he
    split at he
    · simp only [ReceiptFields.consistentDecisionState, bind_eq_error] at he
      obtain he | ⟨_, _, he | ⟨_, _, he⟩⟩ := he
      · exact hraise he
      · exact hraise he
      split at he
      · simp only [ReceiptFields.checkBroker, bind_eq_error] at he
        obtain he |
          ⟨_, _, he | ⟨_, _, he | ⟨_, _, he | ⟨_, _, he | ⟨_, _, he | ⟨_, _, he⟩⟩⟩⟩⟩⟩ := he
        all_goals exact hraise he
      · simp only [ReceiptFields.checkInventory, bind_eq_error] at he
        obtain he | ⟨_, _, he⟩ := he
        · exact hraise he
        split at he
        · simp only [ReceiptFields.checkInventoryDeny, bind_eq_error] at he
          obtain he | ⟨_, _, he⟩ := he
          all_goals exact hraise he
        · simp only [ReceiptFields.checkInventoryAllow, bind_eq_error] at he
          obtain he | ⟨_, _, he | ⟨_, _, he⟩⟩ := he
          all_goals exact hraise he
    · cases he
      exact ⟨_, rfl⟩

/-- The string of a deciding service. -/
def DecidingService.value : DecidingService → Text
  | .broker => text "broker"
  | .inventoryd => text "inventoryd"

/-- The string of a decision. -/
def Verdict.value : Verdict → Text
  | .allow => text "allow"
  | .deny => text "deny"

/-- The string of a business result. -/
def BusinessResult.value : BusinessResult → Text
  | .notApplicable => text "not_applicable"
  | .notInvoked => text "not_invoked"
  | .completed => text "completed"
  | .failed => text "failed"

/-- `payload.model_dump(mode="json")`. -/
def ReceiptFields.modelDump (p : ReceiptFields) : Value :=
  .dict [(text "schema_version", .str receiptSchemaVersion),
    (text "receipt_id", .str p.receiptId),
    (text "deciding_service", .str p.decidingService.value),
    (text "decision", .str p.decision.value), (text "reason", .str p.reason.value),
    (text "decided_at", .int p.decidedAt), (text "credential_id", .ofText? p.credentialId),
    (text "qualified_scope", .ofText? p.qualifiedScope),
    (text "challenge_token_hash", .ofText? p.challengeTokenHash),
    (text "manifest_digest", .ofText? p.manifestDigest), (text "method", .ofText? p.method),
    (text "audience", .ofText? p.audience),
    (text "arguments_digest", .ofText? p.argumentsDigest),
    (text "record_id", .ofText? p.recordId), (text "invocation_id", .ofInt? p.invocationId),
    (text "handler_count_snapshot", .int p.handlerCountSnapshot),
    (text "handler_invoked", .bool p.handlerInvoked),
    (text "business_result", .str p.businessResult.value),
    (text "artifact_hashes", .dict (p.artifactHashes.toList.map fun m ↦ (m.1, .str m.2)))]

/-- The protected header of a receipt signed under key id `keyId`. -/
def protectedHeader (keyId : Text) : Value :=
  .dict [(text "alg", .str jwsAlgorithm), (text "kid", .str keyId), (text "typ", .str jwsType)]

/-- `ReceiptSigner`. -/
structure ReceiptSigner where
  privateKey : Bytes
  keyId : Text

/-- `ReceiptSigner.sign`. -/
def ReceiptSigner.sign (lib : Libraries) (s : ReceiptSigner) (payload : DecisionReceiptPayload) :
    Except Exn SignedDecisionReceipt := do
  let data ← canonicalJson lib payload.modelDump
  let compact ← lib.jwsSerializeCompact (protectedHeader s.keyId) data s.privateKey
  return ⟨compact⟩

end Atcap
