import Atcap.Reference
import Atcap.System

/-!
# Scheduled calls

Runs of a deployment that can be computed. A `Scenario` fixes what the environment decides in one
step; `honest` answers the calls of the released packages as they do for well-formed requests.
-/

namespace Atcap

open Base

/-! ### What the packages answer -/

namespace StandIn

/-- The members of a credential under their wire names, the signature apart. -/
def credentialMembers (c : Credential) : List (Text × Value) :=
  [(text "credential_id", .str c.credentialId), (text "issuer", .str c.issuer),
    (text "subject", .str c.subject),
    (text "not_before", .ofInt? c.notBefore), (text "not_after", .ofInt? c.notAfter)]

/-- A member that is a text. -/
def textMember (v : Value) (name : String) : Option Text :=
  match v.get? (text name) with
  | some (.str t) => some t
  | _ => none

/-- A member that is an integer. -/
def intMember (v : Value) (name : String) : Option Int :=
  match v.get? (text name) with
  | some (.int n) => some n
  | _ => none

/-- The credential that a dictionary spells, for one scope. -/
def credentialOf (scope : Text) (v : Value) : Option Credential := do
  let credentialId ← textMember v "credential_id"
  let issuer ← textMember v "issuer"
  let subject ← textMember v "subject"
  let signature ← textMember v "signature"
  return ⟨credentialId, issuer, subject, {scope}, 0, none, intMember v "not_before",
    intMember v "not_after", signature⟩

/-- Whether a chain of one credential is issued by a trusted root and valid at a time. -/
def verifyChain (chain : List Credential) (roots : Finset Text) (atTime : Int) : Except Exn Unit :=
  match chain with
  | [c] => do
    raiseIf (c.issuer ∉ roots) .untrustedDelegationRoot
    raiseIf (c.notBefore.any (fun n ↦ decide (atTime < n)) ∨
      c.notAfter.any (fun n ↦ decide (n < atTime))) .credentialExpired
  | _ => .error .invalidCredential

/-- A certificate with the profile of an AK leaf. -/
def leaf : Certificate := ⟨0, 2 ^ 40, .ok ⟨false, none⟩, .ok ⟨true, false⟩⟩

/-- A certificate with the profile of an authority. -/
def authority : Certificate := ⟨0, 2 ^ 40, .ok ⟨true, none⟩, .ok ⟨true, true⟩⟩

/-- Answers of the packages to well-formed requests for one scope and one set of TPM roots. -/
def honest (scope : Text) (roots : Bytes) : (c : LibCall) → Except Exn c.Result
  | .credentialFromDict d => orRaise (credentialOf scope d) .invalidCredential
  | .verifyChain chain _ roots atTime => verifyChain chain roots atTime
  | .holderProofFromDict d =>
    orRaise ((textMember d "challenge").map fun challenge ↦ ⟨challenge, d⟩) .holderProofInvalid
  | .verifyHolderProof c =>
    raiseIf (textMember c.proof.claims "record_id" ≠ some c.recordId) .holderProofInvalid
  | .verifyChallenge .. => .ok ()
  | .credentialSign c _ => .ok { c with signature := c.credentialId }
  | .credentialBody c => .ok (credentialMembers c)
  | .manifestNormalize m => .ok m
  | .manifestCanonicalHash _ => .ok (text "m")
  | .verifyManifest .. => .ok ⟨true, true⟩
  | .ed25519PublicKey _ => .ok ()
  | .ed25519Verify .. => .ok ()
  | .readPcrSelection _ => .ok []
  | .evaluationTime => .ok (.aware 1)
  | .loadPemX509Certificates pem => .ok (if pem = roots then [authority] else [leaf, authority])
  | .verifyTpmQuote _ => .ok (.bool true)
  | .appraise .. => .ok ()

end StandIn

/-! ### Scenarios -/

/-- What the environment decides in a step: the time, the random bytes and the packages. -/
structure Scenario where
  now : Int
  seed : UInt8
  lib : (c : LibCall) → Except Exn c.Result

/-- The input of an operation; nothing fails that the packages do not fail. -/
def Scenario.input (x : Scenario) : (e : Op) → e.Input
  | .clock => .ok x.now
  | .tokenHex n => ⟨List.replicate n x.seed, List.length_replicate⟩
  | .lib c => x.lib c
  | .sign .. => none
  | .storeBrokerChallenge .. => Faults.none
  | .consumeBrokerChallenge _ => (.ok x.now, Faults.none)
  | .storeResourceChallenge .. => Faults.none
  | .getResourceChallenge _ => Faults.none
  | .spend _ => (.ok x.now, Faults.none)
  | .recordInvocation _ => ()
  | .invocationCount _ => ()
  | .inventoryLookup .. => none

namespace Deployment

variable (D : Deployment)

/-- A call that runs alone: it starts, issues `n` operations in one scenario and finishes. -/
def alone (t : Nat) (c : Call) (x : Scenario) (n : Nat) : List D.system.Move :=
  .start t c :: (List.replicate n (.act t x.input) ++ [.finish t])

/-- The labels and the last configuration of a schedule from the start. -/
def play (moves : List D.system.Move) : Option (D.Trace × System.Config Op Op.Reply World Call
    (Except Exn Answer)) := D.system.play (System.initial .initial) moves

/-- A property of a played schedule is one of a run that the moves make. -/
theorem exists_made_of_play {D : Deployment} (moves : List D.system.Move)
    {P : D.Trace → System.Config Op Op.Reply World Call (Except Exn Answer) → Prop}
    [∀ tr s, Decidable (P tr s)] (h : (D.play moves).any (fun r ↦ decide (P r.1 r.2)) = true) :
    ∃ tr s, D.system.Run .initial tr s ∧ List.Forall₂ System.Move.Makes moves tr ∧ P tr s := by
  obtain ⟨⟨tr, s⟩, hp, hP⟩ := (Option.any_eq_true _ _).mp h
  exact ⟨tr, s, System.run_of_play hp, System.makes_of_play hp, of_decide_eq_true hP⟩

/-- A property of a played schedule is one of a run. -/
theorem exists_run_of_play {D : Deployment} (moves : List D.system.Move)
    {P : D.Trace → System.Config Op Op.Reply World Call (Except Exn Answer) → Prop}
    [∀ tr s, Decidable (P tr s)] (h : (D.play moves).any (fun r ↦ decide (P r.1 r.2)) = true) :
    ∃ tr s, D.system.Run .initial tr s ∧ P tr s := by
  obtain ⟨tr, s, hrun, _, hP⟩ := exists_made_of_play moves h
  exact ⟨tr, s, hrun, hP⟩

/-- The error flag of each tool result that a run answered, with the thread of its call. -/
def flags (tr : D.Trace) : List (Nat × Bool) :=
  (D.system.answers tr).filterMap fun p ↦ match p.2 with
    | .ok (.tool result) => some (p.1, result.isError)
    | _ => none

/-- A flag is the one of a returned tool result. -/
theorem finish_of_mem_flags {D : Deployment} {tr : D.Trace} {t : Nat} {flag : Bool}
    (h : (t, flag) ∈ D.flags tr) :
    ∃ result, System.Label.finish t (.ok (.tool result)) ∈ tr ∧ result.isError = flag := by
  obtain ⟨⟨t', a⟩, ha, he⟩ := List.mem_filterMap.mp h
  match a with
  | .ok (.tool result) =>
    cases he
    exact ⟨result, System.mem_answers.mp ha, rfl⟩

/-- The reason of each decision that a run answered, with the thread of its call. -/
def reasons (tr : D.Trace) : List (Nat × Reason) :=
  (D.system.answers tr).filterMap fun p ↦ match p.2 with
    | .ok (.decision d) => some (p.1, d.reason)
    | _ => none

/-- The reasons of the denied decisions that a run answered, with the thread of the call. -/
def denials (tr : D.Trace) : List (Nat × Reason) :=
  (D.system.answers tr).filterMap fun p ↦ match p.2 with
    | .ok (.decision d) => if d.allowed then none else some (p.1, d.reason)
    | _ => none

/-- A denial is the one of a returned decision. -/
theorem finish_of_mem_denials {D : Deployment} {tr : D.Trace} {t : Nat} {reason : Reason}
    (h : (t, reason) ∈ D.denials tr) : ∃ d, System.Label.finish t (.ok (.decision d)) ∈ tr ∧
      d.allowed = false ∧ d.reason = reason := by
  obtain ⟨⟨t', a⟩, ha, he⟩ := List.mem_filterMap.mp h
  match a with
  | .ok (.decision d) =>
    dsimp only at he
    split at he
    · cases he
    · next hdenied =>
      cases he
      exact ⟨d, System.mem_answers.mp ha, by simpa using hdenied, rfl⟩

/-- The tokens that a run answered, with the threads of their calls. -/
def answeredTokens (tr : D.Trace) : List (Nat × Text) :=
  (D.system.answers tr).filterMap fun p ↦ match p.2 with
    | .ok (.token token) => some (p.1, token)
    | _ => none

/-- A listed token was returned. -/
theorem finish_of_mem_answeredTokens {D : Deployment} {tr : D.Trace} {t : Nat} {token : Text}
    (h : (t, token) ∈ D.answeredTokens tr) : System.Label.finish t (.ok (.token token)) ∈ tr := by
  obtain ⟨⟨t', a⟩, ha, he⟩ := List.mem_filterMap.mp h
  match a with
  | .ok (.token token) =>
    cases he
    exact System.mem_answers.mp ha

/-- The service and the verdict of each receipt whose signature a run asked for, with the
thread. -/
def verdicts (tr : D.Trace) : List (Nat × DecidingService × Verdict) :=
  tr.filterMap fun l ↦ match l with
    | .act t (.sign _ payload) _ _ => some (t, payload.decidingService, payload.decision)
    | _ => none

/-- A verdict is the one of a receipt that a thread asked to be signed. -/
theorem sign_of_mem_verdicts {D : Deployment} {tr : D.Trace} {t : Nat} {service : DecidingService}
    {verdict : Verdict} (h : (t, service, verdict) ∈ D.verdicts tr) :
    ∃ signer payload x r, System.Label.act t (.sign signer payload) x r ∈ tr ∧
      payload.decidingService = service ∧ payload.decision = verdict := by
  obtain ⟨l, hl, he⟩ := List.mem_filterMap.mp h
  cases l with
  | act t' e x r =>
    cases e with
    | sign signer payload =>
      cases he
      exact ⟨signer, payload, x, r, hl, rfl, rfl⟩
    | clock | tokenHex | lib | storeBrokerChallenge | consumeBrokerChallenge
    | storeResourceChallenge | getResourceChallenge | spend | recordInvocation | invocationCount
    | inventoryLookup => cases he
  | start t' c => cases he
  | finish t' a => cases he
  | crash i => cases he

end Deployment

/-! ### A small deployment -/

namespace Demo

/-- A resource policy with one scope. -/
def resourcePolicy : ResourcePolicy where
  audience := text "a"
  method := text "inventory.lookup"
  qualifiedScope := text "s"
  trustedBrokerPublicHex := text "01"
  challengeTtlSeconds := 60
  maxCredentialLifetimeSeconds := 300

/-- An inventory server under that policy. -/
def app : InventoryApplication where
  policy := resourcePolicy
  challengeSecret := List.replicate 32 7
  receiptSigner := ⟨[2], text "r"⟩
  catalog := InventoryApplication.defaultCatalog
  secretLength := by decide
  ttlPositive := by decide
  lifetimePositive := by decide

/-- A broker whose issuer key the resource policy trusts. -/
def broker : CapabilityBroker where
  policy :=
    { brokerId := text "b"
      qualifiedScope := text "s"
      resourceIssuerKid := text "k"
      resourceIssuerPublicHex := text "01"
      challengeTtlSeconds := 60
      credentialTtlSeconds := 60
      manifest := ⟨text "m", text "i", [], [], text "02", [], [], []⟩
      tpm := ⟨[], [], [3]⟩ }
  challengeSecret := List.replicate 32 9
  issuerPrivateKey := ⟨[1], [1]⟩
  receiptSigner := ⟨[4], text "q"⟩
  tpmAppraiser := .released
  secretLength := by decide
  issuerMatches := by decide
  challengeTtlPositive := by decide
  credentialTtlPositive := by decide

/-- One broker and one inventory server over one store. -/
def deployment : Deployment := ⟨standIn, fun _ ↦ app, fun _ ↦ broker⟩

/-- The scenario at a time with a seed for the random bytes. -/
def scenario (now : Int) (seed : UInt8) : Scenario := ⟨now, seed, StandIn.honest (text "s") [3]⟩

/-- A credential id as the broker generates it. -/
def credentialId : Text := hex (List.replicate 32 5)

/-- A credential valid from 1000 to 1060. -/
def credential : List (Text × Value) :=
  [(text "credential_id", .str credentialId), (text "issuer", .str (text "01")),
    (text "subject", .str (text "h")), (text "not_before", .int 1000),
    (text "not_after", .int 1060), (text "signature", .str (text "x"))]

/-- A call for one item. -/
def arguments : InventoryArguments := ⟨text "w", by decide, by decide, by decide⟩

/-- The identifier of a call record. -/
def recordId : BoundedText 256 := ⟨text "r", by decide, by decide, by decide⟩

/-- The challenge issued at a time with a seed. -/
def token (now : Int) (seed : UInt8) : Text :=
  challengeToken app.challengeSecret (now + 60) (hex (List.replicate 16 seed))

/-- A redemption with the challenge issued at a time with a seed. -/
def lookupInput (now : Int) (seed : UInt8) : LookupInput where
  toInventoryArguments := arguments
  credential := credential
  holderProof := [(text "challenge", .str (token now seed)),
    (text "record_id", .str recordId.val)]
  recordId := recordId

/-- Two challenges for one credential, and a redemption with each. -/
def twoRedemptions : List deployment.system.Move :=
  deployment.alone 0 (.issueResourceChallenge 0 credentialId arguments recordId.val)
      (scenario 1000 1) 4 ++
    (deployment.alone 1 (.redeem 0 (lookupInput 1000 1)) (scenario 1001 2) 15 ++
      (deployment.alone 2 (.issueResourceChallenge 0 credentialId arguments recordId.val)
          (scenario 1002 3) 4 ++
        deployment.alone 3 (.redeem 0 (lookupInput 1002 3)) (scenario 1003 4) 12))

/-- A challenge requested as a tool, and a call of a tool that does not exist. -/
def toolCalls : List deployment.system.Move :=
  deployment.alone 0 (.callTool 0 (text "inventory.challenge")
      (some [(text "sku", .str (text "w")), (text "credential_id", .str credentialId),
        (text "record_id", .str (text "r"))])) (scenario 1000 1) 4 ++
    deployment.alone 1 (.callTool 0 (text "x") none) (scenario 1001 2) 4

/-- The challenge that the broker issues at a time with a seed. -/
def brokerToken (now : Int) (seed : UInt8) : Text :=
  challengeToken broker.challengeSecret (now + 60) (hex (List.replicate 16 seed))

/-- A request for a broker challenge, with an endorsement. -/
def endorsedRequest (challenge identitySignature : Text) : RawIssuanceRequest :=
  .request (some (.str issuanceVersion)) (some (.str (text "b"))) (some (.str challenge))
    (some (.str (text "m"))) (some (.str (text "02"))) (some (.str (hex (List.replicate 32 8))))
    (some (.str (text "k"))) (some (.str (text "01"))) (some (.str (text "s")))
    (some (.str identitySignature))

/-- An endorsed request for a broker challenge. -/
def issuanceRequest (challenge : Text) : RawIssuanceRequest :=
  endorsedRequest challenge (text "03")

/-- A signed manifest. -/
def manifest : Value := .dict [(text "issuer", .str (text "i"))]

/-- Evidence of a TPM with a quote. -/
def quotedEvidence (attest : UInt8) : RawTpmEvidence :=
  .evidence (some (.bytes [attest])) (some (.bytes [2])) (some (.bytes [4]))

/-- Evidence of a TPM. -/
def evidence : RawTpmEvidence := quotedEvidence 1

/-- A broker challenge, and the issuance it is for. -/
def issuance : List deployment.system.Move :=
  deployment.alone 0 (.newChallenge 0) (scenario 1000 1) 4 ++
    deployment.alone 1 (.issue 0 (issuanceRequest (brokerToken 1000 1)) manifest evidence)
      (scenario 1001 2) 21

/-- An issuance, and its replay with the same challenge. -/
def replayedIssuance : List deployment.system.Move :=
  issuance ++ deployment.alone 2 (.issue 0 (issuanceRequest (brokerToken 1000 1)) manifest evidence)
    (scenario 1002 3) 17

/-- An issuance and its replay, and an issuance for a second challenge with evidence of its own. -/
def twoIssuances : List deployment.system.Move :=
  replayedIssuance ++ (deployment.alone 3 (.newChallenge 0) (scenario 1003 4) 4 ++
    deployment.alone 4 (.issue 0 (endorsedRequest (brokerToken 1003 4) (text "04")) manifest
      (quotedEvidence 5)) (scenario 1004 5) 21)

/-- Whether no receipt failed to be signed. -/
def signedAll (tr : deployment.Trace) : Bool :=
  tr.all fun
    | .act _ (.sign ..) _ (.error _) => false
    | _ => true

end Demo
end Atcap
