import Atcap.History
import Atcap.Inventory

/-!
# What a redemption has established

The program logic of `redeem`: what its history shows at the spend, at the handler and at the
signing of its receipt. A `Presentation` collects the values one call has parsed; `Checked`
says that the call's own history holds an accepting answer to every check.
-/

namespace Atcap

open Base

namespace InventoryApplication

variable (lib : Libraries) (app : InventoryApplication) (i : Nat) (request : LookupInput)

/-- The values one redemption has parsed and computed. -/
structure Presentation where
  argumentsDigest : Text
  credential : Credential
  notBefore : Int
  notAfter : Int
  proof : HolderProof
  tokenHash : Text

/-- The context of the challenge that a presentation needs. -/
def Presentation.context (p : Presentation) : ChallengeContext :=
  app.context p.credential.credentialId p.argumentsDigest request.recordId.val

/-- The spend a presentation leads to. -/
def Presentation.spendArgs (p : Presentation) : SpendArgs :=
  ⟨p.tokenHash, p.context app request, p.notBefore, p.notAfter⟩

/-- What `presentCredential` has checked. -/
structure CredentialPresented (credential : Credential) (notBefore notAfter : Int) (h : History) :
    Prop where
  parsed : ⟨.lib (.credentialFromDict (.dict request.credential)), .ok credential⟩ ∈ h
  identifier : credential.credentialId.isLowerHexOf 64 = true
  lower : credential.notBefore = some notBefore
  upper : credential.notAfter = some notAfter
  lifetime : notAfter - notBefore ≤ app.policy.maxCredentialLifetimeSeconds
  verified : ∃ atTime, ⟨.clock, .ok atTime⟩ ∈ h ∧
    ⟨.lib (.verifyChain [credential] 0 {app.policy.trustedBrokerPublicHex} atTime), .ok ()⟩ ∈ h
  scope : credential.scope = {app.policy.qualifiedScope}

/-- What `presentChallenge` has checked. -/
structure ChallengePresented (context : ChallengeContext) (proof : HolderProof) (tokenHash : Text)
    (h : History) : Prop where
  parsed : ⟨.lib (.holderProofFromDict (.dict request.holderProof)), .ok proof⟩ ∈ h
  hashed : challengeTokenHash proof.challenge = .ok tokenHash
  read : ∃ row now, ⟨.getResourceChallenge tokenHash, .ok (some row)⟩ ∈ h ∧
    row.context = context ∧ row.consumedAt = none ∧ ⟨.clock, .ok now⟩ ∈ h ∧ now < row.expiresAt

/-- What `proveHolder` has checked. -/
def HolderProved (credential : Credential) (proof : HolderProof) (h : History) : Prop :=
  ∃ sealedPayload, canonicalJson lib request.toInventoryArguments.modelDump = .ok sealedPayload ∧
    ⟨.lib (.verifyHolderProof (app.holderProofCheck request credential proof sealedPayload)),
      .ok ()⟩ ∈ h

/-- Every check before the spend has been answered, in this call's own history. -/
structure Presentation.Checked (p : Presentation) (h : History) : Prop where
  digest : canonicalDigest lib request.toInventoryArguments.modelDump = .ok p.argumentsDigest
  credential : app.CredentialPresented request p.credential p.notBefore p.notAfter h
  challenge : ChallengePresented request (p.context app request) p.proof p.tokenHash h
  holder : app.HolderProved lib request p.credential p.proof h

/-- The spend was the first one of its credential, and the deadlines still held after it. -/
def Presentation.Admitted (p : Presentation) (h : History) : Prop :=
  ∃ h₀ res now,
    h = h₀ ++ [⟨.spend (p.spendArgs app request), .ok res⟩, ⟨.clock, .ok now⟩] ∧ Quiet h₀ ∧
      p.Checked lib app request h₀ ∧ res.firstSpend = true ∧ now < res.challengeExpiresAt ∧
      p.notBefore ≤ now ∧ now ≤ p.notAfter

/-- The local variables of an admitted call. -/
def Presentation.locals (p : Presentation) : RedeemLocals :=
  ⟨some p.credential.credentialId, some p.tokenHash⟩

/-- The history of a call that has entered the handler under invocation number `n`. -/
def Presentation.Invoked (p : Presentation) (n : Nat) (h : History) : Prop :=
  ∃ h₀ reply q, p.Admitted lib app request h₀ ∧ Quiet q ∧
    h = h₀ ++ ⟨.recordInvocation i, n⟩ :: ⟨.inventoryLookup i request.sku.val, reply⟩ :: q

/-- What `redeem` guarantees for each operation it issues after a history. -/
def redeemGuarantee (h : History) : Op → Prop
  | .spend a => ∃ p : Presentation, a = p.spendArgs app request ∧ Quiet h ∧
      p.Checked lib app request h
  | .recordInvocation j => j = i ∧ ∃ p : Presentation, p.Admitted lib app request h
  | .inventoryLookup j sku => j = i ∧ sku = request.sku.val ∧
      ∃ (p : Presentation) (h₀ : History) (n : Nat), p.Admitted lib app request h₀ ∧
        h = h₀ ++ [⟨.recordInvocation i, n⟩]
  | .sign signer payload => signer = app.receiptSigner ∧ ∃ receiptId decidedAt snapshot digest a,
      payload.toReceiptFields = app.receiptFields a receiptId decidedAt snapshot digest ∧
      ((∃ argumentsDigest reason locals, a = denyArgs request argumentsDigest reason locals ∧
          Unserved h) ∨
        ∃ (p : Presentation) (n : Nat) (completed : Bool), p.Invoked lib app i request n h ∧
          a = invocationArgs request p.argumentsDigest p.locals n completed)
  | e => e.isQuery = true ∧ (e.isParse = true → h = [])

/-! ### The phases of the `try` block -/

section Phases

variable {lib app i request}
variable {A : History → Event Op Op.Reply → Prop} {G : History → Op → Prop} {h : History}
  {l : RedeemLocals}

/-- A longer history keeps what the credential was checked for. -/
theorem CredentialPresented.mono {h' : History} {c : Credential} {nb na : Int}
    (hc : app.CredentialPresented request c nb na h) (hs : h ⊆ h') :
    app.CredentialPresented request c nb na h' := by
  obtain ⟨atTime, hclock, hchain⟩ := hc.verified
  exact ⟨hs hc.parsed, hc.identifier, hc.lower, hc.upper, hc.lifetime,
    ⟨atTime, hs hclock, hs hchain⟩, hc.scope⟩

/-- A longer history keeps what the challenge was checked for. -/
theorem ChallengePresented.mono {h' : History} {context : ChallengeContext} {proof : HolderProof}
    {tokenHash : Text} (hc : ChallengePresented request context proof tokenHash h)
    (hs : h ⊆ h') : ChallengePresented request context proof tokenHash h' := by
  obtain ⟨row, now, hread, hrow, hnone, hclock, hfresh⟩ := hc.read
  exact ⟨hs hc.parsed, hc.hashed, row, now, hs hread, hrow, hnone, hs hclock, hfresh⟩

/-- A longer history keeps the answers to the checks. -/
theorem Presentation.Checked.mono {h' : History} {p : Presentation}
    (hp : p.Checked lib app request h) (hs : h ⊆ h') : p.Checked lib app request h' := by
  obtain ⟨payload, hpayload, hverify⟩ := hp.holder
  exact ⟨hp.digest, hp.credential.mono hs, hp.challenge.mono hs, payload, hpayload, hs hverify⟩

/-- An admitted call has neither invoked nor signed anything. -/
theorem Presentation.Admitted.unserved {p : Presentation} (hp : p.Admitted lib app request h) :
    Unserved h := by
  obtain ⟨h₀, res, now, rfl, hq, _⟩ := hp
  intro ev hev
  rw [List.mem_append, List.mem_cons, List.mem_singleton] at hev
  rcases hev with hev | rfl | rfl
  · exact hq.unserved ev hev
  · rfl
  · rfl

/-- The history of an admitted call holds the answers to its checks. -/
theorem Presentation.Admitted.checked {p : Presentation} (hp : p.Admitted lib app request h) :
    p.Checked lib app request h := by
  obtain ⟨h₀, res, now, rfl, _, hc, _⟩ := hp
  exact hc.mono (List.subset_append_left _ _)

/-- The history of an admitted call holds its first spend. -/
theorem Presentation.Admitted.spent {p : Presentation} (hp : p.Admitted lib app request h) :
    ∃ res : CredentialSpendResult,
      ⟨.spend (p.spendArgs app request), .ok res⟩ ∈ h ∧ res.firstSpend = true := by
  obtain ⟨h₀, res, now, rfl, _, _, hfirst, _⟩ := hp
  exact ⟨res, by simp, hfirst⟩

/-- A call that has entered the handler has signed nothing before. -/
theorem Presentation.Invoked.unsigned {p : Presentation} {n : Nat}
    (hp : p.Invoked lib app i request n h) : ∀ ev ∈ h, ev.op.isSign = false := by
  obtain ⟨h₀, reply, q, hadmitted, hq, rfl⟩ := hp
  intro ev hev
  have hu : (ev.op.isQuery || ev.op.isSpend) = true ∨ ev.op.isInvocation = true := by
    rw [List.mem_append, List.mem_cons, List.mem_cons] at hev
    rcases hev with hev | rfl | rfl | hev
    · exact .inl (hadmitted.unserved ev hev)
    · exact .inr rfl
    · exact .inr rfl
    · exact .inl (hq.unserved ev hev)
  rcases ev with ⟨e, r⟩
  cases e with
  | sign => rcases hu with hu | hu <;> cases hu
  | clock | tokenHex | lib | storeBrokerChallenge | consumeBrokerChallenge
  | storeResourceChallenge | getResourceChallenge | spend | recordInvocation | invocationCount
  | inventoryLookup => rfl

/-- Bounds that were read are those of the credential. -/
theorem validityBounds_eq_ok {c : Credential} {nb na : Int}
    (h : validityBounds c = .ok (nb, na)) : c.notBefore = some nb ∧ c.notAfter = some na := by
  unfold validityBounds at h
  split at h
  · next hb ha =>
    cases h
    exact ⟨hb, ha⟩
  · cases h

/-- `presentCredential` asks only queries, and returns a credential it has checked. -/
theorem presentCredential_sat (hG : ∀ h e, e.isQuery = true → e.isParse = false → G h e)
    (hparse : G h (.lib (.credentialFromDict (.dict request.credential)))) (hq : Quiet h) :
    Body.Sat A G (fun h' r l' ↦ Quiet h' ∧ ∀ c nb na, r = .ok (c, nb, na) →
      app.CredentialPresented request c nb na h' ∧
        l' = { l with credentialId := some c.credentialId })
      (app.presentCredential request) h l := by
  unfold presentCredential callLibExcept
  apply Body.Sat.invoke hparse
  · intro r x _ _
    exact ⟨hq.snoc rfl, nofun⟩
  intro r credential _ hr
  obtain rfl := mapError_eq_ok.mp hr
  have hq₁ : Quiet (h ++ [⟨.lib (.credentialFromDict (.dict request.credential)),
    .ok credential⟩]) := hq.snoc rfl
  apply Body.Sat.assign
  apply Body.Sat.raiseIf
  · intro _
    exact ⟨hq₁, nofun⟩
  intro hid
  apply Body.Sat.ofExcept
  · intro x _
    exact ⟨hq₁, nofun⟩
  rintro ⟨nb, na⟩ hbounds
  apply Body.Sat.raiseIf
  · intro _
    exact ⟨hq₁, nofun⟩
  intro hlife
  apply Body.Sat.invoke (hG _ _ rfl rfl)
  · intro r x _ _
    exact ⟨hq₁.snoc rfl, nofun⟩
  intro r atTime _ hclock
  obtain rfl := mapError_eq_ok.mp hclock
  apply Body.Sat.invoke (hG _ _ rfl rfl)
  · intro r x _ _
    exact ⟨(hq₁.snoc rfl).snoc rfl, nofun⟩
  intro r u _ hchain
  obtain rfl := mapError_eq_ok.mp hchain
  apply Body.Sat.raiseIf
  · intro _
    exact ⟨(hq₁.snoc rfl).snoc rfl, nofun⟩
  intro hscope
  refine ⟨(hq₁.snoc rfl).snoc rfl, ?_⟩
  rintro c nb' na' ⟨⟩
  obtain ⟨hlower, hupper⟩ := validityBounds_eq_ok hbounds
  refine ⟨⟨by simp, by simpa using hid, hlower, hupper, by omega, ⟨atTime, by simp, by simp⟩,
    not_not.mp hscope⟩, rfl⟩

/-- `presentChallenge` asks only queries, and returns a challenge it has checked. -/
theorem presentChallenge_sat {digest : Text} {c : Credential}
    (hG : ∀ h e, e.isQuery = true → e.isParse = false → G h e) (hq : Quiet h) :
    Body.Sat A G (fun h' r l' ↦ Quiet h' ∧ ∀ proof tokenHash, r = .ok (proof, tokenHash) →
      ChallengePresented request (app.context c.credentialId digest request.recordId.val) proof
        tokenHash h' ∧ l' = { l with tokenHash := some tokenHash })
      (app.presentChallenge request digest c) h l := by
  unfold presentChallenge callLibExcept readClock
  apply Body.Sat.invoke (hG _ _ rfl rfl)
  · intro r x _ _
    exact ⟨hq.snoc rfl, nofun⟩
  intro r proof _ hr
  obtain rfl := mapError_eq_ok.mp hr
  have hq₁ : Quiet (h ++ [⟨.lib (.holderProofFromDict (.dict request.holderProof)),
    .ok proof⟩]) := hq.snoc rfl
  apply Body.Sat.ofExcept
  · intro x _
    exact ⟨hq₁, nofun⟩
  intro tokenHash hhash
  apply Body.Sat.assign
  apply Body.Sat.invoke (hG _ _ rfl rfl)
  · intro r x _ _
    exact ⟨hq₁.snoc rfl, nofun⟩
  rintro r found _ rfl
  have hq₂ : Quiet (_ ++ [⟨.getResourceChallenge tokenHash, .ok found⟩]) := hq₁.snoc rfl
  apply Body.Sat.ofExcept
  · intro x _
    exact ⟨hq₂, nofun⟩
  intro row hfound
  obtain rfl := orRaise_eq_ok.mp hfound
  apply Body.Sat.raiseIf
  · intro _
    exact ⟨hq₂, nofun⟩
  intro hcontext
  apply Body.Sat.raiseIf
  · intro _
    exact ⟨hq₂, nofun⟩
  intro hconsumed
  apply Body.Sat.invoke (hG _ _ rfl rfl)
  · intro r x _ _
    exact ⟨hq₂.snoc rfl, nofun⟩
  rintro r now _ rfl
  apply Body.Sat.raiseIf
  · intro _
    exact ⟨hq₂.snoc rfl, nofun⟩
  intro hfresh
  refine ⟨hq₂.snoc rfl, ?_⟩
  rintro proof' tokenHash' ⟨⟩
  refine ⟨⟨by simp, hhash, row, now, by simp, not_not.mp hcontext, ?_, by simp, by omega⟩, rfl⟩
  simpa using hconsumed

/-- `proveHolder` asks only queries, and returns after the proof was accepted. -/
theorem proveHolder_sat {c : Credential} {proof : HolderProof}
    (hG : ∀ h e, e.isQuery = true → e.isParse = false → G h e) (hq : Quiet h) :
    Body.Sat A G (fun h' r l' ↦ Quiet h' ∧ (r = .ok () →
      app.HolderProved lib request c proof h' ∧ l' = l))
      (app.proveHolder lib request c proof) h l := by
  unfold proveHolder callLibExcept
  apply Body.Sat.ofExcept
  · intro x _
    exact ⟨hq, nofun⟩
  intro sealedPayload hsealed
  rw [Body.sat_invoke]
  refine ⟨hG _ _ rfl rfl, fun r _ ↦ ⟨hq.snoc rfl, fun hr ↦ ⟨⟨sealedPayload, ?_, ?_⟩, rfl⟩⟩⟩
  · exact mapError_eq_ok.mp hsealed
  · rw [mapError_eq_ok.mp hr]
    simp

/-- `redeem` guarantees nothing of its queries, but that it parses first. -/
theorem redeemGuarantee_query (h : History) {e : Op} (he : e.isQuery = true)
    (hp : e.isParse = false) : redeemGuarantee lib app i request h e := by
  have hn : e.isParse = true → h = [] := by
    intro ht
    rw [ht] at hp
    cases hp
  cases e with
  | clock | tokenHex | lib | getResourceChallenge | invocationCount => exact ⟨he, hn⟩
  | sign | storeBrokerChallenge | consumeBrokerChallenge | storeResourceChallenge | spend
  | recordInvocation | inventoryLookup => cases he

/-- `spendCredential` returns after the first spend of the credential. -/
theorem spendCredential_sat {p : Presentation} (hq : Quiet h) (hp : p.Checked lib app request h) :
    Body.Sat A (redeemGuarantee lib app i request) (fun h' r l' ↦ match r with
      | .ok res => h' = h ++ [⟨.spend (p.spendArgs app request), .ok res⟩] ∧
          res.firstSpend = true ∧ l' = l
      | .error _ => Unserved h')
      (app.spendCredential request p.argumentsDigest p.credential p.notBefore p.notAfter
        p.tokenHash) h l := by
  unfold spendCredential
  apply Body.Sat.invoke ⟨p, rfl, hq, hp⟩
  · intro r x _ _
    exact hq.unserved.snoc rfl
  rintro r res _ rfl
  apply Body.Sat.raiseIf
  · intro _
    exact hq.unserved.snoc rfl
  intro hfirst
  exact ⟨rfl, by simpa using hfirst, rfl⟩

/-- `preHandlerCheck` returns after one clock reading inside both deadlines. -/
theorem preHandlerCheck_sat {nb na : Int} {res : CredentialSpendResult} (hu : Unserved h) :
    Body.Sat A (redeemGuarantee lib app i request) (fun h' r l' ↦ match r with
      | .ok () => ∃ now, h' = h ++ [⟨.clock, .ok now⟩] ∧ now < res.challengeExpiresAt ∧ nb ≤ now ∧
          now ≤ na ∧ l' = l
      | .error _ => Unserved h')
      (preHandlerCheck nb na res) h l := by
  unfold preHandlerCheck readClock
  apply Body.Sat.invoke (redeemGuarantee_query _ rfl rfl)
  · intro r x _ _
    exact hu.snoc rfl
  rintro r now _ rfl
  apply Body.Sat.raiseIf
  · intro _
    exact hu.snoc rfl
  intro hfresh
  unfold Body.raiseIf
  rw [Body.sat_ofExcept]
  cases hr : Base.raiseIf (now < nb ∨ now > na)
      (Exn.decision .CREDENTIAL_EXPIRED "credential expired after the spend commit") with
  | error e => exact hu.snoc rfl
  | ok u =>
    rw [raiseIf_eq_ok, not_or] at hr
    exact ⟨now, rfl, by omega, by omega, by omega, rfl⟩

/-- The `try` block of `redeem` admits a call after every check, and serves nothing otherwise. -/
theorem authorize_sat {digest : Text}
    (hd : canonicalDigest lib request.toInventoryArguments.modelDump = .ok digest) :
    Body.Sat A (redeemGuarantee lib app i request) (fun h' r l' ↦ match r with
      | .ok () => ∃ p : Presentation, p.Admitted lib app request h' ∧ l' = p.locals ∧
          p.argumentsDigest = digest
      | .error _ => Unserved h')
      (app.authorize lib request digest) [] l := by
  have hG : ∀ h e, e.isQuery = true → e.isParse = false →
      redeemGuarantee lib app i request h e := fun h e ↦ redeemGuarantee_query h
  unfold authorize
  apply Body.Sat.bind (presentCredential_sat hG ⟨rfl, fun _ ↦ rfl⟩ quiet_nil)
  · intro h₁ e l₁ _ hpost
    exact hpost.1.unserved
  rintro h₁ ⟨c, nb, na⟩ l₁ _ ⟨hq₁, hpost₁⟩
  obtain ⟨hcredential, rfl⟩ := hpost₁ c nb na rfl
  apply Body.Sat.bind (presentChallenge_sat hG hq₁)
  · intro h₂ e l₂ _ hpost
    exact hpost.1.unserved
  rintro h₂ ⟨proof, tokenHash⟩ l₂ hsub₂ ⟨hq₂, hpost₂⟩
  obtain ⟨hchallenge, rfl⟩ := hpost₂ proof tokenHash rfl
  apply Body.Sat.bind (proveHolder_sat hG hq₂)
  · intro h₃ e l₃ _ hpost
    exact hpost.1.unserved
  rintro h₃ ⟨⟩ l₃ hsub₃ ⟨hq₃, hpost₃⟩
  obtain ⟨hholder, rfl⟩ := hpost₃ rfl
  let p : Presentation := ⟨digest, c, nb, na, proof, tokenHash⟩
  have hp : p.Checked lib app request h₃ :=
    ⟨hd, hcredential.mono (hsub₂.trans hsub₃).subset, hchallenge.mono hsub₃.subset, hholder⟩
  apply Body.Sat.bind (spendCredential_sat hq₃ hp)
  · intro h₄ e l₄ _ hpost
    exact hpost
  rintro h₄ res l₄ _ ⟨rfl, hfirst, rfl⟩
  apply (preHandlerCheck_sat (hq₃.unserved.snoc rfl)).mono
  intro h₅ r l₅ hpost
  cases r with
  | error e => exact hpost
  | ok u =>
    obtain ⟨now, rfl, hfresh, hlower, hupper, rfl⟩ := hpost
    refine ⟨p, ⟨h₃, res, now, ?_, hq₃, hp, hfirst, hfresh, hlower, hupper⟩, rfl, rfl⟩
    rw [List.append_assoc]
    rfl

/-! ### Receipts and the handler -/

/-- `_receipt` asks queries and then signs the claims of its arguments. -/
theorem receipt_sat {a : ReceiptArgs} (hG : ∀ h e, e.isQuery = true → e.isParse = false → G h e)
    (hsign : ∀ q receiptId decidedAt snapshot digest payload, Quiet q →
      payload.toReceiptFields = app.receiptFields a receiptId decidedAt snapshot digest →
        G (h ++ q) (.sign app.receiptSigner payload)) :
    Body.Sat A G (fun _ _ _ ↦ True) (app.receipt lib i a) h () := by
  unfold receipt readClock
  apply Body.Sat.perform (hG _ _ rfl rfl)
  intro receiptId _
  apply Body.Sat.invoke (hG _ _ rfl rfl)
  · intro r x _ _
    trivial
  rintro r decidedAt _ rfl
  apply Body.Sat.perform (hG _ _ rfl rfl)
  intro snapshot _
  apply Body.Sat.ofExcept
  · intro x _
    trivial
  intro digest _
  apply Body.Sat.ofExcept
  · intro x _
    trivial
  intro payload hpayload
  rw [Body.sat_invoke, List.append_assoc, List.append_assoc]
  refine ⟨?_, fun _ _ ↦ trivial⟩
  apply hsign _ receiptId decidedAt snapshot digest payload
  · exact ((quiet_nil.snoc rfl).snoc rfl).snoc rfl
  · exact DecisionReceiptPayload.construct_eq_ok hpayload

/-- A denial signs its own arguments in an unserved history. -/
theorem denyRedemption_sat {digest : Text} {reason : Reason} {locals : RedeemLocals}
    (hu : Unserved h) :
    Body.Sat A (redeemGuarantee lib app i request) (fun _ _ _ ↦ True)
      (app.denyRedemption lib i request digest reason locals) h () := by
  unfold denyRedemption
  apply Body.Sat.bind (receipt_sat (fun h e ↦ redeemGuarantee_query h) ?_)
  · intro _ _ _ _ _
    trivial
  · intro _ _ _ _ _
    trivial
  · intro q receiptId decidedAt snapshot policyDigest payload hq hpayload
    refine ⟨rfl, receiptId, decidedAt, snapshot, policyDigest, _, hpayload, .inl ?_⟩
    exact ⟨digest, reason, locals, rfl, hu.append hq⟩

/-- The receipt of an invocation is signed after the handler was entered. -/
theorem invocationReceipt_sat {p : Presentation} {n : Nat} {completed : Bool}
    (hp : p.Invoked lib app i request n h) :
    Body.Sat A (redeemGuarantee lib app i request) (fun _ _ _ ↦ True)
      (app.invocationReceipt lib i request p.argumentsDigest p.locals n completed) h () := by
  unfold invocationReceipt
  apply Body.Sat.attempt (receipt_sat (fun h e ↦ redeemGuarantee_query h) ?_)
  · intro h' r l' _ _
    rw [Body.sat_ofExcept]
    trivial
  · intro q receiptId decidedAt snapshot policyDigest payload hq hpayload
    refine ⟨rfl, receiptId, decidedAt, snapshot, policyDigest, _, hpayload, .inr ?_⟩
    obtain ⟨h₀, reply, q₀, hadmitted, hq₀, rfl⟩ := hp
    exact ⟨p, n, completed, ⟨h₀, reply, q₀ ++ q, hadmitted, hq₀.append hq, by simp⟩, rfl⟩

/-- After admission the call counts, enters the handler once and signs the outcome. -/
theorem invokeHandler_sat {p : Presentation} (hp : p.Admitted lib app request h) :
    Body.Sat A (redeemGuarantee lib app i request) (fun _ _ _ ↦ True)
      (app.invokeHandler lib i request p.argumentsDigest p.locals) h () := by
  unfold invokeHandler
  apply Body.Sat.perform ⟨rfl, p, hp⟩
  intro n _
  have hrun : Body.Sat A (redeemGuarantee lib app i request)
      (fun h' _ _ ↦ p.Invoked lib app i request n h')
      (runHandler i request.toInventoryArguments n) (h ++ [⟨.recordInvocation i, n⟩]) () := by
    unfold runHandler
    have hinvoked : ∀ r, p.Invoked lib app i request n
        (h ++ [⟨.recordInvocation i, n⟩] ++ [⟨.inventoryLookup i request.sku.val, r⟩]) :=
      fun r ↦ ⟨h, r, [], hp, quiet_nil, by simp⟩
    apply Body.Sat.invoke ⟨rfl, rfl, p, h, n, hp, rfl⟩
    · intro r x _ _
      exact hinvoked r
    intro r rawResult _ _
    rw [Body.sat_ofExcept]
    exact hinvoked r
  apply Body.Sat.attempt hrun
  intro h' outcome _ _ hinvoked
  cases outcome with
  | error e =>
    apply Body.Sat.bind (invocationReceipt_sat hinvoked)
    · intro _ _ _ _ _
      trivial
    · intro _ _ _ _ _
      trivial
  | ok result =>
    apply Body.Sat.bind (invocationReceipt_sat hinvoked)
    · intro _ _ _ _ _
      trivial
    · intro _ _ _ _ _
      trivial

/-- Every operation of `redeem` satisfies its guarantee. -/
theorem redeem_sat :
    Body.Sat A (redeemGuarantee lib app i request) (fun _ _ _ ↦ True) (app.redeem lib i request)
      [] () := by
  unfold redeem
  apply Body.Sat.ofExcept
  · intro x _
    trivial
  intro digest hd
  apply Body.Sat.attempt (authorize_sat hd)
  intro h' outcome locals _ hpost
  cases outcome with
  | error e => exact denyRedemption_sat hpost
  | ok u =>
    obtain ⟨p, hp, rfl, rfl⟩ := hpost
    exact invokeHandler_sat hp

/-! ### Challenges and unauthenticated calls -/

variable (lib app) in
/-- The row of a resource challenge is bound to what was asked for. -/
def ChallengeIssued (tokenHash : Text) (context : ChallengeContext) (issuedAt expiresAt : Int)
    (h : History) : Prop :=
  ∃ token credentialId arguments argumentsDigest recordId,
    challengeTokenHash token = .ok tokenHash ∧ credentialId.isLowerHexOf 64 = true ∧
    canonicalDigest lib (InventoryArguments.modelDump arguments) = .ok argumentsDigest ∧
    context = app.context credentialId argumentsDigest recordId ∧ ⟨.clock, .ok issuedAt⟩ ∈ h ∧
    TokenIssued app.challengeSecret issuedAt app.policy.challengeTtlSeconds token expiresAt h

variable (lib app) in
/-- What a call that never redeems guarantees for each operation it issues after a history;
only some of these calls issue challenges. -/
def unauthenticatedGuarantee (issues : Bool) (h : History) : Op → Prop
  | .storeResourceChallenge tokenHash context issuedAt expiresAt => issues = true ∧
      app.ChallengeIssued lib tokenHash context issuedAt expiresAt h ∧ Quiet h
  | .sign signer payload => signer = app.receiptSigner ∧
      ∃ argumentsDigest receiptId decidedAt snapshot digest, payload.toReceiptFields =
        app.receiptFields (directArgs argumentsDigest) receiptId decidedAt snapshot digest
  | e => e.isQuery = true

/-- A call that never redeems guarantees nothing of its queries. -/
theorem unauthenticatedGuarantee_query {issues : Bool} (h : History) {e : Op}
    (he : e.isQuery = true) : app.unauthenticatedGuarantee lib issues h e := by
  cases e with
  | clock | tokenHex | lib | getResourceChallenge | invocationCount => exact he
  | sign | storeBrokerChallenge | consumeBrokerChallenge | storeResourceChallenge | spend
  | recordInvocation | inventoryLookup => cases he

/-- `issue_resource_challenge` stores the challenge it returns. -/
theorem issueResourceChallenge_sat {credentialId recordId : Text} {arguments : InventoryArguments}
    (hq : Quiet h) :
    Body.Sat A (app.unauthenticatedGuarantee lib true) (fun _ _ _ ↦ True)
      (app.issueResourceChallenge lib credentialId arguments recordId) h () := by
  have hG : ∀ h e, e.isQuery = true → app.unauthenticatedGuarantee lib true h e :=
    fun h e ↦ unauthenticatedGuarantee_query h
  unfold issueResourceChallenge readClock
  apply Body.Sat.raiseIf
  · intro _
    trivial
  intro hid
  apply Body.Sat.invoke (hG _ _ rfl)
  · intro r x _ _
    trivial
  rintro r issuedAt _ rfl
  have hq₁ : Quiet (h ++ [⟨.clock, .ok issuedAt⟩]) := hq.snoc rfl
  apply Body.Sat.bind (issueCa2aChallengeAt_sat hG hq₁)
  · intro _ _ _ _ _
    trivial
  rintro h₁ ⟨token, expiresAt⟩ l₁ hsub ⟨hq₂, _, hissued⟩
  apply Body.Sat.ofExcept
  · intro x _
    trivial
  intro argumentsDigest hdigest
  apply Body.Sat.ofExcept
  · intro x _
    trivial
  intro tokenHash hhash
  apply Body.Sat.invoke
  · refine ⟨rfl, ⟨token, credentialId, arguments, argumentsDigest, recordId, hhash,
      by simpa using hid, hdigest, rfl, hsub.subset (by simp), hissued token expiresAt rfl⟩, hq₂⟩
  · intro r x _ _
    trivial
  · intro r u _ _
    trivial

/-- `direct_lookup_attempt` signs an unauthenticated denial. -/
theorem directLookupAttempt_sat {issues : Bool} {arguments : List (Text × Value)} :
    Body.Sat A (app.unauthenticatedGuarantee lib issues) (fun _ _ _ ↦ True)
      (app.directLookupAttempt lib i arguments) h () := by
  unfold directLookupAttempt
  apply Body.Sat.ofExcept
  · intro x _
    trivial
  intro argumentsDigest _
  apply Body.Sat.bind (receipt_sat (fun h e he _ ↦ unauthenticatedGuarantee_query h he) ?_)
  · intro _ _ _ _ _
    trivial
  · intro _ _ _ _ _
    trivial
  · intro q receiptId decidedAt snapshot policyDigest payload _ hpayload
    exact ⟨rfl, argumentsDigest, receiptId, decidedAt, snapshot, policyDigest, hpayload⟩

end Phases

end InventoryApplication
end Atcap
