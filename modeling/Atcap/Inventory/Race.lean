import Atcap.Inventory.Receipts

/-!
# A redemption among rivals

What a single `redeem` does when every check of its own would pass and nothing fails: only its
rivals can still make it lose. Its decision is then determined by how its own transaction went,
whether it found the challenge consumed, the credential spent, or was the first.
-/

namespace Atcap

open Base

namespace InventoryApplication

/-- One redemption of a race: its instance, its request, the values it presents and the stored
challenge it uses. -/
structure Contestant where
  service : Nat
  request : LookupInput
  shown : Presentation
  row : ResourceChallengeRow

namespace Contestant

variable (lib : Libraries) (app : InventoryApplication) (k : Contestant)

/-- What makes a call allowed on its own, apart from what it is answered. -/
structure Eligible : Prop where
  named : app.policy.Named
  policyDigest : ∃ digest, canonicalDigest lib app.policy.publicDict = .ok digest
  digest : canonicalDigest lib k.request.toInventoryArguments.modelDump =
    .ok k.shown.argumentsDigest
  identifier : k.shown.credential.credentialId.isLowerHexOf 64 = true
  bounds : validityBounds k.shown.credential = .ok (k.shown.notBefore, k.shown.notAfter)
  lifetime : k.shown.notAfter - k.shown.notBefore ≤ app.policy.maxCredentialLifetimeSeconds
  scope : k.shown.credential.scope = {app.policy.qualifiedScope}
  hashed : challengeTokenHash k.shown.proof.challenge = .ok k.shown.tokenHash
  key : k.row.tokenHash = k.shown.tokenHash
  bound : k.row.context = k.shown.context app k.request
  unconsumed : k.row.consumedAt = none

/-- What makes the `try` block of a call succeed on its own, apart from what it is answered. -/
structure Presentable : Prop where
  digest : canonicalDigest lib k.request.toInventoryArguments.modelDump =
    .ok k.shown.argumentsDigest
  identifier : k.shown.credential.credentialId.isLowerHexOf 64 = true
  bounds : validityBounds k.shown.credential = .ok (k.shown.notBefore, k.shown.notAfter)
  lifetime : k.shown.notAfter - k.shown.notBefore ≤ app.policy.maxCredentialLifetimeSeconds
  scope : k.shown.credential.scope = {app.policy.qualifiedScope}
  hashed : challengeTokenHash k.shown.proof.challenge = .ok k.shown.tokenHash
  bound : k.row.context = k.shown.context app k.request

/-- A call that is allowed on its own passes its `try` block. -/
theorem Eligible.presentable {lib : Libraries} {app : InventoryApplication} {k : Contestant}
    (hk : k.Eligible lib app) : k.Presentable lib app :=
  ⟨hk.digest, hk.identifier, hk.bounds, hk.lifetime, hk.scope, hk.hashed, hk.bound⟩

/-- The texts that a presentable call passes to the store have a UTF-8 encoding. -/
theorem Presentable.bindText {lib : Libraries} {app : InventoryApplication} {k : Contestant}
    (hk : k.Presentable lib app) : Atcap.bindText k.shown.tokenHash = .ok () ∧
      Atcap.bindText k.shown.credential.credentialId = .ok () ∧
      Atcap.bindText k.request.recordId.val = .ok () := by
  have hid := hk.identifier
  rw [Text.isLowerHexOf, Bool.and_eq_true] at hid
  refine ⟨?_, ?_, ?_⟩
  · rw [(challengeTokenHash_eq_ok hk.hashed).2, Atcap.bindText, if_pos (encodable_sha256Hex _)]
  · rw [Atcap.bindText, if_pos (encodable_of_all_isLowerHex hid.2)]
  · rw [Atcap.bindText, if_pos k.request.recordId.encodable]

/-- A clock reading inside the validity window of the credential and the lifetime of the
challenge. -/
def Inside (now : Int) : Prop :=
  k.shown.notBefore ≤ now ∧ now ≤ k.shown.notAfter ∧ k.row.issuedAt ≤ now ∧ now < k.row.expiresAt

/-- A handler reply that passes validation under every invocation number. -/
def HandlerResult (raw : List (Text × Value)) : Prop :=
  ∀ n : Nat, 1 ≤ n → ∃ result, InventoryLookupResult.modelValidate
    (Value.setMember raw (text "invocation_number") (.int n)) = .ok result

/-- What a call is answered when only its rivals can make it lose; it is `lost` once a rival has
consumed its challenge. -/
def rely (lost : Prop) (h : History) : Event Op Op.Reply → Prop
  | ⟨.clock, r⟩ => ∃ now, r = .ok now ∧ k.Inside now
  | ⟨.tokenHex n, r⟩ => ∃ b : Bytes, b.length = n ∧ r = hex b
  | ⟨.lib (.credentialFromDict _), r⟩ => r = .ok k.shown.credential
  | ⟨.lib (.verifyChain ..), r⟩ => r = .ok ()
  | ⟨.lib (.holderProofFromDict _), r⟩ => r = .ok k.shown.proof
  | ⟨.lib (.verifyHolderProof _), r⟩ => r = .ok ()
  | ⟨.getResourceChallenge tokenHash, r⟩ => tokenHash = k.shown.tokenHash →
      ∃ row, r = .ok (some row) ∧ row.context = k.row.context ∧
        row.expiresAt = k.row.expiresAt ∧ (row.consumedAt.isSome = true → lost)
  | ⟨.spend a, r⟩ => a = k.shown.spendArgs app k.request →
      (lost ∧ ∃ message, r = .error (.decision .CHALLENGE_CONSUMED message)) ∨
      ∃ res : CredentialSpendResult, r = .ok res ∧ res.challengeExpiresAt = k.row.expiresAt
  | ⟨.recordInvocation _, n⟩ => 1 ≤ n
  | ⟨.invocationCount i, m⟩ => ∀ n : Nat, ⟨.recordInvocation i, n⟩ ∈ h → n ≤ m
  | ⟨.inventoryLookup .., r⟩ => ∃ raw, r = .ok raw ∧ HandlerResult raw
  | ⟨.sign .., r⟩ => ∃ receipt, r = .ok receipt
  | _ => True

/-- What its `try` block is answered when the packages accept exactly what the call presents, and
only its rivals can make it lose. -/
def accepts (lost : Prop) : Event Op Op.Reply → Prop
  | ⟨.clock, r⟩ => ∃ now, r = .ok now ∧ k.Inside now
  | ⟨.lib (.credentialFromDict d), r⟩ => d = .dict k.request.credential → r = .ok k.shown.credential
  | ⟨.lib (.verifyChain chain maxDepth roots atTime), r⟩ => chain = [k.shown.credential] →
      maxDepth = 0 → roots = {app.policy.trustedBrokerPublicHex} → k.Inside atTime → r = .ok ()
  | ⟨.lib (.holderProofFromDict d), r⟩ => d = .dict k.request.holderProof → r = .ok k.shown.proof
  | ⟨.lib (.verifyHolderProof check), r⟩ => ∀ sealedPayload,
      canonicalJson lib k.request.toInventoryArguments.modelDump = .ok sealedPayload →
      check = app.holderProofCheck k.request k.shown.credential k.shown.proof sealedPayload →
      r = .ok ()
  | ⟨.getResourceChallenge tokenHash, r⟩ => tokenHash = k.shown.tokenHash →
      ∃ row, r = .ok (some row) ∧ row.context = k.row.context ∧
        row.expiresAt = k.row.expiresAt ∧ (row.consumedAt.isSome = true → lost)
  | ⟨.spend a, r⟩ => a = k.shown.spendArgs app k.request →
      (lost ∧ ∃ message, r = .error (.decision .CHALLENGE_CONSUMED message)) ∨
      ∃ res : CredentialSpendResult, r = .ok res ∧ res.challengeExpiresAt = k.row.expiresAt
  | _ => True

variable {lib app k} in
/-- A contestant is answered so that its `try` block is accepted. -/
theorem accepts_of_rely {lost : Prop} {h : History} {ev : Event Op Op.Reply}
    (hr : k.rely app lost h ev) : k.accepts lib app lost ev := by
  rcases ev with ⟨e, r⟩
  cases e with
  | clock | getResourceChallenge | spend => exact hr
  | lib c =>
    cases c with
    | credentialFromDict | holderProofFromDict => exact fun _ ↦ hr
    | verifyChain => exact fun _ _ _ _ ↦ hr
    | verifyHolderProof => exact fun _ _ _ ↦ hr
    | verifyChallenge | credentialSign | credentialBody | manifestNormalize | manifestCanonicalHash
    | verifyManifest | ed25519PublicKey | ed25519Verify | readPcrSelection | evaluationTime
    | loadPemX509Certificates | verifyTpmQuote | appraise => trivial
  | tokenHex | sign | storeBrokerChallenge | consumeBrokerChallenge | storeResourceChallenge
  | recordInvocation | invocationCount | inventoryLookup => trivial

end Contestant

/-- How the own transaction of a call went: nothing committed, not the first, or the first. -/
def spendOf (h : History) : Option Bool :=
  h.findSome? fun ev ↦ match ev with
    | ⟨.spend _, .ok res⟩ => some res.firstSpend
    | _ => none

/-- The reason a contestant's decision gives. -/
def reasonFor : Option Bool → Reason
  | none => .CHALLENGE_CONSUMED
  | some false => .CREDENTIAL_SPENT
  | some true => .ALLOW

/-- Only a spend changes how the own transaction went. -/
theorem spendOf_snoc {h : History} {e : Op} {r : e.Reply} (he : e.isSpend = false) :
    spendOf (h ++ [⟨e, r⟩]) = spendOf h := by
  unfold spendOf
  rw [List.findSome?_append]
  cases e with
  | spend a => cases he
  | clock | tokenHex | lib | sign | storeBrokerChallenge | consumeBrokerChallenge
  | storeResourceChallenge | getResourceChallenge | recordInvocation | invocationCount
  | inventoryLookup => simp

/-- Queries and signatures do not change how the own transaction went. -/
theorem spendOf_of_extended {h h' : History}
    (he : Prog.ExtendedBy (fun e ↦ (e.isQuery || e.isSign) = true) h h') :
    spendOf h' = spendOf h := by
  obtain ⟨q, rfl, hq⟩ := he
  induction q using List.reverseRecOn with
  | nil => rw [List.append_nil]
  | append_singleton q ev ih =>
    rw [← List.append_assoc, spendOf_snoc, ih fun ev' hev ↦ hq ev' (List.mem_append_left _ hev)]
    have hop := hq ev (by simp)
    rcases ev with ⟨e, r⟩
    cases e with
    | spend => cases hop
    | clock | tokenHex | lib | sign | storeBrokerChallenge | consumeBrokerChallenge
    | storeResourceChallenge | getResourceChallenge | recordInvocation | invocationCount
    | inventoryLookup => rfl

/-- How the own transaction went is told by an own spend. -/
theorem exists_of_spendOf {h : History} {b : Bool} (hb : spendOf h = some b) :
    ∃ a res, (⟨.spend a, .ok res⟩ : Event Op Op.Reply) ∈ h ∧ res.firstSpend = b := by
  obtain ⟨⟨e, r⟩, hev, he⟩ := List.exists_of_findSome?_eq_some hb
  cases e with
  | spend a =>
    cases r with
    | error e => cases he
    | ok res => exact ⟨a, res, hev, Option.some.inj he⟩
  | clock | tokenHex | lib | sign | storeBrokerChallenge | consumeBrokerChallenge
  | storeResourceChallenge | getResourceChallenge | recordInvocation | invocationCount
  | inventoryLookup => cases he

/-- What a contestant guarantees of its operations: it spends its own challenge only. -/
def spendsOwn (app : InventoryApplication) (k : Contestant) (_ : History) (e : Op) : Prop :=
  ∀ a, e = .spend a → a = k.shown.spendArgs app k.request

/-- An operation that spends nothing spends only what is the contestant's own. -/
theorem spendsOwn_of_not {app : InventoryApplication} {k : Contestant} {h : History} {e : Op}
    (he : e.isSpend = false) : spendsOwn app k h e := by
  rintro a rfl
  cases he

/-! ### The phases of the `try` block -/

section Phases

variable {lib : Libraries} {app : InventoryApplication} {k : Contestant} {h : History}
  {l : RedeemLocals} {lost : Prop} (hk : k.Presentable lib app)

include hk

/-- The credential of a contestant is accepted. -/
theorem presentCredential_race :
    Body.Sat (fun _ ↦ k.accepts lib app lost) (spendsOwn app k)
      (fun h' r l' ↦ spendOf h' = spendOf h ∧
      r = .ok (k.shown.credential, k.shown.notBefore, k.shown.notAfter) ∧
      l' = { l with credentialId := some k.shown.credential.credentialId })
      (app.presentCredential k.request) h l := by
  unfold presentCredential callLibExcept
  apply Body.Sat.invoke (spendsOwn_of_not rfl)
  · intro r x hr hx
    rw [hr rfl] at hx
    cases hx
  intro r credential hr hcredential
  rw [hr rfl] at hcredential
  cases hcredential
  apply Body.Sat.assign
  apply Body.Sat.raiseIf
  · intro hid
    rw [hk.identifier] at hid
    cases hid
  intro _
  apply Body.Sat.ofExcept
  · intro x hx
    rw [hk.bounds] at hx
    cases hx
  intro bounds hbounds
  rw [hk.bounds] at hbounds
  cases hbounds
  apply Body.Sat.raiseIf
  · intro hlife
    exact absurd hk.lifetime (by omega)
  intro _
  apply Body.Sat.invoke (spendsOwn_of_not rfl)
  · rintro r x ⟨now, rfl, _⟩ hx
    cases hx
  rintro r atTime ⟨now, rfl, hinside⟩ ⟨⟩
  apply Body.Sat.invoke (spendsOwn_of_not rfl)
  · intro r x hr hx
    rw [hr rfl rfl rfl hinside] at hx
    cases hx
  intro r u _ _
  apply Body.Sat.raiseIf
  · intro hscope
    exact absurd hk.scope hscope
  intro _
  refine ⟨?_, rfl, rfl⟩
  rw [spendOf_snoc rfl, spendOf_snoc rfl, spendOf_snoc rfl]

/-- The challenge of a contestant is accepted, or already consumed. -/
theorem presentChallenge_race :
    Body.Sat (fun _ ↦ k.accepts lib app lost) (spendsOwn app k)
      (fun h' r l' ↦ spendOf h' = spendOf h ∧
      ((lost ∧ ∃ message, r = .error (.decision .CHALLENGE_CONSUMED message)) ∨
        (r = .ok (k.shown.proof, k.shown.tokenHash) ∧
          l' = { l with tokenHash := some k.shown.tokenHash })))
      (app.presentChallenge k.request k.shown.argumentsDigest k.shown.credential) h l := by
  unfold presentChallenge callLibExcept readClock
  apply Body.Sat.invoke (spendsOwn_of_not rfl)
  · intro r x hr hx
    rw [hr rfl] at hx
    cases hx
  intro r proof hr hproof
  rw [hr rfl] at hproof
  cases hproof
  apply Body.Sat.ofExcept
  · intro x hx
    rw [hk.hashed] at hx
    cases hx
  intro tokenHash hhash
  rw [hk.hashed] at hhash
  cases hhash
  apply Body.Sat.assign
  apply Body.Sat.invoke (spendsOwn_of_not rfl)
  · intro r x hr hx
    obtain ⟨row, rfl, _⟩ := hr rfl
    cases hx
  intro r found hr hfound
  obtain ⟨row, rfl, hcontext, hexpires, hlost⟩ := hr rfl
  cases hfound
  apply Body.Sat.ofExcept
  · intro x hx
    cases hx
  rintro row' ⟨⟩
  apply Body.Sat.raiseIf
  · intro hne
    exact absurd (hcontext.trans hk.bound) hne
  intro _
  apply Body.Sat.raiseIf
  · intro hconsumed
    exact ⟨by rw [spendOf_snoc rfl, spendOf_snoc rfl], .inl ⟨hlost hconsumed, _, rfl⟩⟩
  intro _
  apply Body.Sat.invoke (spendsOwn_of_not rfl)
  · rintro r x ⟨now, rfl, _⟩ hx
    cases hx
  rintro r now ⟨now', rfl, hinside⟩ ⟨⟩
  apply Body.Sat.raiseIf
  · intro hstale
    rw [hexpires] at hstale
    exact absurd hinside.2.2.2 (by omega)
  intro _
  refine ⟨?_, .inr ⟨rfl, rfl⟩⟩
  rw [spendOf_snoc rfl, spendOf_snoc rfl, spendOf_snoc rfl]

/-- The holder proof of a contestant is accepted. -/
theorem proveHolder_race :
    Body.Sat (fun _ ↦ k.accepts lib app lost) (spendsOwn app k)
      (fun h' r l' ↦ spendOf h' = spendOf h ∧ r = .ok () ∧ l' = l)
      (app.proveHolder lib k.request k.shown.credential k.shown.proof) h l := by
  obtain ⟨data, hdata, _⟩ := canonicalDigest_eq_ok hk.digest
  unfold proveHolder callLibExcept
  apply Body.Sat.ofExcept
  · intro x hx
    rw [hdata] at hx
    cases hx
  intro sealedPayload hsealed
  rw [mapError_eq_ok] at hsealed
  rw [Body.sat_invoke]
  refine ⟨spendsOwn_of_not rfl, fun r hr ↦ ?_⟩
  rw [hr sealedPayload hsealed rfl]
  exact ⟨spendOf_snoc rfl, rfl, rfl⟩

omit hk in
/-- How the spend of a contestant went is how its own transaction went. -/
theorem spendCredential_race (hnone : spendOf h = none) :
    Body.Sat (fun _ ↦ k.accepts lib app lost) (spendsOwn app k) (fun h' r l' ↦ match r with
      | .ok res => spendOf h' = some true ∧ res.challengeExpiresAt = k.row.expiresAt ∧ l' = l
      | .error e => spendOf h' ≠ some true ∧ (spendOf h' = none → lost) ∧
          e.denialReason = reasonFor (spendOf h'))
      (app.spendCredential k.request k.shown.argumentsDigest k.shown.credential k.shown.notBefore
        k.shown.notAfter k.shown.tokenHash) h l := by
  have hok : ∀ a res, spendOf (h ++ [⟨.spend a, .ok res⟩]) = some res.firstSpend := by
    intro a res
    unfold spendOf at hnone ⊢
    rw [List.findSome?_append, hnone]
    rfl
  have herr : ∀ a e, spendOf (h ++ [⟨.spend a, .error e⟩]) = none := by
    intro a e
    unfold spendOf at hnone ⊢
    rw [List.findSome?_append, hnone]
    rfl
  unfold spendCredential
  apply Body.Sat.invoke
  · rintro a ⟨⟩
    rfl
  · intro r x hr hx
    rcases hr rfl with ⟨hlost, message, rfl⟩ | ⟨res, rfl, _⟩
    · cases hx
      dsimp only
      rw [herr]
      exact ⟨by simp, fun _ ↦ hlost, rfl⟩
    · cases hx
  · intro r res hr hres
    rcases hr rfl with ⟨_, message, rfl⟩ | ⟨res', rfl, hexpires⟩
    · cases hres
    · cases hres
      apply Body.Sat.raiseIf
      · intro hsecond
        dsimp only
        rw [hok, hsecond]
        exact ⟨by simp, by simp, rfl⟩
      · intro hfirst
        refine ⟨?_, hexpires, rfl⟩
        rw [hok]
        simpa using hfirst

omit hk in
/-- The deadlines of a contestant hold after its spend. -/
theorem preHandlerCheck_race {res : CredentialSpendResult}
    (hexpires : res.challengeExpiresAt = k.row.expiresAt) :
    Body.Sat (fun _ ↦ k.accepts lib app lost) (spendsOwn app k)
      (fun h' r l' ↦ spendOf h' = spendOf h ∧ r = .ok () ∧ l' = l)
      (preHandlerCheck k.shown.notBefore k.shown.notAfter res) h l := by
  unfold preHandlerCheck readClock
  apply Body.Sat.invoke (spendsOwn_of_not rfl)
  · rintro r x ⟨now, rfl, _⟩ hx
    cases hx
  rintro r now ⟨now', rfl, hlower, hupper, _, hfresh⟩ ⟨⟩
  apply Body.Sat.raiseIf
  · intro hstale
    rw [hexpires] at hstale
    exact absurd hfresh (by omega)
  intro _
  unfold Body.raiseIf
  rw [Body.sat_ofExcept]
  refine ⟨spendOf_snoc rfl, ?_, rfl⟩
  rw [raiseIf_eq_ok]
  omega

/-- The `try` block of a contestant ends as its own transaction went. -/
theorem authorize_race :
    Body.Sat (fun _ ↦ k.accepts lib app lost) (spendsOwn app k) (fun h' r l' ↦ match r with
      | .ok () => spendOf h' = some true ∧ l' = k.shown.locals
      | .error e => spendOf h' ≠ some true ∧ (spendOf h' = none → lost) ∧
          e.denialReason = reasonFor (spendOf h'))
      (app.authorize lib k.request k.shown.argumentsDigest) [] l := by
  unfold authorize
  apply Body.Sat.bind (presentCredential_race hk)
  · rintro h₁ e l₁ _ ⟨_, ⟨⟩, _⟩
  rintro h₁ ⟨c, nb, na⟩ l₁ _ ⟨hs₁, ⟨⟩, rfl⟩
  apply Body.Sat.bind (presentChallenge_race hk)
  · rintro h₂ e l₂ _ ⟨hs₂, ⟨hlost, message, ⟨⟩⟩ | ⟨⟨⟩, _⟩⟩
    rw [hs₂, hs₁]
    exact ⟨by simp [spendOf], fun _ ↦ hlost, rfl⟩
  rintro h₂ ⟨proof, tokenHash⟩ l₂ _ ⟨hs₂, ⟨_, message, ⟨⟩⟩ | ⟨⟨⟩, rfl⟩⟩
  apply Body.Sat.bind (proveHolder_race hk)
  · rintro h₃ e l₃ _ ⟨_, ⟨⟩, _⟩
  rintro h₃ ⟨⟩ l₃ _ ⟨hs₃, _, rfl⟩
  have hnone : spendOf h₃ = none := by
    rw [hs₃, hs₂, hs₁]
    rfl
  apply Body.Sat.bind (spendCredential_race hnone)
  · intro h₄ e l₄ _ hpost
    exact hpost
  rintro h₄ res l₄ _ ⟨hs₄, hexpires, rfl⟩
  apply (preHandlerCheck_race hexpires).mono
  rintro h₅ r l₅ ⟨hs₅, rfl, rfl⟩
  exact ⟨hs₅.trans hs₄, rfl⟩

end Phases

/-! ### The receipt and the handler -/

section Receipts

variable {lib : Libraries} {app : InventoryApplication} {k : Contestant} {h : History}
  {lost : Prop} (hk : k.Eligible lib app) (hissued : 0 ≤ k.row.issuedAt)

include hk hissued

omit hissued in
/-- The digest of a contestant's arguments is not empty. -/
theorem Contestant.Eligible.digest_ne_nil : k.shown.argumentsDigest ≠ [] := by
  obtain ⟨data, _, hd⟩ := canonicalDigest_eq_ok hk.digest
  rw [hd]
  exact truthy_some.mp (truthy_sha256Hex data)

/-- A receipt whose claims pass validation is signed. -/
theorem receipt_race {a : ReceiptArgs}
    (hcheck : ∀ receiptId decidedAt snapshot digest, ReceiptId receiptId → 0 ≤ decidedAt →
      (∀ n : Nat, ⟨.recordInvocation k.service, n⟩ ∈ h → n ≤ snapshot) → digest ≠ [] →
      (app.receiptFields a receiptId decidedAt snapshot digest).check = .ok ()) :
    Body.Sat (k.rely app lost) (spendsOwn app k) (fun h' r _ ↦ spendOf h' = spendOf h ∧
      ∃ receipt, r = .ok receipt) (app.receipt lib k.service a) h () := by
  unfold receipt readClock
  apply Body.Sat.perform (spendsOwn_of_not rfl)
  rintro receiptId ⟨b, hb, rfl⟩
  apply Body.Sat.invoke (spendsOwn_of_not rfl)
  · rintro r x ⟨now, rfl, _⟩ hx
    cases hx
  rintro r decidedAt ⟨now, rfl, _, _, hnow, _⟩ ⟨⟩
  apply Body.Sat.perform (spendsOwn_of_not rfl)
  intro snapshot hsnapshot
  obtain ⟨digest, hdigest⟩ := hk.policyDigest
  apply Body.Sat.ofExcept
  · intro x hx
    rw [hdigest] at hx
    cases hx
  intro digest' hdigest'
  rw [hdigest] at hdigest'
  cases hdigest'
  have hnonempty : digest ≠ [] := by
    obtain ⟨data, _, rfl⟩ := canonicalDigest_eq_ok hdigest
    exact truthy_some.mp (truthy_sha256Hex data)
  have hok := hcheck (hex b) decidedAt snapshot digest (receiptId_hex hb) (by omega)
    (fun n hn ↦ hsnapshot n (by simp [hn])) hnonempty
  rw [DecisionReceiptPayload.construct_of_check hok]
  apply Body.Sat.ofExcept
  · intro x hx
    cases hx
  intro payload _
  rw [Body.sat_invoke]
  refine ⟨spendsOwn_of_not rfl, ?_⟩
  rintro r ⟨receipt, rfl⟩
  refine ⟨?_, receipt, rfl⟩
  rw [spendOf_snoc rfl, spendOf_snoc rfl, spendOf_snoc rfl, spendOf_snoc rfl]

/-- A denial of a contestant is signed. -/
theorem denyRedemption_race {reason : Reason} {locals : RedeemLocals}
    (hreason : reason ≠ .ALLOW ∧ reason ≠ .HANDLER_FAILED) :
    Body.Sat (k.rely app lost) (spendsOwn app k) (fun h' r _ ↦ spendOf h' = spendOf h ∧
      ∃ d, r = .ok d ∧ d.reason = reason)
      (app.denyRedemption lib k.service k.request k.shown.argumentsDigest reason locals) h () := by
  unfold denyRedemption
  apply Body.Sat.bind (receipt_race hk hissued ?_)
  · rintro h' e l' _ ⟨_, receipt, ⟨⟩⟩
  · rintro h' receipt l' _ ⟨hs, _⟩
    exact ⟨hs, _, rfl, rfl⟩
  · intro receiptId decidedAt snapshot digest hid hnow _ _
    exact check_of_denies hk.named ⟨rfl, hreason, hk.digest_ne_nil, rfl, rfl, rfl⟩ hid hnow

/-- The receipt of a contestant's completed invocation is signed. -/
theorem invocationReceipt_race {n : Nat} (hn : 1 ≤ n)
    (hrecorded : (⟨.recordInvocation k.service, n⟩ : Event Op Op.Reply) ∈ h) :
    Body.Sat (k.rely app lost) (spendsOwn app k) (fun h' r _ ↦ spendOf h' = spendOf h ∧
      ∃ receipt, r = .ok receipt)
      (app.invocationReceipt lib k.service k.request k.shown.argumentsDigest k.shown.locals n true)
      h () := by
  have hchallenge : truthy (some k.shown.tokenHash) = true := by
    rw [(challengeTokenHash_eq_ok hk.hashed).2]
    exact truthy_sha256Hex _
  have hrecord : truthy (some k.request.recordId.val) = true := by
    rw [truthy_some, ← List.length_pos_iff]
    exact k.request.recordId.nonempty
  unfold invocationReceipt
  apply Body.Sat.attempt (receipt_race hk hissued ?_)
  · rintro h' outcome _ _ ⟨hs, receipt, rfl⟩
    rw [Body.sat_ofExcept]
    exact ⟨hs, receipt, rfl⟩
  · intro receiptId decidedAt snapshot digest hid hnow hsnapshot hdigest
    apply check_of_invokes hk.named _ hid hnow hn (hsnapshot n hrecorded) hdigest
    exact ⟨rfl, .inl ⟨rfl, rfl⟩, rfl, hchallenge, hrecord, hk.digest_ne_nil, rfl, rfl⟩

/-- The first spender of a race is served and allowed. -/
theorem invokeHandler_race :
    Body.Sat (k.rely app lost) (spendsOwn app k) (fun h' r _ ↦ spendOf h' = spendOf h ∧
      ∃ d, r = .ok d ∧ d.reason = .ALLOW)
      (app.invokeHandler lib k.service k.request k.shown.argumentsDigest k.shown.locals) h () := by
  unfold invokeHandler
  apply Body.Sat.perform (spendsOwn_of_not rfl)
  intro n hn
  have hrun : Body.Sat (k.rely app lost) (spendsOwn app k)
      (fun h' r _ ↦ spendOf h' = spendOf h ∧
        (⟨.recordInvocation k.service, n⟩ : Event Op Op.Reply) ∈ h' ∧ ∃ result, r = .ok result)
      (runHandler k.service k.request.toInventoryArguments n)
      (h ++ [⟨.recordInvocation k.service, n⟩]) () := by
    unfold runHandler
    apply Body.Sat.invoke (spendsOwn_of_not rfl)
    · rintro r x ⟨raw, rfl, _⟩ hx
      cases hx
    rintro r raw' ⟨raw, rfl, hraw⟩ ⟨⟩
    rw [Body.sat_ofExcept]
    refine ⟨?_, by simp, hraw n hn⟩
    rw [spendOf_snoc rfl, spendOf_snoc rfl]
  apply Body.Sat.attempt hrun
  rintro h' outcome _ _ ⟨hs, hrecorded, result, rfl⟩
  apply Body.Sat.bind (invocationReceipt_race hk hissued hn hrecorded)
  · rintro h'' e l'' _ ⟨_, receipt, ⟨⟩⟩
  · rintro h'' receipt l'' _ ⟨hs', _⟩
    exact ⟨hs'.trans hs, _, rfl, rfl⟩

/-- A contestant's decision gives the reason that its own transaction determines. -/
theorem redeem_race :
    Body.Sat (k.rely app lost) (spendsOwn app k) (fun h' r _ ↦ (spendOf h' = none → lost) ∧
      ∃ d, r = .ok d ∧ d.reason = reasonFor (spendOf h'))
      (app.redeem lib k.service k.request) [] () := by
  unfold redeem
  rw [hk.digest]
  apply Body.Sat.ofExcept
  · intro x hx
    cases hx
  rintro digest ⟨⟩
  apply Body.Sat.attempt ((authorize_race hk.presentable).assume fun _ _ ↦
    Contestant.accepts_of_rely)
  intro h' outcome locals _ hpost
  cases outcome with
  | error e =>
    obtain ⟨hne, hlost, hreason⟩ := hpost
    have hdenies : e.denialReason ≠ .ALLOW ∧ e.denialReason ≠ .HANDLER_FAILED := by
      rw [hreason]
      match hspend : spendOf h' with
      | none => simp [reasonFor]
      | some false => simp [reasonFor]
      | some true => exact absurd hspend hne
    apply (denyRedemption_race hk hissued hdenies).mono
    rintro h'' r l'' ⟨hs, d, rfl, hd⟩
    rw [hs]
    exact ⟨hlost, d, rfl, hd.trans hreason⟩
  | ok u =>
    obtain ⟨hfirst, rfl⟩ := hpost
    apply (invokeHandler_race hk hissued).mono
    rintro h'' r l'' ⟨hs, d, rfl, hd⟩
    rw [hs, hfirst]
    exact ⟨by simp, d, rfl, hd⟩

end Receipts

end InventoryApplication
end Atcap
