import Atcap.Inventory.Signing
import Atcap.Storage.Changes

/-!
# The decision table of a redemption

The reference for `redeem`: one ordered list of checks, each with the reason that its failure
gives, over what the released libraries answer, the database and one clock value. A call that
nothing disturbs decides as the first failing check says, and enters the handler when none fails.
-/

namespace Atcap

open Base

/-- A check and the reason that its failure gives. -/
structure Check where
  holds : Bool
  reason : Reason

/-- The reason of the first check that fails. -/
def firstFailing (checks : List Check) : Option Reason :=
  (checks.find? fun c ↦ !c.holds).map Check.reason

/-- Checks are made in order. -/
theorem firstFailing_append (checks checks' : List Check) :
    firstFailing (checks ++ checks') = (firstFailing checks).or (firstFailing checks') := by
  rw [firstFailing, List.find?_append]
  cases h : checks.find? fun c ↦ !c.holds with
  | none => simp [firstFailing, h]
  | some c => simp [firstFailing, h]

/-- No check fails exactly when every check holds. -/
theorem firstFailing_eq_none {checks : List Check} :
    firstFailing checks = none ↔ ∀ c ∈ checks, c.holds = true := by
  simp [firstFailing]

/-- What a redemption is decided from: the answers of the libraries, the database and the time. -/
structure Occasion where
  answer : (c : LibCall) → Except Exn c.Result
  store : Store
  now : Int

namespace InventoryApplication

section Table

variable (lib : Libraries) (app : InventoryApplication) (request : LookupInput) (o : Occasion)

/-- The credential of a request, if it parses. -/
def credential? : Option Credential :=
  (o.answer (.credentialFromDict (.dict request.credential))).toOption

/-- What `verify_chain` answers for a credential. -/
def chainAnswer (c : Credential) : Except Exn Unit :=
  o.answer (.verifyChain [c] 0 {app.policy.trustedBrokerPublicHex} o.now)

/-- Whether `verify_chain` reports expiry. -/
def reportsExpiry (r : Except Exn Unit) : Bool :=
  match r with
  | .error .credentialExpired => true
  | _ => false

/-- Whether a credential with both bounds is valid for no longer than the policy allows. -/
def lifetimeWithin (c : Credential) : Bool :=
  match c.notBefore, c.notAfter with
  | some notBefore, some notAfter =>
    decide (notAfter - notBefore ≤ app.policy.maxCredentialLifetimeSeconds)
  | _, _ => false

/-- The checks of the credential. -/
def credentialChecks : List Check :=
  let credential? := credential? request o
  [⟨credential?.isSome, .CREDENTIAL_INVALID⟩,
    ⟨credential?.any fun c ↦ c.credentialId.isLowerHexOf 64, .CREDENTIAL_INVALID⟩,
    ⟨credential?.any fun c ↦ c.notBefore.isSome && c.notAfter.isSome, .CREDENTIAL_INVALID⟩,
    ⟨credential?.any app.lifetimeWithin, .CREDENTIAL_INVALID⟩,
    ⟨credential?.any fun c ↦ !reportsExpiry (app.chainAnswer o c), .CREDENTIAL_EXPIRED⟩,
    ⟨credential?.any fun c ↦ (app.chainAnswer o c).isOk, .CREDENTIAL_INVALID⟩,
    ⟨credential?.any fun c ↦ decide (c.scope = {app.policy.qualifiedScope}), .SCOPE_DENIED⟩]

/-- The holder proof of a request, if it parses. -/
def holderProof? : Option HolderProof :=
  (o.answer (.holderProofFromDict (.dict request.holderProof))).toOption

/-- The stored challenge that has the hash of the presented token. -/
def storedChallenge? : Option ResourceChallengeRow :=
  (holderProof? request o).bind fun proof ↦
    o.store.resourceChallenges.find? (sha256Hex (utf8 proof.challenge))

/-- The context that a stored challenge must have for this call. -/
def expectedContext? : Option ChallengeContext := do
  let credential ← credential? request o
  let digest ← (canonicalDigest lib request.toInventoryArguments.modelDump).toOption
  return app.context credential.credentialId digest request.recordId.val

/-- The checks of the challenge. -/
def challengeChecks : List Check :=
  let stored? := storedChallenge? request o
  [⟨(holderProof? request o).isSome, .HOLDER_PROOF_INVALID⟩,
    ⟨stored?.isSome, .CHALLENGE_INVALID⟩,
    ⟨stored?.any fun row ↦ decide (some row.context = app.expectedContext? lib request o),
      .HOLDER_PROOF_INVALID⟩,
    ⟨stored?.any fun row ↦ row.consumedAt.isNone, .CHALLENGE_CONSUMED⟩,
    ⟨stored?.any fun row ↦ decide (o.now < row.expiresAt), .CHALLENGE_STALE⟩]

/-- What `verify_holder_proof` answers for this call. -/
def holderAnswer? : Option (Except Exn Unit) := do
  let credential ← credential? request o
  let proof ← holderProof? request o
  let sealedPayload ← (canonicalJson lib request.toInventoryArguments.modelDump).toOption
  return o.answer (.verifyHolderProof (app.holderProofCheck request credential proof sealedPayload))

/-- The check of possession. -/
def holderCheck : Check :=
  ⟨(app.holderAnswer? lib request o).any Except.isOk, .HOLDER_PROOF_INVALID⟩

/-- The check that the credential has no redemption. -/
def spentCheck : Check :=
  ⟨(credential? request o).any fun c ↦ !o.store.spent c.credentialId, .CREDENTIAL_SPENT⟩

/-- The checks of `redeem` in their order, each with the reason of its failure. -/
def decisionTable : List Check :=
  app.credentialChecks request o ++ (app.challengeChecks lib request o ++
    [app.holderCheck lib request o, spentCheck request o])

/-- What is assumed of the libraries: they raise only what `redeem` catches for them, a chain is
accepted only inside the validity window, and tokens have a UTF-8 encoding. SQLite can store the
time. -/
structure Orderly : Prop where
  credential : ∀ e, o.answer (.credentialFromDict (.dict request.credential)) = .error e →
    e = .invalidCredential ∨ e = .type ∨ e.isValueError = true
  chain : ∀ c e, app.chainAnswer o c = .error e → e.isCA2AError = true
  window : ∀ c, app.chainAnswer o c = .ok () → (∀ n, c.notBefore = some n → n ≤ o.now) ∧
    ∀ n, c.notAfter = some n → o.now ≤ n
  proof : ∀ e, o.answer (.holderProofFromDict (.dict request.holderProof)) = .error e →
    e = .holderProofInvalid ∨ e = .type ∨ e.isValueError = true
  token : ∀ proof, o.answer (.holderProofFromDict (.dict request.holderProof)) = .ok proof →
    proof.challenge.encodable = true
  holder : ∀ check e, o.answer (.verifyHolderProof check) = .error e → e = .holderProofInvalid
  time : bindInt o.now = .ok ()

end Table

/-- The replies of a call that runs alone at one clock value over a working store. -/
structure Occasion.Replies (o : Occasion) (A : History → Event Op Op.Reply → Prop) : Prop where
  clock : ∀ h r, A h ⟨.clock, r⟩ → r = .ok o.now
  lib : ∀ h c r, A h ⟨.lib c, r⟩ → r = o.answer c
  read : ∀ h tokenHash r, Quiet h → A h ⟨.getResourceChallenge tokenHash, r⟩ →
    r = o.store.getResourceChallenge tokenHash Faults.none
  spend : ∀ h a r, Quiet h → A h ⟨.spend a, r⟩ →
    r = (Store.consumeChallengeAndSpendCredential a (.ok o.now) Faults.none o.store).1

section Phases

variable {lib : Libraries} {app : InventoryApplication} {request : LookupInput} {o : Occasion}
  {A : History → Event Op Op.Reply → Prop} {h : History} {l : RedeemLocals}

/-- What holds of an accepted credential. -/
structure CredentialAccepted (app : InventoryApplication) (request : LookupInput) (o : Occasion)
    (c : Credential) (notBefore notAfter : Int) : Prop where
  parsed : credential? request o = some c
  identifier : c.credentialId.isLowerHexOf 64 = true
  lower : notBefore ≤ o.now
  upper : o.now ≤ notAfter
  checks : firstFailing (app.credentialChecks request o) = none

private theorem denialReason_malformedCredential {e : Exn}
    (he : e = .invalidCredential ∨ e = .type ∨ e.isValueError = true) :
    (malformedCredential e).denialReason = .CREDENTIAL_INVALID := by
  obtain rfl | rfl | he := he
  · rfl
  · rfl
  · cases e <;> first | rfl | cases he

private theorem denialReason_malformedProof {e : Exn}
    (he : e = .holderProofInvalid ∨ e = .type ∨ e.isValueError = true) :
    (malformedProof e).denialReason = .HOLDER_PROOF_INVALID := by
  obtain rfl | rfl | he := he
  · rfl
  · rfl
  · cases e <;> first | rfl | cases he

private theorem denialReason_chainFailure {e : Exn} (he : e.isCA2AError = true) :
    (chainFailure e).denialReason =
      if reportsExpiry (.error e) then .CREDENTIAL_EXPIRED else .CREDENTIAL_INVALID := by
  cases e <;> first | rfl | cases he

private theorem validityBounds_refuses {c : Credential} {e : Exn}
    (he : validityBounds c = .error e) :
    (c.notBefore.isSome && c.notAfter.isSome) = false ∧ e.denialReason = .CREDENTIAL_INVALID := by
  unfold validityBounds at he
  split at he
  · cases he
  · next hnone =>
    cases he
    refine ⟨?_, rfl⟩
    cases hb : c.notBefore with
    | none => rfl
    | some n =>
      cases ha : c.notAfter with
      | none => rfl
      | some m => exact absurd ha (hnone n m hb)

/-- A library answers as the occasion says. -/
theorem Occasion.Replies.callLib (hA : Occasion.Replies o A) (hq : Quiet h) {c : LibCall}
    {translate : Exn → Exn} {β : Type} {g : c.Result → Py RedeemLocals β}
    {Q : History → Except Exn β → RedeemLocals → Prop}
    (herror : ∀ h' e, Quiet h' → o.answer c = .error e → Q h' (.error (translate e)) l)
    (hok : ∀ h' a, Quiet h' → o.answer c = .ok a → (g a).Sat A (fun _ _ ↦ True) Q h' l) :
    (callLibExcept c translate >>= g).Sat A (fun _ _ ↦ True) Q h l := by
  unfold callLibExcept
  apply Body.Sat.invoke trivial
  · intro r x hr hx
    obtain rfl := hA.lib _ _ _ hr
    obtain ⟨e, he, rfl⟩ := mapError_eq_error.mp hx
    exact herror _ e (hq.snoc rfl) he
  · intro r a hr ha
    obtain rfl := hA.lib _ _ _ hr
    exact hok _ a (hq.snoc rfl) (mapError_eq_ok.mp ha)

/-- The clock answers as the occasion says. -/
theorem Occasion.Replies.readClock (hA : Occasion.Replies o A) (hq : Quiet h) {β : Type}
    {translate : Except Exn Int → Except Exn Int} (ht : translate (.ok o.now) = .ok o.now)
    {g : Int → Py RedeemLocals β} {Q : History → Except Exn β → RedeemLocals → Prop}
    (hok : ∀ h', Quiet h' → (g o.now).Sat A (fun _ _ ↦ True) Q h' l) :
    (Body.invoke .clock translate >>= g).Sat A (fun _ _ ↦ True) Q h l := by
  apply Body.Sat.invoke trivial
  · intro r x hr hx
    obtain rfl := hA.clock _ _ hr
    rw [ht] at hx
    cases hx
  · intro r now hr hnow
    obtain rfl := hA.clock _ _ hr
    rw [ht] at hnow
    cases hnow
    exact hok _ (hq.snoc rfl)

/-- A credential that passed the checks of its shape fails the check of its chain as
`verify_chain` answers. -/
theorem firstFailing_of_chainFailure (ho : app.Orderly request o) {c : Credential}
    (hparsed : credential? request o = some c) (hid : c.credentialId.isLowerHexOf 64 = true)
    {notBefore notAfter : Int} (hlower : c.notBefore = some notBefore)
    (hupper : c.notAfter = some notAfter)
    (hlife : notAfter - notBefore ≤ app.policy.maxCredentialLifetimeSeconds) {e : Exn}
    (hchain : app.chainAnswer o c = .error e) :
    firstFailing (app.credentialChecks request o) = some (chainFailure e).denialReason := by
  rw [denialReason_chainFailure (ho.chain c e hchain)]
  cases hexpiry : reportsExpiry (.error e) with
  | true =>
    simp [firstFailing, credentialChecks, hparsed, hid, hlower, hupper, lifetimeWithin, hlife,
      hchain, hexpiry]
  | false =>
    simp [firstFailing, credentialChecks, hparsed, hid, hlower, hupper, lifetimeWithin, hlife,
      hchain, hexpiry, Except.isOk, Except.toBool]

/-- `presentCredential` decides as the checks of the credential. -/
theorem presentCredential_decides (hA : Occasion.Replies o A) (ho : app.Orderly request o)
    (hq : Quiet h) :
    Body.Sat A (fun _ _ ↦ True) (fun h' r l' ↦ Quiet h' ∧ match r with
      | .ok (c, notBefore, notAfter) => CredentialAccepted app request o c notBefore notAfter ∧
          l' = { l with credentialId := some c.credentialId }
      | .error e => firstFailing (app.credentialChecks request o) = some e.denialReason ∧
          (l' = l ∨ ∃ c, credential? request o = some c ∧
            l' = { l with credentialId := some c.credentialId }))
      (app.presentCredential request) h l := by
  unfold presentCredential
  apply hA.callLib hq
  · intro h' e hq' hp
    refine ⟨hq', ?_, .inl rfl⟩
    rw [denialReason_malformedCredential (ho.credential e hp)]
    simp [firstFailing, credentialChecks, credential?, hp, Except.toOption]
  intro h₁ c hq₁ hc
  have hparsed : credential? request o = some c := by
    rw [credential?, hc]
    rfl
  have hlocals : ∀ {P : Prop}, P → P ∧ ({ l with credentialId := some c.credentialId } = l ∨
      ∃ c', credential? request o = some c' ∧
        { l with credentialId := some c.credentialId } =
          { l with credentialId := some c'.credentialId }) :=
    fun hp ↦ ⟨hp, .inr ⟨c, hparsed, rfl⟩⟩
  apply Body.Sat.assign
  apply Body.Sat.raiseIf
  · intro hid
    refine ⟨hq₁, hlocals ?_⟩
    simp [firstFailing, credentialChecks, hparsed, hid, Exn.denialReason]
  intro hid
  rw [Bool.not_eq_false] at hid
  apply Body.Sat.ofExcept
  · intro x hx
    obtain ⟨hbounds, hreason⟩ := validityBounds_refuses hx
    refine ⟨hq₁, hlocals ?_⟩
    simp [firstFailing, credentialChecks, hparsed, hid, hbounds, hreason]
  rintro ⟨notBefore, notAfter⟩ hbounds
  obtain ⟨hlower, hupper⟩ := validityBounds_eq_ok hbounds
  apply Body.Sat.raiseIf
  · intro hlife
    refine ⟨hq₁, hlocals ?_⟩
    simp [firstFailing, credentialChecks, hparsed, hid, hlower, hupper, lifetimeWithin,
      Int.not_le.mpr hlife, Exn.denialReason]
  intro hlife
  have hlife' := Int.not_lt.mp hlife
  apply hA.readClock hq₁ rfl
  intro h₂ hq₂
  apply hA.callLib hq₂
  · intro h' e hq' hchain
    exact ⟨hq', hlocals (firstFailing_of_chainFailure ho hparsed hid hlower hupper hlife' hchain)⟩
  intro h₃ u hq₃ hanswer
  have hchain : app.chainAnswer o c = .ok () := hanswer
  have hexpiry : reportsExpiry (.ok ()) = false := rfl
  apply Body.Sat.raiseIf
  · intro hscope
    refine ⟨hq₃, hlocals ?_⟩
    simp [firstFailing, credentialChecks, hparsed, hid, hlower, hupper, lifetimeWithin, hlife',
      hchain, hexpiry, Except.isOk, Except.toBool, hscope, Exn.denialReason]
  intro hscope
  obtain ⟨hbefore, hafter⟩ := ho.window c hchain
  refine ⟨hq₃, ⟨hparsed, hid, hbefore _ hlower, hafter _ hupper, ?_⟩, rfl⟩
  simp [firstFailing, credentialChecks, hparsed, hid, hlower, hupper, lifetimeWithin, hlife',
    hchain, hexpiry, Except.isOk, Except.toBool, not_not.mp hscope]

/-- A working store answers with the row of a token. -/
theorem getResourceChallenge_none {token : Text} {db : Store} :
    db.getResourceChallenge (sha256Hex (utf8 token)) Faults.none =
      .ok (db.resourceChallenges.find? (sha256Hex (utf8 token))) := by
  have hbind : bindText (sha256Hex (utf8 token)) = .ok () := by
    rw [bindText, if_pos (encodable_sha256Hex _)]
  simp [Store.getResourceChallenge, Faults.check, Faults.none, hbind, bind, Except.bind, pure,
    Except.pure]

/-- The stored challenge is checked as the later checks of the challenge say. -/
theorem storedChallenge_decides (hA : Occasion.Replies o A) {proof : HolderProof}
    (hparsed : holderProof? request o = some proof) {row : ResourceChallengeRow}
    (hrow : o.store.resourceChallenges.find? (sha256Hex (utf8 proof.challenge)) = some row)
    {context : ChallengeContext} (hcontext : app.expectedContext? lib request o = some context)
    (hq : Quiet h) :
    Body.Sat A (fun _ _ ↦ True) (fun h' r l' ↦ Quiet h' ∧ l' = l ∧ match r with
      | .ok result => result = (proof, sha256Hex (utf8 proof.challenge)) ∧ row.context = context ∧
          row.consumedAt = none ∧ o.now < row.expiresAt ∧
          firstFailing (app.challengeChecks lib request o) = none
      | .error e => firstFailing (app.challengeChecks lib request o) = some e.denialReason)
      (do
        Body.raiseIf (row.context ≠ context)
          (.decision .HOLDER_PROOF_INVALID "stored resource challenge is bound to another request")
        Body.raiseIf (row.consumedAt.isSome)
          (.decision .CHALLENGE_CONSUMED "resource challenge was consumed")
        let now ← Atcap.readClock
        Body.raiseIf (now ≥ row.expiresAt)
          (.decision .CHALLENGE_STALE "resource challenge expired")
        return (proof, sha256Hex (utf8 proof.challenge))) h l := by
  have hstored : storedChallenge? request o = some row := by
    rw [storedChallenge?, hparsed, Option.bind_some, hrow]
  apply Body.Sat.raiseIf
  · intro hne
    refine ⟨hq, rfl, ?_⟩
    simp [firstFailing, challengeChecks, hparsed, hstored, hcontext, hne, Exn.denialReason]
  intro heq
  rw [not_not] at heq
  apply Body.Sat.raiseIf
  · intro hconsumed
    have hsome : row.consumedAt.isNone = false := by
      rw [← Option.not_isSome, hconsumed]
      rfl
    refine ⟨hq, rfl, ?_⟩
    simp [firstFailing, challengeChecks, hparsed, hstored, hcontext, heq, hsome, Exn.denialReason]
  intro hconsumed
  have hnone : row.consumedAt = none := by simpa using hconsumed
  apply hA.readClock hq rfl
  intro h' hq'
  apply Body.Sat.raiseIf
  · intro hstale
    refine ⟨hq', rfl, ?_⟩
    simp [firstFailing, challengeChecks, hparsed, hstored, hcontext, heq, hnone,
      Int.not_lt.mpr hstale, Exn.denialReason]
  intro hfresh
  have hlt := Int.not_le.mp hfresh
  refine ⟨hq', rfl, rfl, heq, hnone, hlt, ?_⟩
  simp [firstFailing, challengeChecks, hparsed, hstored, hcontext, heq, hnone, hlt]

/-- `presentChallenge` decides as the checks of the challenge. -/
theorem presentChallenge_decides (hA : Occasion.Replies o A) (ho : app.Orderly request o)
    {digest : Text} (hd : canonicalDigest lib request.toInventoryArguments.modelDump = .ok digest)
    {c : Credential} (hc : credential? request o = some c) (hq : Quiet h) :
    Body.Sat A (fun _ _ ↦ True) (fun h' r l' ↦ Quiet h' ∧ match r with
      | .ok (proof, tokenHash) => ∃ row, holderProof? request o = some proof ∧
          o.store.resourceChallenges.find? tokenHash = some row ∧
          tokenHash = sha256Hex (utf8 proof.challenge) ∧
          row.context = app.context c.credentialId digest request.recordId.val ∧
          row.consumedAt = none ∧ o.now < row.expiresAt ∧
          firstFailing (app.challengeChecks lib request o) = none ∧
          l' = { l with tokenHash := some tokenHash }
      | .error e => firstFailing (app.challengeChecks lib request o) = some e.denialReason ∧
          (l' = l ∨ ∃ token : Text, l' = { l with tokenHash := some (sha256Hex (utf8 token)) }))
      (app.presentChallenge request digest c) h l := by
  have hcontext : app.expectedContext? lib request o =
      some (app.context c.credentialId digest request.recordId.val) := by
    simp [expectedContext?, hc, hd, Except.toOption]
  unfold presentChallenge
  apply hA.callLib hq
  · intro h' e hq' hp
    refine ⟨hq', ?_, .inl rfl⟩
    rw [denialReason_malformedProof (ho.proof e hp)]
    simp [firstFailing, challengeChecks, holderProof?, hp, Except.toOption]
  intro h₁ proof hq₁ hanswer
  have hparsed : holderProof? request o = some proof := by
    rw [holderProof?, hanswer]
    rfl
  rw [challengeTokenHash_of_encodable (ho.token proof hanswer)]
  apply Body.Sat.ofExcept
  · intro x hx
    cases hx
  rintro tokenHash ⟨⟩
  apply Body.Sat.assign
  apply Body.Sat.invoke trivial
  · intro r x hr hx
    obtain rfl := hA.read _ _ _ hq₁ hr
    rw [getResourceChallenge_none] at hx
    cases hx
  intro r found hr hfound
  obtain rfl := hA.read _ _ _ hq₁ hr
  have hq₂ : Quiet (h₁ ++ [⟨.getResourceChallenge (sha256Hex (utf8 proof.challenge)),
    o.store.getResourceChallenge (sha256Hex (utf8 proof.challenge)) Faults.none⟩]) := hq₁.snoc rfl
  rw [getResourceChallenge_none] at hfound
  cases hfound
  apply Body.Sat.ofExcept
  · intro x hx
    refine ⟨hq₂, ?_, .inr ⟨proof.challenge, rfl⟩⟩
    cases hf : o.store.resourceChallenges.find? (sha256Hex (utf8 proof.challenge)) with
    | some row =>
      rw [hf] at hx
      cases hx
    | none =>
      rw [hf] at hx
      cases hx
      simp [firstFailing, challengeChecks, storedChallenge?, hparsed, hf, Exn.denialReason]
  intro row hrow
  have hf := orRaise_eq_ok.mp hrow
  apply (storedChallenge_decides hA hparsed hf hcontext hq₂).mono
  rintro h' r l' ⟨hq', rfl, hr⟩
  cases r with
  | error e => exact ⟨hq', hr, .inr ⟨proof.challenge, rfl⟩⟩
  | ok result =>
    obtain ⟨rfl, heq, hnone, hlt, hpass⟩ := hr
    exact ⟨hq', row, hparsed, hf, rfl, heq, hnone, hlt, hpass, rfl⟩

/-- `proveHolder` decides as the check of possession. -/
theorem proveHolder_decides (hA : Occasion.Replies o A) (ho : app.Orderly request o)
    {digest : Text} (hd : canonicalDigest lib request.toInventoryArguments.modelDump = .ok digest)
    {c : Credential} (hc : credential? request o = some c) {proof : HolderProof}
    (hp : holderProof? request o = some proof) (hq : Quiet h) :
    Body.Sat A (fun _ _ ↦ True) (fun h' r l' ↦ Quiet h' ∧ l' = l ∧ match r with
      | .ok () => (app.holderCheck lib request o).holds = true
      | .error e => (app.holderCheck lib request o).holds = false ∧
          e.denialReason = .HOLDER_PROOF_INVALID)
      (app.proveHolder lib request c proof) h l := by
  obtain ⟨data, hdata, -⟩ := canonicalDigest_eq_ok hd
  have hcheck : app.holderAnswer? lib request o =
      some (o.answer (.verifyHolderProof (app.holderProofCheck request c proof data))) := by
    simp [holderAnswer?, hc, hp, hdata, Except.toOption]
  unfold proveHolder callLibExcept
  rw [hdata]
  apply Body.Sat.ofExcept
  · intro x hx
    cases hx
  rintro _ ⟨⟩
  rw [Body.sat_invoke]
  refine ⟨trivial, fun r hr ↦ ⟨hq.snoc rfl, rfl, ?_⟩⟩
  obtain rfl := hA.lib _ _ _ hr
  cases ha : o.answer (.verifyHolderProof (app.holderProofCheck request c proof data)) with
  | ok u =>
    change (app.holderCheck lib request o).holds = true
    rw [holderCheck, hcheck, ha]
    rfl
  | error e =>
    obtain rfl := ho.holder _ _ ha
    change (app.holderCheck lib request o).holds = false ∧ _
    rw [holderCheck, hcheck, ha]
    exact ⟨rfl, rfl⟩

/-- The spend of a checked call fails only when the credential is spent. -/
theorem spendCredential_decides (hA : Occasion.Replies o A) (ho : app.Orderly request o)
    {digest tokenHash : Text} {c : Credential} {notBefore notAfter : Int}
    (hc : CredentialAccepted app request o c notBefore notAfter) {row : ResourceChallengeRow}
    (hrow : o.store.resourceChallenges.find? tokenHash = some row)
    (hbind : bindText tokenHash = .ok ())
    (hcontext : row.context = app.context c.credentialId digest request.recordId.val)
    (hnone : row.consumedAt = none) (hfresh : o.now < row.expiresAt) (hq : Quiet h) :
    Body.Sat A (fun _ _ ↦ True) (fun h' r l' ↦ Unserved h' ∧ l' = l ∧ match r with
      | .ok res => (spentCheck request o).holds = true ∧ res.challengeExpiresAt = row.expiresAt
      | .error e => (spentCheck request o).holds = false ∧ e.denialReason = .CREDENTIAL_SPENT)
      (app.spendCredential request digest c notBefore notAfter tokenHash) h l := by
  have hcredential : bindText c.credentialId = .ok () := by
    rw [bindText, if_pos (encodable_of_isLowerHexOf hc.identifier)]
  have hrecord : bindText request.recordId.val = .ok () := by
    rw [bindText, if_pos request.recordId.encodable]
  have hcheck : (spentCheck request o).holds = !o.store.spent c.credentialId := by
    simp [spentCheck, hc.parsed]
  let a : SpendArgs :=
    ⟨tokenHash, app.context c.credentialId digest request.recordId.val, notBefore, notAfter⟩
  have hspend : (Store.consumeChallengeAndSpendCredential a (.ok o.now) Faults.none o.store).1 =
      .ok ⟨!o.store.spent c.credentialId, o.now, row.expiresAt⟩ := by
    rcases spend_faultless (a := a) hrow hfresh hc.lower hc.upper hcontext hbind hcredential hrecord
      ho.time with ⟨hsome, -⟩ | ⟨-, heq⟩
    · rw [hnone] at hsome
      cases hsome
    · rw [heq]
      rfl
  unfold spendCredential
  apply Body.Sat.invoke trivial
  · intro r x hr hx
    obtain rfl := hA.spend _ _ _ hq hr
    rw [hspend] at hx
    cases hx
  intro r res hr hres
  obtain rfl := hA.spend _ _ _ hq hr
  rw [hspend] at hres
  cases hres
  apply Body.Sat.raiseIf
  · intro hspent
    exact ⟨hq.unserved.snoc rfl, rfl, by rw [hcheck]; exact hspent, rfl⟩
  intro hfirst
  refine ⟨hq.unserved.snoc rfl, rfl, ?_, rfl⟩
  rw [hcheck]
  simpa using hfirst

/-- The deadlines that held at the spend hold at the same time before the handler. -/
theorem preHandlerCheck_decides (hA : Occasion.Replies o A) {notBefore notAfter : Int}
    {res : CredentialSpendResult} (hlower : notBefore ≤ o.now) (hupper : o.now ≤ notAfter)
    (hfresh : o.now < res.challengeExpiresAt) (hu : Unserved h) :
    Body.Sat A (fun _ _ ↦ True) (fun h' r l' ↦ Unserved h' ∧ l' = l ∧ r = .ok ())
      (preHandlerCheck notBefore notAfter res) h l := by
  unfold preHandlerCheck readClock
  apply Body.Sat.invoke trivial
  · intro r x hr hx
    obtain rfl := hA.clock _ _ hr
    cases hx
  intro r now hr hnow
  obtain rfl := hA.clock _ _ hr
  cases hnow
  apply Body.Sat.raiseIf
  · intro hstale
    omega
  intro _
  unfold Body.raiseIf
  rw [Body.sat_ofExcept]
  refine ⟨hu.snoc rfl, rfl, ?_⟩
  rw [raiseIf_eq_ok]
  omega

/-- The local variables of a denied call hold what it has parsed. -/
structure LocalsOf (request : LookupInput) (o : Occasion) (l : RedeemLocals) : Prop where
  credentialId : ∀ t, l.credentialId = some t →
    ∃ c, credential? request o = some c ∧ t = c.credentialId
  tokenHash : ∀ t, l.tokenHash = some t → ∃ token : Text, t = sha256Hex (utf8 token)

/-- The `try` block of `redeem` decides as the table. -/
theorem authorize_decides (hA : Occasion.Replies o A) (ho : app.Orderly request o)
    {digest : Text}
    (hd : canonicalDigest lib request.toInventoryArguments.modelDump = .ok digest) :
    Body.Sat A (fun _ _ ↦ True) (fun h' r l' ↦ Unserved h' ∧ match r with
      | .ok () => firstFailing (app.decisionTable lib request o) = none
      | .error e => firstFailing (app.decisionTable lib request o) = some e.denialReason ∧
          LocalsOf request o l')
      (app.authorize lib request digest) [] ⟨none, none⟩ := by
  have hnil : ∀ t : Text, (none : Option Text) = some t → ∃ token : Text,
      t = sha256Hex (utf8 token) := by
    intro t ht
    cases ht
  unfold authorize decisionTable
  rw [firstFailing_append, firstFailing_append]
  apply Body.Sat.bind (presentCredential_decides hA ho quiet_nil)
  · rintro h₁ e l₁ _ ⟨hq, hfailing, hlocals⟩
    refine ⟨hq.unserved, by rw [hfailing]; rfl, ?_⟩
    obtain rfl | ⟨c, hc, rfl⟩ := hlocals
    · exact ⟨nofun, hnil⟩
    · exact ⟨fun t ht ↦ ⟨c, hc, by cases ht; rfl⟩, hnil⟩
  rintro h₁ ⟨c, notBefore, notAfter⟩ l₁ _ ⟨hq₁, hc, rfl⟩
  rw [hc.checks, Option.none_or]
  have hcredential : ∀ t, some c.credentialId = some t →
      ∃ c', credential? request o = some c' ∧ t = c'.credentialId := by
    rintro t ⟨⟩
    exact ⟨c, hc.parsed, rfl⟩
  apply Body.Sat.bind (presentChallenge_decides hA ho hd hc.parsed hq₁)
  · rintro h₂ e l₂ _ ⟨hq, hfailing, hlocals⟩
    refine ⟨hq.unserved, by rw [hfailing]; rfl, ?_⟩
    obtain rfl | ⟨token, rfl⟩ := hlocals
    · exact ⟨hcredential, hnil⟩
    · exact ⟨hcredential, fun t ht ↦ ⟨token, by cases ht; rfl⟩⟩
  rintro h₂ ⟨proof, tokenHash⟩ l₂ _
    ⟨hq₂, row, hproof, hrow, rfl, hcontext, hnone, hfresh, hchallenge, rfl⟩
  rw [hchallenge, Option.none_or]
  have hlocals : LocalsOf request o
      ⟨some c.credentialId, some (sha256Hex (utf8 proof.challenge))⟩ :=
    ⟨hcredential, fun t ht ↦ ⟨proof.challenge, by cases ht; rfl⟩⟩
  apply Body.Sat.bind (proveHolder_decides hA ho hd hc.parsed hproof hq₂)
  · rintro h₃ e l₃ _ ⟨hq, rfl, hfails, hreason⟩
    refine ⟨hq.unserved, ?_, hlocals⟩
    simp only [firstFailing, List.find?_cons, hfails, Bool.not_false, Option.map_some, hreason]
    rfl
  rintro h₃ ⟨⟩ l₃ _ ⟨hq₃, rfl, hholder⟩
  have hbind : bindText (sha256Hex (utf8 proof.challenge)) = .ok () := by
    rw [bindText, if_pos (encodable_sha256Hex _)]
  apply Body.Sat.bind (spendCredential_decides hA ho hc hrow hbind hcontext hnone hfresh hq₃)
  · rintro h₄ e l₄ _ ⟨hu, rfl, hfails, hreason⟩
    refine ⟨hu, ?_, hlocals⟩
    simp only [firstFailing, List.find?_cons, hholder, hfails, Bool.not_true, Bool.not_false,
      Option.map_some, hreason]
    rfl
  rintro h₄ res l₄ _ ⟨hu₄, rfl, hspent, hexpires⟩
  apply (preHandlerCheck_decides hA hc.lower hc.upper (by rw [hexpires]; exact hfresh) hu₄).mono
  rintro h₅ r l₅ ⟨hu₅, rfl, rfl⟩
  refine ⟨hu₅, ?_⟩
  simp only [firstFailing, List.find?_cons, hholder, hspent, Bool.not_true, List.find?_nil,
    Option.map_none]

/-! ### The whole call -/

/-- Once admitted, a call enters the handler. -/
theorem invokeHandler_enters {i : Nat} {digest : Text} {locals : RedeemLocals} :
    Body.Sat A (fun _ _ ↦ True) (fun h' _ _ ↦ ∃ ev ∈ h', ev.op.entersHandler = true)
      (app.invokeHandler lib i request digest locals) h () := by
  unfold invokeHandler
  apply Body.Sat.perform trivial
  intro n _
  have hrun : Body.Sat A (fun _ _ ↦ True) (fun h' _ _ ↦ ∃ ev ∈ h', ev.op.entersHandler = true)
      (runHandler i request.toInventoryArguments n) (h ++ [⟨.recordInvocation i, n⟩]) () := by
    unfold runHandler
    apply Body.Sat.invoke trivial
    · intro r x _ _
      exact ⟨_, List.mem_append_right _ (List.mem_singleton_self _), rfl⟩
    intro r raw _ _
    rw [Body.sat_ofExcept]
    exact ⟨_, List.mem_append_right _ (List.mem_singleton_self _), rfl⟩
  apply Body.Sat.attempt hrun
  rintro h' outcome _ _ ⟨ev, hev, henters⟩
  apply (Body.sat_extends _ h' _).mono
  intro h'' _ _ hprefix
  exact ⟨ev, hprefix.subset hev, henters⟩

/-- A call that runs alone enters the handler when no check fails; otherwise every decision it
returns is a denial with the reason of the first failing check. -/
theorem redeem_decides (hA : Occasion.Replies o A) (ho : app.Orderly request o) {i : Nat}
    {digest : Text}
    (hd : canonicalDigest lib request.toInventoryArguments.modelDump = .ok digest) :
    Body.Sat A (fun _ _ ↦ True) (fun h' r _ ↦
      match firstFailing (app.decisionTable lib request o) with
      | none => ∃ ev ∈ h', ev.op.entersHandler = true
      | some reason => (∀ ev ∈ h', ev.op.entersHandler = false) ∧
          ∀ d, r = .ok d → d.allowed = false ∧ d.reason = reason ∧ d.result = none)
      (app.redeem lib i request) [] () := by
  unfold redeem
  rw [hd]
  apply Body.Sat.ofExcept
  · intro x hx
    cases hx
  rintro _ ⟨⟩
  apply Body.Sat.attempt (authorize_decides hA ho hd)
  rintro h' outcome locals _ ⟨hu, hpost⟩
  cases outcome with
  | ok u =>
    rw [hpost]
    exact invokeHandler_enters
  | error e =>
    rw [hpost.1]
    apply Body.Sat.bind (receipt_extends h' _)
    · intro h'' x _ _ hext
      exact ⟨not_entered_of_extended hext hu.not_entered, nofun⟩
    · rintro h'' receipt _ _ hext
      refine ⟨not_entered_of_extended hext hu.not_entered, ?_⟩
      rintro d ⟨⟩
      exact ⟨rfl, rfl, rfl⟩

/-- No check of the table gives a reason of the allow path. -/
theorem denies_of_failing {reason : Reason}
    (hr : firstFailing (app.decisionTable lib request o) = some reason) :
    reason ≠ .ALLOW ∧ reason ≠ .HANDLER_FAILED := by
  rw [firstFailing, Option.map_eq_some_iff] at hr
  obtain ⟨c, hc, rfl⟩ := hr
  have hmem := List.mem_of_find?_eq_some hc
  simp only [decisionTable, credentialChecks, challengeChecks, holderCheck, spentCheck,
    List.cons_append, List.nil_append, List.mem_cons, List.not_mem_nil, or_false] at hmem
  rcases hmem with rfl | rfl | rfl | rfl | rfl | rfl | rfl | rfl | rfl | rfl | rfl | rfl | rfl | rfl
  all_goals exact ⟨nofun, nofun⟩

/-- With a working signer the denial is returned with an accepted receipt. -/
theorem redeem_denies (law : Rfc8785 lib) {i : Nat} (hs : app.Signing lib A)
    (hcount : ∀ h (m : Nat), Unserved h → A h ⟨.invocationCount i, m⟩ → m < 2 ^ 53)
    (hA : Occasion.Replies o A) (ho : app.Orderly request o)
    (he : ∀ c, credential? request o = some c → c.credentialId.encodable = true) {digest : Text}
    (hd : canonicalDigest lib request.toInventoryArguments.modelDump = .ok digest) :
    Body.Sat A (fun _ _ ↦ True) (fun _ r _ ↦
      ∀ reason, firstFailing (app.decisionTable lib request o) = some reason →
        ∃ receipt fields, r = .ok ⟨false, reason, receipt, none⟩ ∧ fields.decision = .deny ∧
          fields.reason = reason ∧ app.receiptSigner.Signed lib fields receipt)
      (app.redeem lib i request) [] () := by
  unfold redeem
  rw [hd]
  apply Body.Sat.ofExcept
  · intro x hx
    cases hx
  rintro _ ⟨⟩
  apply Body.Sat.attempt (authorize_decides hA ho hd)
  rintro h' outcome locals _ ⟨hu, hpost⟩
  cases outcome with
  | ok u =>
    apply (Body.sat_extends _ h' _).mono
    intro h'' r _ _ reason hreason
    rw [hpost] at hreason
    cases hreason
  | error e =>
    obtain ⟨hfailing, hlocals⟩ := hpost
    have hdenies := denies_of_failing hfailing
    obtain ⟨data, -, rfl⟩ := canonicalDigest_eq_ok hd
    have hencodable : (denyArgs request (sha256Hex data) e.denialReason locals).Encodable := by
      refine ⟨?_, ?_, encodable_sha256Hex data, ?_⟩
      · intro t ht
        obtain ⟨c, hc, rfl⟩ := hlocals.credentialId t ht
        exact he c hc
      · intro t ht
        obtain ⟨token, rfl⟩ := hlocals.tokenHash t ht
        exact encodable_sha256Hex _
      · rintro t ⟨⟩
        exact request.recordId.encodable
    apply Body.Sat.bind (receipt_signed law hs hencodable
      (fun q m hq hm ↦ ⟨hcount _ m (hu.append hq) hm, nofun⟩) ?_)
    · rintro h'' x _ _ ⟨-, receipt, _, _, _, _, ⟨⟩, -⟩
    · rintro h'' receipt _ _ ⟨-, receipt', receiptId, decidedAt, snapshot, digest, ⟨⟩, hsigned⟩
      intro reason hreason
      rw [hfailing, Option.some.injEq] at hreason
      exact ⟨receipt, _, by rw [hreason], rfl, hreason, hsigned⟩
    · intro receiptId decidedAt snapshot digest hid hnow _ _
      exact check_of_denies hs.named
        ⟨rfl, hdenies, truthy_some.mp (truthy_sha256Hex data), rfl, rfl, rfl⟩ hid hnow

end Phases

end InventoryApplication
end Atcap
