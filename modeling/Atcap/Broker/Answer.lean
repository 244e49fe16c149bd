import Atcap.Broker.Decision

/-!
# When an issuance is answered

`issue` answers with a decision under a receipt that the configured verifier accepts, exactly when
a denial can state what it is given: the scope and the manifest digest have an encoding, and no
`DecisionError` that reaches the handler carries a reason of the allow path.
-/

namespace Atcap

open Base

/-! ### Exceptions that a denial cannot state -/

/-- An exception whose reason no denial receipt can carry. -/
def Exn.misleads (e : Exn) : Bool :=
  decide (e.denialReason = .ALLOW ∨ e.denialReason = .HANDLER_FAILED)

/-- What is no `DecisionError` becomes an internal error. -/
theorem Exn.misleads_eq_false {e : Exn} (h : e.isDecision = false) : e.misleads = false := by
  rw [misleads, denialReason_eq h]
  rfl

/-- Whether `issue` passes a `DecisionError` of a package on: what reads the selection, the time and
the certificates of a quote stands under an `except Exception`. -/
def LibCall.passedOn : LibCall → Bool
  | .readPcrSelection _ | .evaluationTime | .loadPemX509Certificates _ => false
  | _ => true

/-- A package raised an exception that reaches the handler and that no denial can state. -/
def Misled (h : History) : Prop :=
  ∃ (c : LibCall) (e : Exn), ⟨.lib c, .error e⟩ ∈ h ∧ c.passedOn = true ∧ e.misleads = true

/-- Nothing misled a call that has not begun. -/
theorem not_misled_nil : ¬Misled [] := by
  rintro ⟨c, e, he, -⟩
  cases he

/-- An operation misleads when its reply does. -/
theorem misled_snoc {h : History} {ev : Event Op Op.Reply} : Misled (h ++ [ev]) ↔
    Misled h ∨ ∃ (c : LibCall) (e : Exn), ev = ⟨.lib c, .error e⟩ ∧ c.passedOn = true ∧
      e.misleads = true := by
  constructor
  · rintro ⟨c, e, he, hc⟩
    rw [List.mem_append, List.mem_singleton] at he
    rcases he with he | rfl
    · exact .inl ⟨c, e, he, hc⟩
    · exact .inr ⟨c, e, rfl, hc⟩
  · rintro (⟨c, e, he, hc⟩ | ⟨c, e, rfl, hc⟩)
    · exact ⟨c, e, List.mem_append_left _ he, hc⟩
    · exact ⟨c, e, by simp, hc⟩

/-- The operations whose replies mislead nobody. -/
def Op.isSilent : Op → Bool
  | .lib c => !c.passedOn
  | _ => true

/-- A history is not misled by the replies of such operations. -/
theorem misled_of_extended {h h' : History}
    (hext : Prog.ExtendedBy (fun e ↦ e.isSilent = true) h h') : Misled h' ↔ Misled h := by
  obtain ⟨q, rfl, hq⟩ := hext
  constructor
  · rintro ⟨c, e, he, hc⟩
    rw [List.mem_append] at he
    rcases he with he | he
    · exact ⟨c, e, he, hc⟩
    · have hsilent : (!c.passedOn) = true := hq _ he
      rw [hc.1] at hsilent
      cases hsilent
  · rintro ⟨c, e, he, hc⟩
    exact ⟨c, e, List.mem_append_left _ he, hc⟩

/-! ### Bodies that pass on what they are told -/

/-- A body ends with an exception that no denial can state exactly when a package raised one. -/
def Candid (A : History → Event Op Op.Reply → Prop) {L α : Type} (x : Py L α) : Prop :=
  ∀ h l, ¬Misled h → Body.Sat A (fun _ _ ↦ True)
    (fun h' r _ ↦ Misled h' ↔ ∃ e, r = .error e ∧ e.misleads = true) x h l

section Candid

variable {A : History → Event Op Op.Reply → Prop} {L α β : Type}

private theorem not_misleading_ok {a : α} :
    ¬∃ e, (Except.ok a : Except Exn α) = .error e ∧ e.misleads = true := by
  rintro ⟨e, ⟨⟩, -⟩

/-- A pure result is candid. -/
theorem Candid.pure (a : α) : Candid A (Pure.pure a : Py L α) :=
  fun _ _ hn ↦ iff_of_false hn not_misleading_ok

/-- A pure computation is candid when its own exceptions can be stated. -/
theorem Candid.ofExcept {x : Except Exn α} (hx : ∀ e, x = .error e → e.misleads = false) :
    Candid A (Body.ofExcept x : Py L α) := by
  intro h l hn
  rw [Body.sat_ofExcept]
  apply iff_of_false hn
  rintro ⟨e, he, hm⟩
  rw [hx e he] at hm
  cases hm

/-- A raising statement is candid when its exception can be stated. -/
theorem Candid.raiseIf {c : Prop} [Decidable c] {e : Exn} (he : e.misleads = false) :
    Candid A (Body.raiseIf c e : Py L Unit) := by
  apply Candid.ofExcept
  intro e' he'
  rw [(raiseIf_eq_error.mp he').2]
  exact he

/-- An assignment is candid. -/
theorem Candid.assign (f : L → L) : Candid A (Body.assign f : Py L Unit) :=
  fun _ _ hn ↦ iff_of_false hn not_misleading_ok

/-- Reading the local variables is candid. -/
theorem Candid.locals : Candid A (Body.locals : Py L L) :=
  fun _ _ hn ↦ iff_of_false hn not_misleading_ok

/-- An operation of the services is candid when the exceptions of its replies can be stated. -/
theorem Candid.invoke {e : Op} (hsilent : e.isSilent = true) {f : e.Reply → Except Exn α}
    (hf : ∀ h r x, A h ⟨e, r⟩ → f r = .error x → x.misleads = false) :
    Candid A (Body.invoke e f : Py L α) := by
  intro h l hn
  rw [Body.sat_invoke]
  refine ⟨trivial, fun r hr ↦ ?_⟩
  rw [misled_snoc]
  apply iff_of_false
  · rintro (hmisled | ⟨c, x, hev, hc, -⟩)
    · exact hn hmisled
    · cases hev
      rw [Op.isSilent, hc] at hsilent
      cases hsilent
  · rintro ⟨x, hx, hm⟩
    rw [hf h r x hr hx] at hm
    cases hm

/-- An operation without an exception is candid. -/
theorem Candid.perform {e : Op} (hsilent : e.isSilent = true) :
    Candid A (Body.perform e : Py L e.Reply) := by
  intro h l hn
  rw [Body.sat_perform]
  refine ⟨trivial, fun r hr ↦ ?_⟩
  rw [misled_snoc]
  apply iff_of_false _ not_misleading_ok
  rintro (hmisled | ⟨c, x, hev, hc, -⟩)
  · exact hn hmisled
  · cases hev
    rw [Op.isSilent, hc] at hsilent
    cases hsilent

/-- A package call is candid when its `except` clause keeps what can be stated apart from what
cannot, as far as it passes `DecisionError`s on. -/
theorem Candid.callLibExcept {c : LibCall} {translate : Exn → Exn}
    (ht : ∀ e, (translate e).misleads = (c.passedOn && e.misleads)) :
    Candid A (callLibExcept c translate : Py L c.Result) := by
  intro h l hn
  unfold Atcap.callLibExcept
  rw [Body.sat_invoke]
  refine ⟨trivial, fun r _ ↦ ?_⟩
  rw [misled_snoc, or_iff_right hn]
  constructor
  · rintro ⟨c', e, hev, hc, hm⟩
    cases hev
    exact ⟨translate e, rfl, by rw [ht, hc, hm]; rfl⟩
  · rintro ⟨x, hx, hm⟩
    obtain ⟨e, rfl, rfl⟩ := mapError_eq_error.mp hx
    rw [ht, Bool.and_eq_true] at hm
    exact ⟨c, e, rfl, hm⟩

/-- A package call without an `except` clause is candid. -/
theorem Candid.callLib {c : LibCall} (hc : c.passedOn = true) :
    Candid A (callLib c : Py L c.Result) := by
  have hid : (Atcap.callLib c : Py L c.Result) = Atcap.callLibExcept c id := by
    unfold Atcap.callLib Atcap.callLibExcept
    congr 1
    funext r
    cases r with
    | ok a => rfl
    | error e => rfl
  rw [hid]
  apply Candid.callLibExcept
  intro e
  rw [hc]
  rfl

/-- A composition of candid bodies is candid. -/
theorem Candid.bind {x : Py L α} {f : α → Py L β} (hx : Candid A x) (hf : ∀ a, Candid A (f a)) :
    Candid A (x >>= f) := by
  intro h l hn
  apply Body.Sat.bind (hx h l hn)
  · rintro h' e l' _ hiff
    rw [hiff]
    constructor
    · rintro ⟨_, ⟨⟩, hm⟩
      exact ⟨e, rfl, hm⟩
    · rintro ⟨_, ⟨⟩, hm⟩
      exact ⟨e, rfl, hm⟩
  · rintro h' a l' _ hiff
    exact hf a h' l' (hiff.not.mpr not_misleading_ok)

/-- A `try` block whose own packages mislead nobody is candid. -/
theorem Candid.attempt {L' : Type} {x : Py L' α} (l₀ : L')
    (hx : Body.Issues (fun e ↦ e.isSilent = true) x) :
    Candid A (Body.attempt x l₀ : Py L (Except Exn α × L')) := by
  intro h l hn
  rw [Body.sat_attempt]
  apply (Body.Sat.collect (hx A h l₀)).weaken (fun _ _ _ ↦ trivial) |>.mono
  rintro h' r l' ⟨-, hext⟩
  exact iff_of_false ((misled_of_extended hext).not.mpr hn) not_misleading_ok

end Candid

/-! ### The parts of an issuance -/

section Parts

variable {lib : Libraries} {A : History → Event Op Op.Reply → Prop} {L : Type}

/-- The `except` clause of the manifest schema keeps what cannot be stated. -/
theorem misleads_malformedManifest (e : Exn) : (malformedManifest e).misleads = e.misleads := by
  cases e <;> rfl

/-- The `except` clause of the holder key keeps what cannot be stated. -/
theorem misleads_malformedHolderKey (e : Exn) : (malformedHolderKey e).misleads = e.misleads := by
  cases e <;> rfl

/-- The `except` clause of the endorsement keeps what cannot be stated. -/
theorem misleads_endorsementFailure (e : Exn) : (endorsementFailure e).misleads = e.misleads := by
  cases e <;> rfl

/-- The `except` clause of the challenge keeps what cannot be stated. -/
theorem CapabilityBroker.misleads_challengeFailure (e : Exn) :
    (challengeFailure e).misleads = e.misleads := by
  cases e with
  | attestationFailed message =>
    unfold challengeFailure
    dsimp only
    split
    · rfl
    · rfl
  | _ => rfl

/-- The `except` clause of the quote keeps what cannot be stated. -/
theorem misleads_quoteFailure (e : Exn) : (quoteFailure e).misleads = e.misleads := by
  cases e with
  | tpmVerification message =>
    unfold quoteFailure
    dsimp only
    split
    · rfl
    · rfl
  | _ => rfl

/-- `rfc8785` raises a `ValueError` for a value that it rejects. -/
theorem misleads_canonicalJson (law : Rfc8785 lib) {v : Value} (hk : v.distinctKeys = true)
    {e : Exn} (h : canonicalJson lib v = .error e) : e.misleads = false := by
  cases hc : Json.canonicalizable v with
  | true =>
    obtain ⟨data, hdata⟩ := law.accepts v hk hc
    rw [canonicalJson, hdata] at h
    cases h
  | false =>
    obtain ⟨message, hraised⟩ := law.rejects v hk hc
    rw [canonicalJson, hraised] at h
    cases h
    rfl

/-- So does the digest of such a value. -/
theorem misleads_canonicalDigest (law : Rfc8785 lib) {v : Value} (hk : v.distinctKeys = true)
    {e : Exn} (h : canonicalDigest lib v = .error e) : e.misleads = false := by
  rcases bind_eq_error.mp h with h | ⟨_, _, h⟩
  · exact misleads_canonicalJson law hk h
  · cases h

/-- `verify_signed_manifest` is candid. -/
theorem candid_verifySignedManifest (manifest : Value) (policy : ManifestPolicy) :
    Candid A (verifySignedManifest manifest policy : Py L Value) := by
  unfold verifySignedManifest normalizeSignedManifest
  apply Candid.bind (.callLibExcept misleads_malformedManifest)
  intro normalized
  apply Candid.bind (.raiseIf rfl)
  intro _
  apply Candid.bind (.callLib rfl)
  intro digest
  apply Candid.bind (.raiseIf rfl)
  intro _
  apply Candid.bind (.callLib rfl)
  intro result
  exact Candid.bind (.raiseIf rfl) fun _ ↦ .pure _

/-- The comparisons of a request with the policy raise what can be stated. -/
theorem misleads_checkRequestBinding {request : IssuanceRequest} {policy : BrokerPolicy} {e : Exn}
    (h : checkRequestBinding request policy = .error e) : e.misleads = false := by
  simp only [checkRequestBinding, bind_eq_error, raiseIf_eq_error] at h
  rcases h with ⟨-, rfl⟩ | ⟨_, -, ⟨-, rfl⟩ | ⟨_, -, ⟨-, rfl⟩ | ⟨_, -, ⟨-, rfl⟩ | ⟨_, -,
    ⟨-, rfl⟩ | ⟨_, -, ⟨-, rfl⟩ | ⟨_, -, ⟨-, rfl⟩ | ⟨_, -, ⟨-, rfl⟩⟩⟩⟩⟩⟩⟩⟩
  all_goals rfl

/-- `bytes.fromhex` raises a `ValueError`. -/
theorem misleads_bytesFromHex {t : Text} {e : Exn} (h : bytesFromHex t = .error e) :
    e.misleads = false := by
  unfold bytesFromHex at h
  split at h
  · cases h
  · cases h
    rfl

private theorem misleads_mapError {α : Type} {x : Except Exn α} {translate : Exn → Exn}
    (ht : ∀ e, (translate e).misleads = e.misleads) (hx : ∀ e, x = .error e → e.misleads = false)
    {e : Exn} (h : x.mapError translate = .error e) : e.misleads = false := by
  obtain ⟨e', he', rfl⟩ := mapError_eq_error.mp h
  rw [ht]
  exact hx e' he'

/-- `verify_identity_endorsement` is candid. -/
theorem candid_verifyIdentityEndorsement (law : Rfc8785 lib) (request : IssuanceRequest)
    (policy : BrokerPolicy) :
    Candid A (verifyIdentityEndorsement lib request policy : Py L Unit) := by
  unfold verifyIdentityEndorsement
  apply Candid.bind (.ofExcept fun _ ↦ misleads_checkRequestBinding)
  intro _
  apply Candid.bind
  · exact .ofExcept fun _ ↦ misleads_mapError misleads_malformedHolderKey fun _ ↦
      misleads_bytesFromHex
  intro holderKey
  apply Candid.bind (.callLibExcept misleads_malformedHolderKey)
  intro _
  apply Candid.bind (.raiseIf rfl)
  intro _
  apply Candid.bind
  · exact .ofExcept fun _ ↦ misleads_mapError misleads_endorsementFailure fun _ ↦
      misleads_bytesFromHex
  intro identityKey
  apply Candid.bind (.callLibExcept misleads_endorsementFailure)
  intro _
  apply Candid.bind
  · exact .ofExcept fun _ ↦ misleads_mapError misleads_endorsementFailure fun _ ↦
      misleads_bytesFromHex
  intro signature
  apply Candid.bind
  · exact .ofExcept fun _ ↦ misleads_mapError misleads_endorsementFailure fun _ ↦
      misleads_canonicalJson law request.distinctKeys_body
  intro message
  exact .callLibExcept misleads_endorsementFailure

/-- Every appraiser is candid. -/
theorem TpmAppraiser.candid_appraise (appraiser : TpmAppraiser) (evidence : TpmEvidence)
    (expectedQualifyingData : Bytes) (policy : TpmPolicy) :
    Candid A (appraiser.appraise evidence expectedQualifyingData policy : Py L Unit) := by
  cases appraiser with
  | test acceptedEvidence => exact .raiseIf rfl
  | other => exact .callLib rfl
  | released =>
    change Candid A (appraiseReleased evidence expectedQualifyingData policy)
    unfold appraiseReleased
    apply Candid.bind (.callLibExcept fun _ ↦ rfl)
    intro selection
    apply Candid.bind (.raiseIf rfl)
    intro _
    apply Candid.bind (.attempt ()
      (issues_evaluateChain (P := fun e ↦ e.isSilent = true) rfl (fun _ ↦ rfl) evidence policy))
    rintro ⟨outcome, _⟩
    apply Candid.bind
    · apply Candid.ofExcept
      intro e he
      obtain ⟨_, _, rfl⟩ := mapError_eq_error.mp he
      rfl
    intro evaluationTime
    apply Candid.bind (.callLibExcept misleads_quoteFailure)
    intro verified
    exact .raiseIf rfl

end Parts

namespace CapabilityBroker

variable {lib : Libraries} {broker : CapabilityBroker} {raw : RawIssuanceRequest}
  {manifest : Value} {rawEvidence : RawTpmEvidence} {A : History → Event Op Op.Reply → Prop}

/-! ### Receipts -/

section Receipt

variable {L : Type} {h : History} {l : L} {decision : Verdict} {reason : Reason}
  {credentialId challengeHash manifestDigest : Option Text} {hashes : ArtifactHashes}

/-- A denial passes validation when its reason is not one of the allow path. -/
theorem check_deny {receiptId : Text} {decidedAt : Int} (hid : ReceiptId receiptId)
    (hnow : 0 ≤ decidedAt) : (broker.receiptFields .deny reason none challengeHash manifestDigest
      hashes receiptId decidedAt).check = .ok () ↔ reason ≠ .ALLOW ∧ reason ≠ .HANDLER_FAILED := by
  have hbounds : (broker.receiptFields .deny reason none challengeHash manifestDigest hashes
      receiptId decidedAt).boundsHold = true := by
    simp [ReceiptFields.boundsHold, receiptFields, hid.1, hid.2, hnow]
  rw [ReceiptFields.check, if_pos hbounds, ReceiptFields.consistentDecisionState]
  change (raiseIf _ _ >>= fun _ ↦ raiseIf _ _ >>= fun _ ↦ ReceiptFields.checkBroker _) = _ ↔ _
  rw [ReceiptFields.checkBroker]
  simp only [bind_eq_ok, raiseIf_eq_ok]
  simp only [receiptFields]
  constructor
  · rintro ⟨_, -, _, -, _, -, _, -, _, hfailed, _, hallow, -⟩
    refine ⟨?_, hfailed⟩
    rintro rfl
    exact hallow fun h ↦ (by cases h)
  · rintro ⟨hallow, hfailed⟩
    exact ⟨(), by simp, (), by simp, (), by simp, (), by simp, (), hfailed, (), by simp [hallow],
      (), fun h ↦ (by cases h.1), (), by simp, fun h ↦ (by cases h.1)⟩

/-- The texts of a broker receipt have encodings. -/
theorem encodable_receiptFields {receiptId : Text} {decidedAt : Int}
    (hid : receiptId.encodable = true) (hnow : Json.exactInt decidedAt = true) :
    (broker.receiptFields decision reason credentialId challengeHash manifestDigest hashes receiptId
      decidedAt).Encodable ↔ broker.policy.qualifiedScope.encodable = true ∧
        (∀ t, credentialId = some t → t.encodable = true) ∧
        (∀ t, challengeHash = some t → t.encodable = true) ∧
        (∀ t, manifestDigest = some t → t.encodable = true) ∧ EncodableHashes hashes := by
  have hhashes : EncodableHashes hashes ↔
      ∀ q ∈ hashes.toList, q.1.encodable = true ∧ q.2.encodable = true := by
    constructor
    · rintro hall ⟨k, v⟩ hq
      exact hall k v (Std.ExtTreeMap.mem_toList_iff_getElem?_eq_some.mp hq)
    · intro hall k v hv
      exact hall (k, v) (Std.ExtTreeMap.mem_toList_iff_getElem?_eq_some.mpr hv)
  rw [hhashes]
  constructor
  · intro he
    have htexts := he.texts
    simp only [ReceiptFields.optionalTexts, receiptFields, List.forall_mem_cons] at htexts
    obtain ⟨hcredential, hscope, hchallenge, hmanifest, -⟩ := htexts
    exact ⟨hscope _ rfl, hcredential, hchallenge, hmanifest, he.artifactHashes⟩
  · rintro ⟨hscope, hcredential, hchallenge, hmanifest, hall⟩
    refine ⟨hid, hnow, ?_, fun _ h ↦ (by cases h), rfl, hall⟩
    simp only [ReceiptFields.optionalTexts, receiptFields, List.forall_mem_cons, List.not_mem_nil,
      false_implies, implies_true, and_true]
    exact ⟨hcredential, by simpa using hscope, hchallenge, hmanifest, by simp⟩

/-- How `_receipt` ends over the claims it makes: with a receipt that is accepted when they pass
validation and have an encoding, and otherwise with an exception that a denial can state. -/
def Ended (lib : Libraries) (broker : CapabilityBroker) (fields : Text → Int → ReceiptFields)
    (r : Except Exn SignedDecisionReceipt) : Prop :=
  ∃ receiptId decidedAt, ReceiptId receiptId ∧ 0 ≤ decidedAt ∧ Json.exactInt decidedAt = true ∧
    (((fields receiptId decidedAt).check = .ok () ∧ (fields receiptId decidedAt).Encodable ∧
        ∃ receipt, r = .ok receipt ∧
          broker.receiptSigner.Signed lib (fields receiptId decidedAt) receipt) ∨
      ¬((fields receiptId decidedAt).check = .ok () ∧ (fields receiptId decidedAt).Encodable) ∧
        ∃ e, r = .error e ∧ e.misleads = false)

/-- With a working signer, `_receipt` signs exactly the claims that it can. -/
theorem receipt_ended (law : Rfc8785 lib) (hw : broker.receiptSigner.Working lib)
    (hs : SigningReplies lib broker.receiptSigner A) :
    Body.Sat A (fun _ _ ↦ True) (fun _ r _ ↦ Ended lib broker (broker.receiptFields decision reason
      credentialId challengeHash manifestDigest hashes) r)
      (broker.receipt decision reason credentialId challengeHash manifestDigest hashes) h l := by
  unfold receipt readClock
  apply Body.Sat.perform trivial
  intro receiptId hr
  obtain ⟨b, hb, rfl⟩ := hs.tokenHex _ _ _ hr
  apply Body.Sat.invoke trivial
  · intro r x hr hx
    obtain ⟨now, rfl, -⟩ := hs.clock _ _ hr
    cases hx
  intro r decidedAt hr hdecided
  obtain ⟨now, rfl, hnow, hlt⟩ := hs.clock _ _ hr
  cases hdecided
  have hexact := exactInt_of_lt hnow hlt
  let fields := broker.receiptFields decision reason credentialId challengeHash manifestDigest
    hashes (hex b) decidedAt
  apply Body.Sat.ofExcept
  · intro x hx
    obtain ⟨message, rfl⟩ := DecisionReceiptPayload.construct_raises hx
    refine ⟨hex b, decidedAt, receiptId_hex hb, hnow, hexact, .inr ⟨?_, _, rfl, rfl⟩⟩
    rintro ⟨hcheck, -⟩
    cases (DecisionReceiptPayload.construct_of_check hcheck).symm.trans hx
  intro payload hpayload
  have hfields : payload.toReceiptFields = fields := DecisionReceiptPayload.construct_eq_ok hpayload
  have hcheck : fields.check = .ok () := by
    rw [← hfields]
    exact payload.valid
  rw [Body.sat_invoke]
  refine ⟨trivial, fun r hr ↦ ⟨hex b, decidedAt, receiptId_hex hb, hnow, hexact, ?_⟩⟩
  obtain rfl := hs.sign _ _ _ hr
  by_cases he : fields.Encodable
  · obtain ⟨receipt, hsign, hsigned⟩ := hw.signed law payload (by rw [hfields]; exact he)
    exact .inl ⟨hcheck, he, receipt, hsign, by rwa [hfields] at hsigned⟩
  · refine .inr ⟨fun hboth ↦ he hboth.2, ?_⟩
    cases hsign : broker.receiptSigner.sign lib payload with
    | ok receipt =>
      have hencodable := encodable_of_sign law hsign
      rw [hfields] at hencodable
      exact absurd hencodable he
    | error e =>
      refine ⟨e, rfl, ?_⟩
      rcases bind_eq_error.mp hsign with hjson | ⟨data, -, hcompact⟩
      · exact misleads_canonicalJson law payload.distinctKeys_modelDump hjson
      · obtain ⟨compact, hsigns⟩ := hw.signs data
        rw [hsigns] at hcompact
        cases hcompact

/-- It calls no package. -/
theorem receipt_exact (law : Rfc8785 lib) (hw : broker.receiptSigner.Working lib)
    (hs : SigningReplies lib broker.receiptSigner A) :
    Body.Sat A (fun _ _ ↦ True) (fun h' r _ ↦ (Misled h' ↔ Misled h) ∧
      Ended lib broker (broker.receiptFields decision reason credentialId challengeHash
        manifestDigest hashes) r)
      (broker.receipt decision reason credentialId challengeHash manifestDigest hashes) h l := by
  have hissues := issues_brokerReceipt (P := fun e ↦ e.isSilent = true) (L := L) rfl (fun _ ↦ rfl)
    (fun _ _ ↦ rfl) broker decision reason credentialId challengeHash manifestDigest hashes A h l
  apply ((hissues.collect.weaken fun _ _ _ ↦ trivial).and (receipt_ended law hw hs)).mono
  rintro h' r _ ⟨⟨-, hext⟩, hended⟩
  exact ⟨misled_of_extended hext, hended⟩

end Receipt

/-! ### What a denial states -/

/-- What a denial states of its inputs has an encoding: the scope of the policy, and the manifest
digest of a well-typed request under a policy that has a canonical form. -/
structure Nameable (broker : CapabilityBroker) (raw : RawIssuanceRequest) : Prop where
  scope : broker.policy.qualifiedScope.encodable = true
  manifestDigest : ∀ dict request, broker.policy.publicDict = .ok dict →
    Json.canonicalizable dict = true → validateIssuanceRequestRuntime raw = .ok request →
    request.manifestDigest.encodable = true

/-- The policy has a hash exactly when it has a canonical form. -/
theorem exists_sha256_iff (law : Rfc8785 lib) : (∃ digest, broker.policy.sha256 lib = .ok digest) ↔
    ∃ dict, broker.policy.publicDict = .ok dict ∧ Json.canonicalizable dict = true := by
  constructor
  · rintro ⟨digest, hdigest⟩
    obtain ⟨dict, hdict, hcanonical⟩ := bind_eq_ok.mp hdigest
    obtain ⟨data, hdata, -⟩ := canonicalDigest_eq_ok hcanonical
    exact ⟨dict, hdict,
      (law.isOk_iff (BrokerPolicy.distinctKeys_publicDict hdict)).mp ⟨data, hdata⟩⟩
  · rintro ⟨dict, hdict, hc⟩
    obtain ⟨digest, hdigest⟩ :=
      law.exists_canonicalDigest (BrokerPolicy.distinctKeys_publicDict hdict) hc
    exact ⟨digest, bind_eq_ok.mpr ⟨dict, hdict, hdigest⟩⟩

/-- The manifest digest that was derived is the one of a well-typed request. -/
theorem manifestDigest_derived {digest : Text} :
    (derived lib broker raw rawEvidence).manifestDigest = some digest ↔
      (∃ policyDigest, broker.policy.sha256 lib = .ok policyDigest) ∧
      ∃ request, validateIssuanceRequestRuntime raw = .ok request ∧
        request.manifestDigest = digest := by
  unfold derived
  cases hsha : broker.policy.sha256 lib with
  | error e => simp
  | ok policyDigest =>
    cases hrequest : validateIssuanceRequestRuntime raw with
    | error e => simp
    | ok request =>
      dsimp only
      split
      · simp
      · split
        · simp
        · split
          · simp
          · simp

/-- What a denial states of its inputs has an encoding when what was derived has. -/
theorem nameable_iff (law : Rfc8785 lib) : Nameable broker raw ↔
    broker.policy.qualifiedScope.encodable = true ∧
      ∀ digest, (derived lib broker raw rawEvidence).manifestDigest = some digest →
        digest.encodable = true := by
  constructor
  · rintro ⟨hscope, hdigest⟩
    refine ⟨hscope, fun digest hd ↦ ?_⟩
    obtain ⟨hsha, request, hrequest, rfl⟩ := manifestDigest_derived.mp hd
    obtain ⟨dict, hdict, hc⟩ := (exists_sha256_iff law).mp hsha
    exact hdigest dict request hdict hc hrequest
  · rintro ⟨hscope, hderived⟩
    refine ⟨hscope, fun dict request hdict hc hrequest ↦ ?_⟩
    exact hderived _ (manifestDigest_derived.mpr
      ⟨(exists_sha256_iff law).mpr ⟨dict, hdict, hc⟩, request, hrequest, rfl⟩)

private theorem encodable_canonicalDigest {v : Value} {digest : Text}
    (h : canonicalDigest lib v = .ok digest) : digest.encodable = true := by
  obtain ⟨data, -, rfl⟩ := canonicalDigest_eq_ok h
  exact encodable_sha256Hex data

/-- The hashes that were derived have encodings, and so has the hash of the challenge. -/
theorem encodable_hashes_derived :
    EncodableHashes (derived lib broker raw rawEvidence).artifactHashes ∧
      ∀ t, (derived lib broker raw rawEvidence).tokenHash = some t → t.encodable = true := by
  have hnone : EncodableHashes (∅ : ArtifactHashes) := by
    intro k v hv
    simp at hv
  unfold derived
  cases hsha : broker.policy.sha256 lib with
  | error e => exact ⟨hnone, fun _ h ↦ (by cases h)⟩
  | ok policyDigest =>
    obtain ⟨dict, -, hdigest⟩ := bind_eq_ok.mp hsha
    have hpolicy : EncodableHashes ((∅ : ArtifactHashes).insert (text "broker_policy_sha256")
        policyDigest) := hnone.insert (encodable_text _) (encodable_canonicalDigest hdigest)
    dsimp only
    cases validateIssuanceRequestRuntime raw with
    | error e => exact ⟨hpolicy, fun _ h ↦ (by cases h)⟩
    | ok request =>
      dsimp only
      cases hhash : challengeTokenHash request.challenge with
      | error e => exact ⟨hpolicy, fun _ h ↦ (by cases h)⟩
      | ok tokenHash =>
        have htoken : ∀ t, some tokenHash = some t → t.encodable = true := by
          rintro t ⟨⟩
          rw [(challengeTokenHash_eq_ok hhash).2]
          exact encodable_sha256Hex _
        dsimp only
        cases validateTpmEvidenceRuntime rawEvidence with
        | error e => exact ⟨hpolicy, htoken⟩
        | ok evidence =>
          have hevidence := hpolicy.digestable evidence
          dsimp only
          cases hbody : canonicalDigest lib request.toDict with
          | error e => exact ⟨hevidence, htoken⟩
          | ok requestDigest =>
            exact ⟨hevidence.insert (encodable_text _) (encodable_canonicalDigest hbody), htoken⟩

/-! ### The whole call -/

/-- A decision under a receipt that the verifier of the broker accepts, with the reason and the
verdict of the receipt. -/
def Answers (lib : Libraries) (broker : CapabilityBroker) (d : Decision) : Prop :=
  ∃ fields, broker.receiptSigner.Signed lib fields d.receipt ∧ fields.reason = d.reason ∧
    (fields.decision = .allow ↔ d.allowed = true)

/-- What `issue` relies on of its collaborators: a working signer and clock, and a store whose
exceptions a denial can state. -/
structure Serving (lib : Libraries) (broker : CapabilityBroker)
    (A : History → Event Op Op.Reply → Prop) : Prop where
  working : broker.receiptSigner.Working lib
  replies : SigningReplies lib broker.receiptSigner A
  consumed : ∀ h tokenHash e, A h ⟨.consumeBrokerChallenge tokenHash, .error e⟩ → e.misleads = false

section Serving

variable {h : History} {l : IssueLocals}

/-- `_receipt` is candid. -/
theorem candid_receipt (law : Rfc8785 lib) (hs : broker.Serving lib A) {L : Type}
    (decision : Verdict) (reason : Reason) (credentialId challengeHash manifestDigest : Option Text)
    (hashes : ArtifactHashes) : Candid A (broker.receipt decision reason credentialId challengeHash
      manifestDigest hashes : Py L SignedDecisionReceipt) := by
  intro h l hn
  apply (receipt_exact law hs.working hs.replies).mono
  rintro h' r _ ⟨hmisled, _, _, -, -, -, ⟨-, -, receipt, rfl, -⟩ | ⟨-, e, rfl, he⟩⟩
  · exact iff_of_false (hmisled.not.mpr hn) (by rintro ⟨_, ⟨⟩, -⟩)
  · apply iff_of_false (hmisled.not.mpr hn)
    rintro ⟨_, ⟨⟩, hm⟩
    rw [he] at hm
    cases hm

private theorem misleads_validateRequest {e : Exn}
    (h : validateIssuanceRequestRuntime raw = .error e) : e.misleads = false := by
  have hfield : ∀ {name : String} {v : Option Value} {e : Exn},
      stringField name v = .error e → e.misleads = false := by
    intro name v e he
    unfold stringField at he
    split at he
    · cases he
    · cases he
      rfl
  cases raw with
  | foreign =>
    cases h
    rfl
  | request version brokerId challenge manifestDigest identityKey holderKey resourceIssuerKid
      resourceIssuerKey requestedScope identitySignature =>
    simp only [validateIssuanceRequestRuntime, bind_eq_error] at h
    rcases h with h | ⟨_, -, h | ⟨_, -, h | ⟨_, -, h | ⟨_, -, h | ⟨_, -, h | ⟨_, -, h | ⟨_, -,
      h | ⟨_, -, h | ⟨_, -, h | ⟨_, -, h⟩⟩⟩⟩⟩⟩⟩⟩⟩⟩
    case inr.inr.inr.inr.inr.inr.inr.inr.inr.inr => cases h
    all_goals exact hfield h

private theorem misleads_validateEvidence {e : Exn}
    (h : validateTpmEvidenceRuntime rawEvidence = .error e) : e.misleads = false := by
  have hfield : ∀ {name : String} {v : Option Value} {e : Exn},
      bytesField name v = .error e → e.misleads = false := by
    intro name v e he
    unfold bytesField at he
    split at he
    · cases he
    · cases he
      rfl
  cases rawEvidence with
  | foreign =>
    cases h
    rfl
  | evidence attest signature akChainPem =>
    simp only [validateTpmEvidenceRuntime, bind_eq_error] at h
    rcases h with h | ⟨_, -, h | ⟨_, -, h | ⟨_, -, h⟩⟩⟩
    · exact hfield h
    · exact hfield h
    · exact hfield h
    · cases h

private theorem misleads_challengeTokenHash {token : Text} {e : Exn}
    (h : challengeTokenHash token = .error e) : e.misleads = false := by
  rcases bind_eq_error.mp h with h | ⟨_, -, h⟩
  · unfold encodeUtf8 at h
    split at h
    · cases h
    · cases h
      rfl
  · cases h

/-- `bindInputs` is candid. -/
theorem candid_bindInputs (law : Rfc8785 lib) :
    Candid A (broker.bindInputs lib raw rawEvidence) := by
  obtain ⟨dict, hdict⟩ := exists_publicDict broker
  unfold bindInputs
  rw [hdict]
  change Candid A (Body.ofExcept (canonicalDigest lib dict) >>= _)
  apply Candid.bind
  · exact .ofExcept fun _ ↦
      misleads_canonicalDigest law (BrokerPolicy.distinctKeys_publicDict hdict)
  intro policyDigest
  apply Candid.bind (.assign _)
  intro _
  apply Candid.bind (.ofExcept fun _ ↦ misleads_validateRequest)
  intro request
  apply Candid.bind (.assign _)
  intro _
  apply Candid.bind (.ofExcept fun _ ↦ misleads_challengeTokenHash)
  intro tokenHash
  apply Candid.bind (.assign _)
  intro _
  apply Candid.bind (.ofExcept fun _ ↦ misleads_validateEvidence)
  intro evidence
  apply Candid.bind (.assign _)
  intro _
  apply Candid.bind
  · exact .ofExcept fun _ ↦ misleads_canonicalDigest law request.distinctKeys_toDict
  intro requestDigest
  exact Candid.bind (.assign _) fun _ ↦ .pure _

/-- Reading the clock is candid. -/
theorem candid_clock (hs : broker.Serving lib A) {translate : Exn → Exn} :
    Candid A (Body.invoke .clock (Except.mapError translate) : Py IssueLocals Int) := by
  apply Candid.invoke rfl
  intro h r x hr hx
  obtain ⟨now, rfl, -⟩ := hs.replies.clock _ _ hr
  cases hx

/-- The appraisal of a request is candid. -/
theorem candid_appraiseRequest (law : Rfc8785 lib) (hs : broker.Serving lib A)
    (request : IssuanceRequest) (evidence : TpmEvidence) :
    Candid A (broker.appraiseRequest lib request manifest evidence) := by
  unfold appraiseRequest
  apply Candid.bind (candid_clock hs)
  intro now
  apply Candid.bind (.callLibExcept misleads_challengeFailure)
  intro _
  apply Candid.bind (candid_verifySignedManifest _ _)
  intro _
  apply Candid.bind (candid_verifyIdentityEndorsement law _ _)
  intro _
  apply Candid.bind
  · apply Candid.ofExcept
    intro e he
    rcases bind_eq_error.mp he with he | ⟨_, -, he⟩
    · exact misleads_canonicalJson law request.distinctKeys_toDict he
    · cases he
  intro qualifyingData
  exact TpmAppraiser.candid_appraise _ _ _ _

/-- Minting is candid. -/
theorem candid_mint (law : Rfc8785 lib) (hs : broker.Serving lib A) (request : IssuanceRequest)
    (tokenHash : Text) (locals : IssueLocals) :
    Candid A (broker.mint request tokenHash locals) := by
  unfold mint credentialToDict readClock
  apply Candid.bind
  · apply Candid.invoke rfl
    intro h r x hr hx
    obtain ⟨now, rfl, -⟩ := hs.replies.clock _ _ hr
    cases hx
  intro now
  apply Candid.bind (.perform rfl)
  intro credentialId
  apply Candid.bind (.callLib rfl)
  intro credential
  apply Candid.bind (candid_receipt law hs _ _ _ _ _ _)
  intro receipt
  apply Candid.bind
  · exact Candid.bind (.callLib rfl) fun _ ↦ .pure _
  · exact fun _ ↦ .pure _

/-- The `try` block of `issue` is candid. -/
theorem candid_grant (law : Rfc8785 lib) (hs : broker.Serving lib A) :
    Candid A (broker.grant lib raw manifest rawEvidence) := by
  unfold grant
  apply Candid.bind (candid_bindInputs law)
  rintro ⟨request, evidence, tokenHash⟩
  apply Candid.bind (candid_appraiseRequest law hs request evidence)
  intro _
  apply Candid.bind
  · apply Candid.invoke rfl
    rintro h r x hr rfl
    exact hs.consumed _ _ _ hr
  intro _
  apply Candid.bind .locals
  exact candid_mint law hs request tokenHash

/-- The `try` block returns an allow under an accepted receipt, and only for inputs that a denial
could state. -/
theorem grant_answers (law : Rfc8785 lib) (hs : broker.Serving lib A) :
    Body.Sat A (fun _ _ ↦ True) (fun _ r _ ↦ ∀ d, r = .ok d →
      broker.Answers lib d ∧ Nameable broker raw)
      (broker.grant lib raw manifest rawEvidence) [] ⟨none, none, ∅⟩ := by
  unfold grant
  apply Body.Sat.bind bindInputs_derived
  · intro h' e l' _ _
    exact nofun
  rintro h₁ ⟨request, evidence, tokenHash⟩ l₁ _ ⟨rfl, rfl, htyped⟩
  obtain ⟨hrequest, -, -⟩ := htyped request evidence tokenHash rfl
  apply Body.Sat.bind (Body.sat_extends _ _ _)
  · intro h' e l' _ _
    exact nofun
  intro h₂ _ l₂ _ _
  apply Body.Sat.invoke trivial
  · intro r x _ _
    exact nofun
  intro r u _ _
  apply Body.Sat.locals
  unfold mint credentialToDict readClock callLib
  apply Body.Sat.invoke trivial
  · intro r x _ _
    exact nofun
  intro r now _ _
  apply Body.Sat.perform trivial
  intro credentialId _
  apply Body.Sat.invoke trivial
  · intro r x _ _
    exact nofun
  intro r credential _ _
  apply Body.Sat.bind (receipt_exact law hs.working hs.replies)
  · intro h' e l' _ _
    exact nofun
  rintro h₃ receipt l₃ _ ⟨-, receiptId, decidedAt, hid, -, hnow, hreceipt⟩
  obtain ⟨-, hencodable, _, ⟨⟩, hsigned⟩ | ⟨-, _, ⟨⟩, -⟩ := hreceipt
  obtain ⟨hscope, -, -, hdigest, -⟩ := (encodable_receiptFields hid.2 hnow).mp hencodable
  rw [Body.sat_bind]
  apply Body.Sat.invoke trivial
  · intro r x _ _
    exact nofun
  rintro r members _ _ d ⟨⟩
  refine ⟨⟨_, hsigned, rfl, iff_of_true rfl rfl⟩, hscope, ?_⟩
  intro dict request' _ _ hrequest'
  dsimp only at hrequest
  rw [hrequest, Except.ok.injEq] at hrequest'
  rw [← hrequest']
  exact hdigest _ rfl

/-- `issue` answers with a decision under an accepted receipt exactly when what a denial states of
its inputs has an encoding and no package misled it. -/
theorem issue_answers (law : Rfc8785 lib) (hs : broker.Serving lib A) :
    Body.Sat A (fun _ _ ↦ True) (fun h' r _ ↦ (∃ d, r = .ok d ∧ broker.Answers lib d) ↔
      Nameable broker raw ∧ ¬Misled h')
      (broker.issue lib raw manifest rawEvidence) [] () := by
  unfold issue
  apply Body.Sat.attempt ((grant_answers law hs).and
    ((candid_grant law hs [] _ not_misled_nil).and grant_ended))
  rintro h₁ outcome locals _ ⟨hallowed, hmisled, rfl, -⟩
  cases outcome with
  | ok d =>
    obtain ⟨hanswers, hnameable⟩ := hallowed d rfl
    exact iff_of_true ⟨d, rfl, hanswers⟩
      ⟨hnameable, hmisled.not.mpr (by rintro ⟨_, ⟨⟩, -⟩)⟩
  | error e =>
    have hmisled : Misled h₁ ↔ e.misleads = true := by
      rw [hmisled]
      constructor
      · rintro ⟨_, ⟨⟩, hm⟩
        exact hm
      · intro hm
        exact ⟨e, rfl, hm⟩
    let locals := derived lib broker raw rawEvidence
    obtain ⟨hhashes, htoken⟩ :
      EncodableHashes locals.artifactHashes ∧ _ := encodable_hashes_derived
    let fields := broker.receiptFields .deny e.denialReason none locals.tokenHash
      locals.manifestDigest locals.artifactHashes
    have hready : ∀ {receiptId : Text} {decidedAt : Int}, ReceiptId receiptId → 0 ≤ decidedAt →
        Json.exactInt decidedAt = true → ((fields receiptId decidedAt).check = .ok () ∧
          (fields receiptId decidedAt).Encodable ↔ Nameable broker raw ∧ ¬Misled h₁) := by
      intro receiptId decidedAt hid hnow hexact
      rw [check_deny hid hnow, encodable_receiptFields hid.2 hexact, nameable_iff law, hmisled,
        Exn.misleads, decide_eq_true_eq, not_or]
      constructor
      · rintro ⟨hreason, hscope, -, -, hdigest, -⟩
        exact ⟨⟨hscope, hdigest⟩, hreason⟩
      · rintro ⟨⟨hscope, hdigest⟩, hreason⟩
        exact ⟨hreason, hscope, nofun, htoken, hdigest, hhashes⟩
    apply Body.Sat.bind (receipt_exact law hs.working hs.replies)
    · rintro h₂ x _ _ ⟨hsame, receiptId, decidedAt, hid, hnow, hexact, hreceipt⟩
      rw [hsame, ← hready hid hnow hexact]
      obtain ⟨-, -, _, ⟨⟩, -⟩ | ⟨hnot, -⟩ := hreceipt
      exact iff_of_false (by rintro ⟨_, ⟨⟩, -⟩) hnot
    · rintro h₂ receipt _ _ ⟨hsame, receiptId, decidedAt, hid, hnow, hexact, hreceipt⟩
      rw [Body.sat_pure, hsame, ← hready hid hnow hexact]
      obtain ⟨hcheck, hencodable, _, ⟨⟩, hsigned⟩ | ⟨-, _, ⟨⟩, -⟩ := hreceipt
      exact iff_of_true ⟨_, rfl, _, hsigned, rfl, iff_of_false nofun Bool.false_ne_true⟩
        ⟨hcheck, hencodable⟩

end Serving

end CapabilityBroker
end Atcap
