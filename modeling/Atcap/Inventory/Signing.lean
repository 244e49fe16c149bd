import Atcap.Inventory.Receipts
import Atcap.Policy.Commitment
import Atcap.Receipt.Format

/-!
# Signed receipts of inventoryd

With a working signer, a policy that has a canonical encoding and a clock and a counter below
`2 ^ 53`, `_receipt` returns a receipt that the verifier of the signer accepts, for every
arguments without lone surrogates.
-/

namespace Atcap

open Base

/-- A number that JSON readers represent exactly. -/
theorem exactInt_of_lt {n : Int} (hn : 0 ≤ n) (hlt : n < 2 ^ 53) : Json.exactInt n = true := by
  rw [Json.exactInt, decide_eq_true_eq]
  omega

/-- A policy whose strings and numbers have a canonical encoding. -/
def ResourcePolicy.Encodable (policy : ResourcePolicy) : Prop :=
  Json.canonicalizable policy.publicDict = true

/-- The strings of an encodable policy have no lone surrogate. -/
theorem ResourcePolicy.Encodable.texts {policy : ResourcePolicy} (h : policy.Encodable) :
    policy.audience.encodable = true ∧ policy.method.encodable = true ∧
      policy.qualifiedScope.encodable = true := by
  rw [ResourcePolicy.Encodable, publicDict, Json.canonicalizable_dict] at h
  simp only [List.forall_mem_cons] at h
  obtain ⟨⟨-, haudience⟩, ⟨-, hmethod⟩, ⟨-, hscope⟩, -⟩ := h
  refine ⟨?_, ?_, ?_⟩
  · simpa [Json.canonicalizable, Value.everywhere] using haudience
  · simpa [Json.canonicalizable, Value.everywhere] using hmethod
  · simpa [Json.canonicalizable, Value.everywhere] using hscope

/-- What the signing of a receipt relies on of the replies it gets. -/
structure SigningReplies (lib : Libraries) (signer : ReceiptSigner)
    (A : History → Event Op Op.Reply → Prop) : Prop where
  tokenHex : ∀ h n r, A h ⟨.tokenHex n, r⟩ → ∃ b : Bytes, b.length = n ∧ r = hex b
  clock : ∀ h r, A h ⟨.clock, r⟩ → ∃ now, r = .ok now ∧ 0 ≤ now ∧ now < 2 ^ 53
  sign : ∀ h payload r, A h ⟨.sign signer payload, r⟩ → r = signer.sign lib payload

/-- A receipt that the verifier of a signer accepts as a payload with the given claims. -/
def ReceiptSigner.Signed (lib : Libraries) (signer : ReceiptSigner) (fields : ReceiptFields)
    (receipt : SignedDecisionReceipt) : Prop :=
  ∃ payload, payload.toReceiptFields = fields ∧
    (signer.verifier lib).verify lib receipt = .ok payload

/-- A valid payload with a canonical encoding is signed. -/
theorem ReceiptSigner.Working.signed {lib : Libraries} (law : Rfc8785 lib)
    {signer : ReceiptSigner} (hw : signer.Working lib) (payload : DecisionReceiptPayload)
    (he : payload.Encodable) :
    ∃ receipt, signer.sign lib payload = .ok receipt ∧
      signer.Signed lib payload.toReceiptFields receipt := by
  obtain ⟨data, hdata⟩ := (law.isOk_iff payload.distinctKeys_modelDump).mpr
    (payload.canonicalizable_modelDump.mpr he)
  obtain ⟨receipt, hsign, hverify⟩ := sign_verify law hw hdata
  exact ⟨receipt, hsign, payload, rfl, hverify⟩

/-- A working signer signs exactly the valid payloads that have a canonical encoding. -/
theorem encodable_of_sign (law : Rfc8785 lib) {signer : ReceiptSigner}
    {payload : DecisionReceiptPayload} {receipt : SignedDecisionReceipt}
    (h : signer.sign lib payload = .ok receipt) : payload.Encodable := by
  simp only [ReceiptSigner.sign, bind_eq_ok] at h
  obtain ⟨data, hdata, -⟩ := h
  exact payload.canonicalizable_modelDump.mp
    ((law.isOk_iff payload.distinctKeys_modelDump).mp ⟨data, hdata⟩)

namespace InventoryApplication

variable {lib : Libraries} {app : InventoryApplication} {i : Nat}
  {A : History → Event Op Op.Reply → Prop} {h : History} {a : ReceiptArgs}

/-- The arguments of a call have a digest. -/
theorem exists_argumentsDigest (law : Rfc8785 lib) (a : InventoryArguments) :
    ∃ digest, canonicalDigest lib a.modelDump = .ok digest := by
  apply law.exists_canonicalDigest
  · rw [InventoryArguments.modelDump, Value.distinctKeys_dict]
    simp [Value.distinctKeys, Value.everywhere]
  · rw [InventoryArguments.modelDump, Json.canonicalizable_dict]
    simp [Json.canonicalizable, Value.everywhere, a.sku.encodable]

/-- What makes the receipts of an application come out signed. -/
structure Signing (lib : Libraries) (app : InventoryApplication)
    (A : History → Event Op Op.Reply → Prop) : Prop where
  working : app.receiptSigner.Working lib
  named : app.policy.Named
  encodable : app.policy.Encodable
  replies : SigningReplies lib app.receiptSigner A

/-- The texts a receipt is built from have no lone surrogate. -/
structure ReceiptArgs.Encodable (a : ReceiptArgs) : Prop where
  credentialId : ∀ t, a.credentialId = some t → t.encodable = true
  tokenHash : ∀ t, a.tokenHash = some t → t.encodable = true
  argumentsDigest : a.argumentsDigest.encodable = true
  recordId : ∀ t, a.recordId = some t → t.encodable = true

/-- The claims of a receipt have a canonical encoding. -/
theorem encodable_receiptFields (hpolicy : app.policy.Encodable) (ha : a.Encodable)
    {receiptId digest : Text} {decidedAt : Int} {snapshot : Nat} (hid : receiptId.encodable = true)
    (hnow : Json.exactInt decidedAt = true) (hsnapshot : snapshot < 2 ^ 53)
    (hinvocation : ∀ n, a.invocationId = some n → n ≤ snapshot)
    (hdigest : digest.encodable = true) :
    (app.receiptFields a receiptId decidedAt snapshot digest).Encodable := by
  obtain ⟨haudience, hmethod, hscope⟩ := hpolicy.texts
  refine ⟨hid, hnow, ?_, ?_, exactInt_of_lt (by simp [receiptFields]) ?_, ?_⟩
  · simp only [ReceiptFields.optionalTexts, receiptFields, List.forall_mem_cons, List.not_mem_nil,
      false_implies, implies_true, and_true]
    exact ⟨ha.credentialId, by simpa using hscope, ha.tokenHash, by simp, by simpa using hmethod,
      by simpa using haudience, by simpa using ha.argumentsDigest, ha.recordId⟩
  · intro n hn
    obtain ⟨m, hm, rfl⟩ := Option.map_eq_some_iff.mp hn
    have hle := hinvocation m hm
    exact exactInt_of_lt (Int.natCast_nonneg m) (by change (m : Int) < 2 ^ 53; omega)
  · change (snapshot : Int) < 2 ^ 53
    omega
  · intro q hq
    have hnodup : ([(text "resource_policy_sha256", digest)].map Prod.fst).Nodup :=
      List.nodup_singleton _
    have hmem := (ArtifactHashes.ofList_perm hnodup).mem_iff.mpr hq
    rw [List.mem_singleton] at hmem
    rw [hmem]
    exact ⟨encodable_text _, hdigest⟩

/-- Claims with a canonical encoding are made of encodable arguments and a counter in range. -/
theorem encodable_of_receiptFields {receiptId digest : Text} {decidedAt : Int} {snapshot : Nat}
    (he : (app.receiptFields a receiptId decidedAt snapshot digest).Encodable) :
    a.Encodable ∧ snapshot < 2 ^ 53 ∧ ∀ n, a.invocationId = some n → n < 2 ^ 53 := by
  have htexts := he.texts
  simp only [ReceiptFields.optionalTexts, receiptFields, List.forall_mem_cons] at htexts
  obtain ⟨hcredential, -, hchallenge, -, -, -, harguments, hrecord, -⟩ := htexts
  have hsnapshot : Json.exactInt (snapshot : Int) = true := he.handlerCountSnapshot
  rw [Json.exactInt, decide_eq_true_eq] at hsnapshot
  refine ⟨⟨hcredential, hchallenge, harguments _ rfl, hrecord⟩, by omega, ?_⟩
  intro n hn
  have hexact : Json.exactInt (Int.ofNat n) = true :=
    he.invocationId _ (Option.map_eq_some_iff.mpr ⟨n, hn, rfl⟩)
  rw [Json.exactInt, decide_eq_true_eq] at hexact
  simp only [Int.ofNat_eq_natCast] at hexact
  omega

/-- What `_receipt` needs of the policy, of its arguments and of the counter it reads. -/
structure Signable (app : InventoryApplication) (i : Nat) (a : ReceiptArgs) (h : History) :
    Prop where
  policy : app.policy.Encodable
  arguments : a.Encodable
  counter : ∀ m, ⟨.invocationCount i, m⟩ ∈ h → m < 2 ^ 53

/-- With a working signer and claims that pass validation, `_receipt` returns a receipt exactly
when its claims have a canonical encoding, and the receipt is accepted. -/
theorem receipt_exact (law : Rfc8785 lib) (hw : app.receiptSigner.Working lib)
    (hreplies : SigningReplies lib app.receiptSigner A)
    (hcount : ∀ q (m : Nat), Quiet q → A (h ++ q) ⟨.invocationCount i, m⟩ →
      ∀ n, a.invocationId = some n → n ≤ m)
    (hcheck : ∀ receiptId decidedAt snapshot digest, ReceiptId receiptId → 0 ≤ decidedAt →
      (∀ n, a.invocationId = some n → n ≤ snapshot) → digest ≠ [] →
      (app.receiptFields a receiptId decidedAt snapshot digest).check = .ok ()) :
    Body.Sat A (fun _ _ ↦ True) (fun h' r _ ↦ ∃ q, h' = h ++ q ∧
      (∀ ev ∈ q, (ev.op.isQuery || ev.op.isSign) = true) ∧
      (∀ m, ⟨.invocationCount i, m⟩ ∈ q → ∃ q', Quiet q' ∧ A (h ++ q') ⟨.invocationCount i, m⟩) ∧
      (app.Signable i a q → ∃ receipt receiptId decidedAt snapshot digest, r = .ok receipt ∧
        app.receiptSigner.Signed lib (app.receiptFields a receiptId decidedAt snapshot digest)
          receipt) ∧
      ∀ receipt, r = .ok receipt → app.Signable i a q ∧ ∀ n, a.invocationId = some n → n < 2 ^ 53)
      (app.receipt lib i a) h () := by
  unfold receipt readClock
  apply Body.Sat.perform trivial
  intro receiptId hr
  obtain ⟨b, hb, rfl⟩ := hreplies.tokenHex _ _ _ hr
  apply Body.Sat.invoke trivial
  · intro r x hr hx
    obtain ⟨now, rfl, -⟩ := hreplies.clock _ _ hr
    cases hx
  intro r decidedAt hr hdecided
  obtain ⟨now, rfl, hnow, hlt⟩ := hreplies.clock _ _ hr
  cases hdecided
  apply Body.Sat.perform trivial
  intro snapshot hsnapshot
  rw [List.append_assoc] at hsnapshot
  have hquiet : Quiet ([⟨.tokenHex 16, hex b⟩] ++ [⟨.clock, .ok decidedAt⟩]) :=
    (quiet_nil.snoc rfl).snoc rfl
  have hcounted := hcount _ _ hquiet hsnapshot
  by_cases hpolicy : app.policy.Encodable
  · obtain ⟨digest, hdigest⟩ := law.exists_canonicalDigest app.policy.distinctKeys_publicDict
      hpolicy
    rw [hdigest]
    obtain ⟨data, -, rfl⟩ := canonicalDigest_eq_ok hdigest
    apply Body.Sat.ofExcept
    · intro x hx
      cases hx
    rintro _ ⟨⟩
    have hok := hcheck (hex b) decidedAt snapshot (sha256Hex data) (receiptId_hex hb) hnow hcounted
      (truthy_some.mp (truthy_sha256Hex data))
    rw [DecisionReceiptPayload.construct_of_check hok]
    apply Body.Sat.ofExcept
    · intro x hx
      cases hx
    rintro _ ⟨⟩
    rw [Body.sat_invoke]
    refine ⟨trivial, fun r hr ↦ ?_⟩
    obtain rfl := hreplies.sign _ _ _ hr
    rw [List.append_assoc, List.append_assoc, List.append_assoc]
    refine ⟨_, rfl, ?_, ?_, ?_, ?_⟩
    · simp only [List.cons_append, List.nil_append, List.forall_mem_cons, List.not_mem_nil,
        false_implies, implies_true, and_true]
      exact ⟨rfl, rfl, rfl, rfl⟩
    · intro m hm
      have hm : m = snapshot := by simpa using hm
      rw [hm]
      exact ⟨_, hquiet, hsnapshot⟩
    · intro hs
      have he : (app.receiptFields a (hex b) decidedAt snapshot (sha256Hex data)).Encodable :=
        encodable_receiptFields hpolicy hs.arguments (encodable_hex b) (exactInt_of_lt hnow hlt)
          (hs.counter snapshot (by simp)) hcounted (encodable_sha256Hex data)
      obtain ⟨receipt, hsign, hsigned⟩ := hw.signed law ⟨_, hok⟩ he
      exact ⟨receipt, hex b, decidedAt, snapshot, sha256Hex data, hsign, hsigned⟩
    · intro receipt hsign
      obtain ⟨harguments, hbound, hnumber⟩ :=
        encodable_of_receiptFields (encodable_of_sign law hsign)
      refine ⟨⟨hpolicy, harguments, ?_⟩, hnumber⟩
      intro m hm
      have hm : m = snapshot := by simpa using hm
      rwa [hm]
  · -- The digest of the policy comes before the claims, and has no value.
    apply Body.Sat.ofExcept
    · intro x _
      rw [List.append_assoc, List.append_assoc]
      refine ⟨_, rfl, ?_, ?_, fun hs ↦ absurd hs.policy hpolicy,
        fun _ h ↦ (by cases h)⟩
      · simp only [List.cons_append, List.nil_append, List.forall_mem_cons, List.not_mem_nil,
          false_implies, implies_true, and_true]
        exact ⟨rfl, rfl, rfl⟩
      · intro m hm
        have hm : m = snapshot := by simpa using hm
        rw [hm]
        exact ⟨_, hquiet, hsnapshot⟩
    · intro digest hdigest
      obtain ⟨data, hdata, -⟩ := canonicalDigest_eq_ok hdigest
      exact absurd ((law.isOk_iff app.policy.distinctKeys_publicDict).mp ⟨data, hdata⟩) hpolicy

/-- `_receipt` returns a receipt that is accepted, when its claims pass validation. -/
theorem receipt_signed (law : Rfc8785 lib) (hs : app.Signing lib A) (ha : a.Encodable)
    (hcount : ∀ q (m : Nat), Quiet q → A (h ++ q) ⟨.invocationCount i, m⟩ →
      m < 2 ^ 53 ∧ ∀ n, a.invocationId = some n → n ≤ m)
    (hcheck : ∀ receiptId decidedAt snapshot digest, ReceiptId receiptId → 0 ≤ decidedAt →
      (∀ n, a.invocationId = some n → n ≤ snapshot) → digest ≠ [] →
      (app.receiptFields a receiptId decidedAt snapshot digest).check = .ok ()) :
    Body.Sat A (fun _ _ ↦ True) (fun h' r _ ↦
      (∃ q, h' = h ++ q ∧ ∀ ev ∈ q, (ev.op.isQuery || ev.op.isSign) = true) ∧
      ∃ receipt receiptId decidedAt snapshot digest, r = .ok receipt ∧
        app.receiptSigner.Signed lib (app.receiptFields a receiptId decidedAt snapshot digest)
          receipt) (app.receipt lib i a) h () := by
  apply (receipt_exact law hs.working hs.replies (fun q m hq hm ↦ (hcount q m hq hm).2) hcheck).mono
  rintro h' r _ ⟨q, rfl, hq, hread, hsigned, -⟩
  refine ⟨⟨q, rfl, hq⟩, hsigned ⟨hs.encodable, ha, ?_⟩⟩
  intro m hm
  obtain ⟨q', hq', hm⟩ := hread m hm
  exact (hcount q' m hq' hm).1

end InventoryApplication
end Atcap
