import Atcap.Inventory.Decision
import Atcap.Inventory.Numbering
import Atcap.Inventory.Race

/-!
# A redemption of an issued credential

What one `redeem` comes to when the released packages accept what it presents, whatever becomes
of its receipt and of the handler; and when its credential lives longer than the policy allows.
-/

namespace Atcap

open Base

namespace InventoryApplication

variable {lib : Libraries} {app : InventoryApplication} {i : Nat} {request : LookupInput}
  {A : History → Event Op Op.Reply → Prop} {h : History}

/-! ### Denials -/

variable (lib app A) in
/-- What the receipt of a denial needs: a policy with its strings and a digest, and a working
clock and signer. -/
structure DenialReplies : Prop where
  named : app.policy.Named
  policyDigest : ∃ digest, canonicalDigest lib app.policy.publicDict = .ok digest
  tokenHex : ∀ h n r, A h ⟨.tokenHex n, r⟩ → ∃ b : Bytes, b.length = n ∧ r = hex b
  clock : ∀ h r, A h ⟨.clock, r⟩ → ∃ now, r = .ok now ∧ 0 ≤ now
  sign : ∀ h payload r, A h ⟨.sign app.receiptSigner payload, r⟩ → ∃ receipt, r = .ok receipt

/-- A receipt whose claims pass validation is returned. -/
theorem receipt_built {a : ReceiptArgs} (hs : DenialReplies lib app A)
    (hcheck : ∀ receiptId decidedAt snapshot digest, ReceiptId receiptId → 0 ≤ decidedAt →
      (app.receiptFields a receiptId decidedAt snapshot digest).check = .ok ()) :
    Body.Sat A (fun _ _ ↦ True) (fun _ r _ ↦ ∃ receipt, r = .ok receipt)
      (app.receipt lib i a) h () := by
  unfold receipt readClock
  apply Body.Sat.perform trivial
  intro receiptId hr
  obtain ⟨b, hb, rfl⟩ := hs.tokenHex _ _ _ hr
  apply Body.Sat.invoke trivial
  · intro r x hr hx
    obtain ⟨now, rfl, _⟩ := hs.clock _ _ hr
    cases hx
  intro r decidedAt hr hdecided
  obtain ⟨now, rfl, hnow⟩ := hs.clock _ _ hr
  cases hdecided
  apply Body.Sat.perform trivial
  intro snapshot _
  obtain ⟨digest, hdigest⟩ := hs.policyDigest
  rw [hdigest]
  apply Body.Sat.ofExcept
  · intro x hx
    cases hx
  rintro _ ⟨⟩
  rw [DecisionReceiptPayload.construct_of_check
    (hcheck (hex b) decidedAt snapshot digest (receiptId_hex hb) hnow)]
  apply Body.Sat.ofExcept
  · intro x hx
    cases hx
  rintro payload ⟨⟩
  rw [Body.sat_invoke]
  exact ⟨trivial, fun r hr ↦ hs.sign _ _ _ hr⟩

/-- How a denied call ends: without the handler, and with no decision but this one. -/
structure DeniedAs (reason : Reason) (h : History) (r : Except Exn Decision) : Prop where
  unserved : ∀ ev ∈ h, ev.op.entersHandler = false
  reason : ∀ d, r = .ok d → d.allowed = false ∧ d.reason = reason ∧ d.result = none

/-- A denial asks and signs, ends as one, and is returned when its receipt can be signed. -/
theorem denyRedemption_denies {digest : Text} {reason : Reason} {locals : RedeemLocals}
    (hu : ∀ ev ∈ h, ev.op.entersHandler = false) (hdigest : digest ≠ [])
    (hreason : reason ≠ .ALLOW ∧ reason ≠ .HANDLER_FAILED) :
    Body.Sat A (fun _ _ ↦ True) (fun h' r _ ↦
      Prog.ExtendedBy (fun e ↦ (e.isQuery || e.isSign) = true) h h' ∧ DeniedAs reason h' r ∧
      (DenialReplies lib app A → ∃ d, r = .ok d))
      (app.denyRedemption lib i request digest reason locals) h () := by
  unfold denyRedemption
  have hreceipt : Body.Sat A (fun _ _ ↦ True) (fun h' r _ ↦
      Prog.ExtendedBy (fun e ↦ (e.isQuery || e.isSign) = true) h h' ∧
        (DenialReplies lib app A → ∃ receipt, r = .ok receipt))
      (app.receipt lib i (denyArgs request digest reason locals)) h () := by
    by_cases hs : DenialReplies lib app A
    · have hbuilt : Body.Sat A (fun _ _ ↦ True) (fun _ r _ ↦ ∃ receipt, r = .ok receipt)
          (app.receipt lib i (denyArgs request digest reason locals)) h () := by
        apply receipt_built hs
        intro receiptId decidedAt snapshot policyDigest hid hnow
        exact check_of_denies hs.named ⟨rfl, hreason, hdigest, rfl, rfl, rfl⟩ hid hnow
      apply ((receipt_extends h _).and hbuilt).mono
      rintro h' r _ ⟨hext, hr⟩
      exact ⟨hext, fun _ ↦ hr⟩
    · apply (receipt_extends h _).mono
      intro h' r _ hext
      exact ⟨hext, fun hs' ↦ absurd hs' hs⟩
  apply Body.Sat.bind hreceipt
  · rintro h' e _ _ ⟨hext, hr⟩
    refine ⟨hext, ⟨not_entered_of_extended hext hu, nofun⟩, fun hs ↦ ?_⟩
    obtain ⟨receipt, hreceipt⟩ := hr hs
    cases hreceipt
  · rintro h' receipt _ _ ⟨hext, _⟩
    refine ⟨hext, ⟨not_entered_of_extended hext hu, ?_⟩, fun _ ↦ ⟨_, rfl⟩⟩
    rintro d ⟨⟩
    exact ⟨rfl, rfl, rfl⟩

/-! ### What the packages accept -/

/-- What a call is answered when the packages accept what it presents and its time is right. Its
receipt may fail, by the time or the signer, unless it is `signed`, and nothing is said of the
counter and the handler. -/
def Contestant.answered (lib : Libraries) (app : InventoryApplication) (k : Contestant)
    (lost signed : Prop) (ev : Event Op Op.Reply) : Prop :=
  k.accepts lib app lost ev ∧ match ev with
    | ⟨.clock, r⟩ => signed → ∀ now, r = .ok now → 0 ≤ now
    | ⟨.tokenHex n, r⟩ => ∃ b : Bytes, b.length = n ∧ r = hex b
    | ⟨.sign signer _, r⟩ => signer = app.receiptSigner → signed → ∃ receipt, r = .ok receipt
    | _ => True

/-- How the redemption of an accepted call ends: its own spend is the first and it enters the
handler, or it is not and the call is denied, or the challenge was `lost` before. -/
inductive Settled (signable lost : Prop) (h : History) (r : Except Exn Decision) : Prop where
  | served {a : SpendArgs} {res : CredentialSpendResult} : ⟨.spend a, .ok res⟩ ∈ h →
      res.firstSpend = true → (∃ ev ∈ h, ev.op.entersHandler = true) → Settled signable lost h r
  | spent {a : SpendArgs} {res : CredentialSpendResult} : ⟨.spend a, .ok res⟩ ∈ h →
      res.firstSpend = false → DeniedAs .CREDENTIAL_SPENT h r → (signable → ∃ d, r = .ok d) →
      Settled signable lost h r
  | consumed : spendOf h = none → lost → Settled signable lost h r

/-- The `try` block of an accepted call ends as its own transaction went, without the handler. -/
theorem authorize_answered {k : Contestant} {lost signed : Prop} {l : RedeemLocals}
    (hk : k.Presentable lib app) :
    Body.Sat (fun _ ↦ k.answered lib app lost signed) (fun _ _ ↦ True) (fun h' r _ ↦
      (match r with
        | .ok () => spendOf h' = some true
        | .error e => spendOf h' ≠ some true ∧ (spendOf h' = none → lost) ∧
            e.denialReason = reasonFor (spendOf h')) ∧
      ∀ ev ∈ h', ev.op.entersHandler = false)
      (app.authorize lib k.request k.shown.argumentsDigest) [] l := by
  have hissues : (app.authorize lib k.request k.shown.argumentsDigest).Issues
      fun e ↦ e.isDeciding = true := authorize_deciding _
  have hrace : Body.Sat (fun _ ↦ k.answered lib app lost signed) (fun _ _ ↦ True) _
      (app.authorize lib k.request k.shown.argumentsDigest) [] l :=
    ((authorize_race hk).assume fun _ _ ha ↦ ha.1).weaken fun _ _ _ ↦ trivial
  have hunserved : Body.Sat (fun _ ↦ k.answered lib app lost signed) (fun _ _ ↦ True)
      (fun h' _ _ ↦ ∀ ev ∈ h', ev.op.entersHandler = false)
      (app.authorize lib k.request k.shown.argumentsDigest) [] l := by
    apply ((hissues _ [] l).collect.mono _).weaken fun _ _ _ ↦ trivial
    rintro h' r l' ⟨-, q, rfl, hall⟩ ev hev
    have he := hall ev hev
    rcases ev with ⟨e, r⟩
    cases e with
    | clock | lib | getResourceChallenge | spend => rfl
    | tokenHex | sign | storeBrokerChallenge | consumeBrokerChallenge | storeResourceChallenge
    | recordInvocation | invocationCount | inventoryLookup => cases he
  apply (hrace.and hunserved).mono
  rintro h' r l' ⟨hr, hn⟩
  refine ⟨?_, hn⟩
  cases r with
  | ok u => exact hr.1
  | error e => exact hr

/-- A redemption of an accepted call is settled by its own transaction. -/
theorem redeem_settles {k : Contestant} {lost signed : Prop} (hk : k.Presentable lib app) :
    Body.Sat (fun _ ↦ k.answered lib app lost signed) (fun _ _ ↦ True)
      (fun h' r _ ↦
        Settled (DenialReplies lib app (fun _ ↦ k.answered lib app lost signed)) lost h' r)
      (app.redeem lib k.service k.request) [] () := by
  unfold redeem
  obtain ⟨data, -, hdata⟩ := canonicalDigest_eq_ok hk.digest
  have hdigest : k.shown.argumentsDigest ≠ [] := by
    rw [hdata]
    exact truthy_some.mp (truthy_sha256Hex data)
  rw [hk.digest]
  apply Body.Sat.ofExcept
  · intro x hx
    cases hx
  rintro digest ⟨⟩
  apply Body.Sat.attempt (authorize_answered hk)
  rintro h' outcome locals _ ⟨hpost, hn⟩
  cases outcome with
  | ok u =>
    obtain ⟨a, res, hspend, hfirst⟩ := exists_of_spendOf hpost
    apply (invokeHandler_enters.and (Body.sat_extends _ h' _)).mono
    rintro h'' r _ ⟨henters, hext⟩
    exact .served (hext.subset hspend) hfirst henters
  | error e =>
    obtain ⟨hne, hlost, hreason⟩ := hpost
    dsimp only
    rw [hreason]
    have hdenies : reasonFor (spendOf h') ≠ .ALLOW ∧ reasonFor (spendOf h') ≠ .HANDLER_FAILED := by
      match hspend : spendOf h' with
      | none => exact ⟨nofun, nofun⟩
      | some false => exact ⟨nofun, nofun⟩
      | some true => exact absurd hspend hne
    apply (denyRedemption_denies hn hdigest hdenies).mono
    rintro h'' r _ ⟨hext, hdenied, hreturned⟩
    have hsame := spendOf_of_extended hext
    match hspend : spendOf h' with
    | some true => exact absurd hspend hne
    | none => exact .consumed (hsame.trans hspend) (hlost hspend)
    | some false =>
      obtain ⟨a, res, hmem, hfirst⟩ := exists_of_spendOf (hsame.trans hspend)
      rw [hspend] at hdenied
      exact .spent hmem hfirst hdenied hreturned

/-! ### Overlong credentials -/

/-- A credential that lives longer than the policy allows is denied before anything else is
looked at. -/
theorem redeem_overlong {c : Credential} {notBefore notAfter : Int} {digest : Text}
    (hd : canonicalDigest lib request.toInventoryArguments.modelDump = .ok digest)
    (hparse : ∀ h r, A h ⟨.lib (.credentialFromDict (.dict request.credential)), r⟩ → r = .ok c)
    (hid : c.credentialId.isLowerHexOf 64 = true)
    (hbounds : validityBounds c = .ok (notBefore, notAfter))
    (hlong : app.policy.maxCredentialLifetimeSeconds < notAfter - notBefore) :
    Body.Sat A (fun _ _ ↦ True) (fun h' r _ ↦ DeniedAs .CREDENTIAL_INVALID h' r ∧
      (DenialReplies lib app A → ∃ d, r = .ok d)) (app.redeem lib i request) [] () := by
  obtain ⟨data, -, hdata⟩ := canonicalDigest_eq_ok hd
  have hdigest : digest ≠ [] := by
    rw [hdata]
    exact truthy_some.mp (truthy_sha256Hex data)
  have hauth : Body.Sat A (fun _ _ ↦ True) (fun h' r _ ↦
      (∀ ev ∈ h', ev.op.entersHandler = false) ∧
        ∃ message, r = .error (.decision .CREDENTIAL_INVALID message))
      (app.authorize lib request digest) [] ⟨none, none⟩ := by
    unfold authorize presentCredential callLibExcept
    rw [Body.sat_bind]
    apply Body.Sat.invoke trivial
    · intro r x hr hx
      rw [hparse _ _ hr] at hx
      cases hx
    intro r credential hr hcredential
    rw [hparse _ _ hr] at hcredential
    cases hcredential
    apply Body.Sat.assign
    apply Body.Sat.raiseIf
    · intro hbad
      rw [hid] at hbad
      cases hbad
    intro _
    rw [hbounds]
    apply Body.Sat.ofExcept
    · intro x hx
      cases hx
    rintro _ ⟨⟩
    apply Body.Sat.raiseIf
    · intro _
      refine ⟨?_, _, rfl⟩
      intro ev hev
      obtain rfl := List.mem_singleton.mp hev
      rfl
    · intro hshort
      exact absurd hlong hshort
  unfold redeem
  rw [hd]
  apply Body.Sat.ofExcept
  · intro x hx
    cases hx
  rintro _ ⟨⟩
  apply Body.Sat.attempt hauth
  rintro h' outcome locals _ ⟨hn, message, rfl⟩
  have hdenies : Reason.CREDENTIAL_INVALID ≠ .ALLOW ∧ Reason.CREDENTIAL_INVALID ≠ .HANDLER_FAILED :=
    ⟨nofun, nofun⟩
  apply (denyRedemption_denies hn hdigest hdenies).mono
  rintro h'' r _ ⟨_, hdenied, hreturned⟩
  exact ⟨hdenied, hreturned⟩

end InventoryApplication
end Atcap
