import Atcap.Inventory.Receipts

/-!
# How a redemption ends

The outcome of `redeem` against its own history. A denied call was refused before, inside or after
the transaction (`Refused`); a call that has counted its invocation ends in one of three ways
(`Ended`), whatever its collaborators do.
-/

namespace Atcap

open Base

/-- The clock, the packages and the store reads of a call raise no `DecisionError`. -/
def PlainReply (_ : History) : Event Op Op.Reply → Prop
  | ⟨.clock, r⟩ => Plain r
  | ⟨.lib _, r⟩ => Plain r
  | ⟨.getResourceChallenge _, r⟩ => Plain r
  | _ => True

namespace InventoryApplication

/-! ### Refusals -/

/-- The reasons a call is refused with before its transaction. -/
def earlyReasons : List Reason :=
  [.CREDENTIAL_INVALID, .CREDENTIAL_EXPIRED, .SCOPE_DENIED, .HOLDER_PROOF_INVALID,
    .CHALLENGE_INVALID, .CHALLENGE_CONSUMED, .CHALLENGE_STALE, .INTERNAL_ERROR]

section Refused

variable (lib : Libraries) (app : InventoryApplication) (request : LookupInput)

/-- How the `try` block of `redeem` refuses a call. -/
inductive Refused (h : History) (reason : Reason) : Prop where
  /-- Before the transaction. -/
  | early : Quiet h → reason ∈ earlyReasons → Refused h reason
  /-- By an exception of the transaction. -/
  | locked {p : Presentation} {h₀ : History} {e : Exn} :
      h = h₀ ++ [⟨.spend (p.spendArgs app request), .error e⟩] → p.Checked lib app request h₀ →
      Quiet h₀ → reason = e.denialReason → Refused h reason
  /-- Because the credential had a redemption. -/
  | second {p : Presentation} {h₀ : History} {res : CredentialSpendResult} :
      h = h₀ ++ [⟨.spend (p.spendArgs app request), .ok res⟩] → p.Checked lib app request h₀ →
      Quiet h₀ → res.firstSpend = false → reason = .CREDENTIAL_SPENT → Refused h reason
  /-- After the commit, because the clock failed. -/
  | unclocked {p : Presentation} {h₀ : History} {res : CredentialSpendResult} {e : Exn} :
      h = h₀ ++ [⟨.spend (p.spendArgs app request), .ok res⟩, ⟨.clock, .error e⟩] →
      p.Checked lib app request h₀ → Quiet h₀ → res.firstSpend = true →
      reason = .INTERNAL_ERROR → Refused h reason
  /-- After the commit, because time had run out. -/
  | late {p : Presentation} {h₀ : History} {res : CredentialSpendResult} {now : Int} :
      h = h₀ ++ [⟨.spend (p.spendArgs app request), .ok res⟩, ⟨.clock, .ok now⟩] →
      p.Checked lib app request h₀ → Quiet h₀ → res.firstSpend = true →
      (res.challengeExpiresAt ≤ now ∧ reason = .CHALLENGE_STALE ∨
        (now < p.notBefore ∨ p.notAfter < now) ∧ reason = .CREDENTIAL_EXPIRED) → Refused h reason

end Refused

variable {lib : Libraries} {app : InventoryApplication} {i : Nat} {request : LookupInput}
  {h : History} {l : RedeemLocals}

private def Early (e : Exn) : Prop := e.denialReason ∈ earlyReasons

private theorem early_of_plain {α : Type} {r : Except Exn α} (hr : Plain r) {e : Exn}
    (he : r = .error e) : Early e := by
  rw [Early, Exn.denialReason_eq (hr e he)]
  decide

private def Translates (f : Exn → Exn) : Prop :=
  ∀ e, f e = e ∨ ∃ reason message, f e = .decision reason message ∧ reason ∈ earlyReasons

private theorem translates_malformedCredential : Translates malformedCredential := by
  intro e
  unfold malformedCredential
  split
  · exact .inr ⟨_, _, rfl, by decide⟩
  · exact .inr ⟨_, _, rfl, by decide⟩
  · split
    · exact .inr ⟨_, _, rfl, by decide⟩
    · exact .inl rfl

private theorem translates_chainFailure : Translates chainFailure := by
  intro e
  unfold chainFailure
  split
  · exact .inr ⟨_, _, rfl, by decide⟩
  · exact .inr ⟨_, _, rfl, by decide⟩
  · split
    · exact .inr ⟨_, _, rfl, by decide⟩
    · exact .inl rfl

private theorem translates_malformedProof : Translates malformedProof := by
  intro e
  unfold malformedProof
  split
  · exact .inr ⟨_, _, rfl, by decide⟩
  · exact .inr ⟨_, _, rfl, by decide⟩
  · split
    · exact .inr ⟨_, _, rfl, by decide⟩
    · exact .inl rfl

private theorem translates_proofFailure : Translates proofFailure := by
  intro e
  unfold proofFailure
  split
  · exact .inr ⟨_, _, rfl, by decide⟩
  · exact .inl rfl

private theorem early_mapError {α : Type} {r : Except Exn α} {f : Exn → Exn} (hf : Translates f)
    (hr : Plain r) {e : Exn} (he : r.mapError f = .error e) : Early e := by
  cases r with
  | ok a => cases he
  | error e' =>
    cases he
    obtain hsame | ⟨reason, message, hdecision, hreason⟩ := hf e'
    · rw [hsame]
      exact early_of_plain hr rfl
    · rw [Early, hdecision]
      exact hreason

private theorem presentCredential_raises :
    Body.Raises PlainReply Early (app.presentCredential request) := by
  unfold presentCredential callLibExcept
  apply Body.Raises.bind
  · apply Body.Raises.invoke
    intro h r x hr hx
    exact early_mapError translates_malformedCredential hr hx
  intro credential
  apply Body.Raises.bind (.assign _)
  intro _
  apply Body.Raises.bind (.raiseIf (by unfold Early; decide))
  intro _
  apply Body.Raises.bind
  · apply Body.Raises.ofExcept
    intro e he
    unfold validityBounds at he
    split at he
    · cases he
    · cases he
      unfold Early
      decide
  rintro ⟨notBefore, notAfter⟩
  apply Body.Raises.bind (.raiseIf (by unfold Early; decide))
  intro _
  apply Body.Raises.bind
  · apply Body.Raises.invoke
    intro h r x hr hx
    exact early_mapError translates_chainFailure hr hx
  intro atTime
  apply Body.Raises.bind
  · apply Body.Raises.invoke
    intro h r x hr hx
    exact early_mapError translates_chainFailure hr hx
  intro _
  apply Body.Raises.bind (.raiseIf (by unfold Early; decide))
  intro _
  exact .pure _

private theorem plain_challengeTokenHash (token : Text) : Plain (challengeTokenHash token) := by
  intro e he
  unfold challengeTokenHash encodeUtf8 at he
  split at he
  · cases he
  · cases he
    rfl

private theorem presentChallenge_raises {digest : Text} {c : Credential} :
    Body.Raises PlainReply Early (app.presentChallenge request digest c) := by
  unfold presentChallenge callLibExcept readClock
  apply Body.Raises.bind
  · apply Body.Raises.invoke
    intro h r x hr hx
    exact early_mapError translates_malformedProof hr hx
  intro proof
  apply Body.Raises.bind
  · apply Body.Raises.ofExcept
    intro e he
    exact early_of_plain (plain_challengeTokenHash _) he
  intro tokenHash
  apply Body.Raises.bind (.assign _)
  intro _
  apply Body.Raises.bind
  · apply Body.Raises.invoke
    intro h r x hr hx
    exact early_of_plain hr hx
  intro found
  apply Body.Raises.bind
  · apply Body.Raises.ofExcept
    intro e he
    cases found with
    | some row => cases he
    | none =>
      cases he
      unfold Early
      decide
  intro stored
  apply Body.Raises.bind (.raiseIf (by unfold Early; decide))
  intro _
  apply Body.Raises.bind (.raiseIf (by unfold Early; decide))
  intro _
  apply Body.Raises.bind
  · apply Body.Raises.invoke
    intro h r x hr hx
    exact early_of_plain hr hx
  intro now
  apply Body.Raises.bind (.raiseIf (by unfold Early; decide))
  intro _
  exact .pure _

private theorem proveHolder_raises {c : Credential} {proof : HolderProof} {data : Bytes}
    (hd : canonicalJson lib request.toInventoryArguments.modelDump = .ok data) :
    Body.Raises PlainReply Early (app.proveHolder lib request c proof) := by
  unfold proveHolder callLibExcept
  rw [hd]
  apply Body.Raises.bind
  · apply Body.Raises.ofExcept
    intro e he
    cases he
  intro sealedPayload
  apply Body.Raises.invoke
  intro h r x hr hx
  exact early_mapError translates_proofFailure hr hx

/-- The `try` block admits a call after every check, or refuses it in one of five ways. -/
theorem authorize_refused {digest : Text}
    (hd : canonicalDigest lib request.toInventoryArguments.modelDump = .ok digest) :
    Body.Sat PlainReply (fun _ _ ↦ True) (fun h' r _ ↦ match r with
      | .ok () => ∃ p : Presentation, p.Admitted lib app request h'
      | .error e => Refused lib app request h' e.denialReason)
      (app.authorize lib request digest) [] l := by
  have hG : ∀ (h : History) (e : Op), e.isQuery = true → e.isParse = false → True :=
    fun _ _ _ _ ↦ trivial
  obtain ⟨data, hdata, -⟩ := canonicalDigest_eq_ok hd
  unfold authorize
  apply Body.Sat.bind ((presentCredential_sat hG trivial quiet_nil).and
    (presentCredential_raises [] l))
  · rintro h₁ e l₁ _ ⟨hpost, hraised⟩
    exact .early hpost.1 (hraised e rfl)
  rintro h₁ ⟨c, nb, na⟩ l₁ _ ⟨⟨hq₁, hpost₁⟩, _⟩
  obtain ⟨hcredential, rfl⟩ := hpost₁ c nb na rfl
  apply Body.Sat.bind ((presentChallenge_sat hG hq₁).and (presentChallenge_raises h₁ _))
  · rintro h₂ e l₂ _ ⟨hpost, hraised⟩
    exact .early hpost.1 (hraised e rfl)
  rintro h₂ ⟨proof, tokenHash⟩ l₂ hsub₂ ⟨⟨hq₂, hpost₂⟩, _⟩
  obtain ⟨hchallenge, rfl⟩ := hpost₂ proof tokenHash rfl
  apply Body.Sat.bind ((proveHolder_sat hG hq₂).and (proveHolder_raises hdata h₂ _))
  · rintro h₃ e l₃ _ ⟨hpost, hraised⟩
    exact .early hpost.1 (hraised e rfl)
  rintro h₃ ⟨⟩ l₃ hsub₃ ⟨⟨hq₃, hpost₃⟩, _⟩
  obtain ⟨hholder, rfl⟩ := hpost₃ rfl
  let p : Presentation := ⟨digest, c, nb, na, proof, tokenHash⟩
  have hp : p.Checked lib app request h₃ :=
    ⟨hd, hcredential.mono (hsub₂.trans hsub₃).subset, hchallenge.mono hsub₃.subset, hholder⟩
  unfold spendCredential preHandlerCheck readClock
  rw [Body.sat_bind]
  apply Body.Sat.invoke trivial
  · rintro r e _ rfl
    exact .locked rfl hp hq₃ rfl
  rintro r res _ rfl
  apply Body.Sat.raiseIf
  · intro hfirst
    exact .second rfl hp hq₃ hfirst rfl
  intro hfirst
  rw [Body.sat_pure]
  have hfirst : res.firstSpend = true := by simpa using hfirst
  apply Body.Sat.invoke trivial
  · rintro r e hr rfl
    rw [List.append_assoc]
    exact .unclocked rfl hp hq₃ hfirst (Exn.denialReason_eq (hr e rfl))
  rintro r now _ rfl
  rw [List.append_assoc]
  apply Body.Sat.raiseIf
  · intro hstale
    exact .late rfl hp hq₃ hfirst (.inl ⟨hstale, rfl⟩)
  intro hfresh
  unfold Body.raiseIf
  rw [Body.sat_ofExcept]
  cases hr : Base.raiseIf (now < nb ∨ now > na)
      (Exn.decision .CREDENTIAL_EXPIRED "credential expired after the spend commit") with
  | error e =>
    obtain ⟨hlate, rfl⟩ := raiseIf_eq_error.mp hr
    exact .late rfl hp hq₃ hfirst (.inr ⟨hlate, rfl⟩)
  | ok u =>
    rw [raiseIf_eq_ok, not_or] at hr
    exact ⟨p, h₃, res, now, rfl, hq₃, hp, hfirst, not_le.mp hfresh, not_lt.mp hr.1,
      not_lt.mp hr.2⟩

/-! ### Invocations -/

/-- What the handler's reply is validated to, under invocation number `n`. -/
def handlerOutcome (n : Nat) (reply : Except Exn (List (Text × Value))) :
    Except Exn InventoryLookupResult := do
  let rawResult ← reply
  InventoryLookupResult.modelValidate
    (Value.setMember rawResult (text "invocation_number") (.int n))

/-- How a call ends that has counted invocation `n`: with the validated result, with the closed
failure object, or without a receipt. -/
inductive Ended (n : Nat) (reply : Except Exn (List (Text × Value))) : Except Exn Decision →
    Prop where
  | completed {result : InventoryLookupResult} (receipt : SignedDecisionReceipt) :
      handlerOutcome n reply = .ok result →
      Ended n reply (.ok ⟨true, .ALLOW, receipt, some result.modelDump⟩)
  | failed {e : Exn} (receipt : SignedDecisionReceipt) : handlerOutcome n reply = .error e →
      Ended n reply (.ok ⟨true, .HANDLER_FAILED, receipt, some (failedResult n)⟩)
  | unsigned (message : String) :
      Ended n reply (.error (.postInvocation message n (handlerOutcome n reply).isOk))

section Invocation

variable {A : History → Event Op Op.Reply → Prop}

/-- The receipt of an invocation is returned, or the call raises `PostInvocationError`. -/
theorem invocationReceipt_ended {digest : Text} {locals : RedeemLocals} {n : Nat}
    {completed : Bool} :
    Body.Sat A (fun _ _ ↦ True) (fun h' r _ ↦
      Prog.ExtendedBy (fun e ↦ (e.isQuery || e.isSign) = true) h h' ∧
        ∀ e, r = .error e → ∃ message, e = .postInvocation message n completed)
      (app.invocationReceipt lib i request digest locals n completed) h () := by
  unfold invocationReceipt
  apply Body.Sat.attempt (receipt_extends h _)
  intro h' outcome _ _ hext
  rw [Body.sat_ofExcept]
  refine ⟨hext, ?_⟩
  intro e he
  cases outcome with
  | ok receipt => cases he
  | error x =>
    cases he
    exact ⟨_, rfl⟩

/-- A call that counts its invocation ends in one of the three ways. -/
theorem invokeHandler_ended {digest : Text} {locals : RedeemLocals} :
    Body.Sat A (fun _ _ ↦ True) (fun h' r _ ↦ ∃ n reply,
      Prog.ExtendedBy (fun e ↦ (e.isQuery || e.isSign) = true)
        (h ++ [⟨.recordInvocation i, n⟩, ⟨.inventoryLookup i request.sku.val, reply⟩]) h' ∧
        Ended n reply r)
      (app.invokeHandler lib i request digest locals) h () := by
  unfold invokeHandler
  apply Body.Sat.perform trivial
  intro n _
  have hrun : Body.Sat A (fun _ _ ↦ True) (fun h' r _ ↦ ∃ reply,
      h' = h ++ [⟨.recordInvocation i, n⟩, ⟨.inventoryLookup i request.sku.val, reply⟩] ∧
        r = handlerOutcome n reply)
      (runHandler i request.toInventoryArguments n) (h ++ [⟨.recordInvocation i, n⟩]) () := by
    unfold runHandler
    apply Body.Sat.invoke trivial
    · rintro r x _ rfl
      exact ⟨.error x, by simp, rfl⟩
    rintro r rawResult _ rfl
    rw [Body.sat_ofExcept]
    exact ⟨.ok rawResult, by simp, rfl⟩
  apply Body.Sat.attempt hrun
  rintro h' outcome _ _ ⟨reply, rfl, rfl⟩
  cases houtcome : handlerOutcome n reply with
  | error x =>
    have hfailed : (handlerOutcome n reply).isOk = false := by rw [houtcome]; rfl
    apply Body.Sat.bind invocationReceipt_ended
    · rintro h'' e _ _ ⟨hext, hpost⟩
      obtain ⟨message, rfl⟩ := hpost e rfl
      exact ⟨n, reply, hext, hfailed ▸ .unsigned message⟩
    · rintro h'' receipt _ _ ⟨hext, _⟩
      exact ⟨n, reply, hext, .failed receipt houtcome⟩
  | ok result =>
    have hcompleted : (handlerOutcome n reply).isOk = true := by rw [houtcome]; rfl
    apply Body.Sat.bind invocationReceipt_ended
    · rintro h'' e _ _ ⟨hext, hpost⟩
      obtain ⟨message, rfl⟩ := hpost e rfl
      exact ⟨n, reply, hext, hcompleted ▸ .unsigned message⟩
    · rintro h'' receipt _ _ ⟨hext, _⟩
      exact ⟨n, reply, hext, .completed receipt houtcome⟩

end Invocation

/-! ### The whole call -/

/-- A denied call was refused, and then only asked and signed. -/
theorem redeem_refused : Body.Sat PlainReply (fun _ _ ↦ True) (fun h' r _ ↦ ∀ d, r = .ok d →
      d.allowed = false → ∃ h₁, Refused lib app request h₁ d.reason ∧
        Prog.ExtendedBy (fun e ↦ (e.isQuery || e.isSign) = true) h₁ h')
      (app.redeem lib i request) [] () := by
  unfold redeem
  apply Body.Sat.ofExcept
  · intro x _ d hd
    cases hd
  intro digest hdigest
  apply Body.Sat.attempt (authorize_refused hdigest)
  intro h₁ outcome locals _ hpost
  cases outcome with
  | ok u =>
    apply invokeHandler_ended.mono
    rintro h' r _ ⟨n, reply, _, hended⟩ d rfl hdenied
    cases hended with
    | completed => cases hdenied
    | failed => cases hdenied
  | error e =>
    unfold denyRedemption
    apply Body.Sat.bind (receipt_extends h₁ _)
    · intro h' x _ _ _ d hd
      cases hd
    · rintro h' receipt _ _ hext d ⟨⟩ _
      exact ⟨h₁, hpost, hext⟩

/-- An exception of a call that has counted no invocation: the canonicaliser, the clock or the
signer raised it. -/
inductive Leaked (lib : Libraries) (app : InventoryApplication) (request : LookupInput)
    (h : History) (e : Exn) : Prop where
  | arguments : canonicalDigest lib request.toInventoryArguments.modelDump = .error e →
      Leaked lib app request h e
  | policy : canonicalDigest lib app.policy.publicDict = .error e → Leaked lib app request h e
  | clock : ⟨.clock, .error e⟩ ∈ h → Leaked lib app request h e
  | sign {payload : DecisionReceiptPayload} : ⟨.sign app.receiptSigner payload, .error e⟩ ∈ h →
      Leaked lib app request h e

section Uncounted

variable {A : History → Event Op Op.Reply → Prop}

/-- `_receipt` raises what its collaborators raise, or a `ValidationError`. -/
theorem receipt_leaks {a : ReceiptArgs} :
    Body.Sat A (fun _ _ ↦ True) (fun h' r _ ↦ ∀ e, r = .error e →
      Leaked lib app request h' e ∨ ∃ message, e = .validation message)
      (app.receipt lib i a) h () := by
  unfold receipt readClock
  apply Body.Sat.perform trivial
  intro receiptId _
  apply Body.Sat.invoke trivial
  · rintro r x _ rfl e ⟨⟩
    exact .inl (.clock (by simp))
  intro r decidedAt _ _
  apply Body.Sat.perform trivial
  intro snapshot _
  apply Body.Sat.ofExcept
  · rintro x hx e ⟨⟩
    exact .inl (.policy hx)
  intro digest _
  apply Body.Sat.ofExcept
  · rintro x hx e ⟨⟩
    exact .inr (DecisionReceiptPayload.construct_raises hx)
  intro payload _
  rw [Body.sat_invoke]
  refine ⟨trivial, ?_⟩
  intro r _ e he
  have he : r = .error e := he
  rw [he]
  exact .inl (.sign (List.mem_append_right _ (List.mem_singleton_self _)))

/-- Queries and signatures count no invocation. -/
theorem uncounted_of_extended {h' : History}
    (he : Prog.ExtendedBy (fun e ↦ (e.isQuery || e.isSign) = true) h h') {j n : Nat}
    (hmem : ⟨.recordInvocation j, n⟩ ∈ h') : ⟨.recordInvocation j, n⟩ ∈ h := by
  obtain ⟨q, rfl, hq⟩ := he
  obtain hmem | hmem := List.mem_append.mp hmem
  · exact hmem
  · cases hq _ hmem

/-- An unserved history counts no invocation. -/
theorem uncounted_of_unserved (hu : Unserved h) {j n : Nat} : ⟨.recordInvocation j, n⟩ ∉ h := by
  intro hmem
  cases hu _ hmem

/-- Every outcome of `redeem`, whatever its collaborators do: one that is neither counted nor
allowed, or one of a counted invocation. -/
theorem redeem_ended : Body.Sat A (fun _ _ ↦ True) (fun h' r _ ↦
      ((∀ n, ⟨.recordInvocation i, n⟩ ∉ h') ∧ (∀ d, r = .ok d → d.allowed = false) ∧
        ∀ e, r = .error e → Leaked lib app request h' e ∨ ∃ message, e = .validation message) ∨
      ∃ n reply, (∀ m, ⟨.recordInvocation i, m⟩ ∈ h' ↔ m = n) ∧
        ⟨.inventoryLookup i request.sku.val, reply⟩ ∈ h' ∧ Ended n reply r)
      (app.redeem lib i request) [] () := by
  unfold redeem
  apply Body.Sat.ofExcept
  · intro x hx
    refine .inl ⟨fun _ ↦ List.not_mem_nil, nofun, ?_⟩
    rintro e ⟨⟩
    exact .inl (.arguments hx)
  intro digest hdigest
  apply Body.Sat.attempt ((authorize_sat (i := i) hdigest).weaken fun _ _ _ ↦ trivial)
  intro h₁ outcome locals _ hpost
  cases outcome with
  | error e =>
    have hdenied : Body.Sat A (fun _ _ ↦ True) (fun h' _ _ ↦ ∀ n, ⟨.recordInvocation i, n⟩ ∉ h')
        (app.receipt lib i (denyArgs request digest e.denialReason locals)) h₁ () := by
      apply (receipt_extends h₁ _).mono
      intro h' r _ hext n hn
      exact uncounted_of_unserved hpost (uncounted_of_extended hext hn)
    unfold denyRedemption
    apply Body.Sat.bind (hdenied.and receipt_leaks)
    · rintro h' x _ _ ⟨hn, hleaks⟩
      exact .inl ⟨hn, nofun, fun e he ↦ by cases he; exact hleaks _ rfl⟩
    · rintro h' receipt _ _ ⟨hn, _⟩
      refine .inl ⟨hn, ?_, nofun⟩
      rintro d ⟨⟩
      rfl
  | ok u =>
    obtain ⟨p, hp, rfl, rfl⟩ := hpost
    apply invokeHandler_ended.mono
    rintro h' r _ ⟨n, reply, hext, hended⟩
    refine .inr ⟨n, reply, ?_, ?_, hended⟩
    · intro m
      constructor
      · intro hm
        obtain hm | hm := List.mem_append.mp (uncounted_of_extended hext hm)
        · exact absurd hm (uncounted_of_unserved hp.unserved)
        · simpa using hm
      · rintro rfl
        obtain ⟨q, rfl, _⟩ := hext
        simp
    · obtain ⟨q, rfl, _⟩ := hext
      simp

end Uncounted

end InventoryApplication
end Atcap
