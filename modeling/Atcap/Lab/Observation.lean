import Atcap.Lab.Bundle

/-!
# What finalisation observes

`_redeem_validated_case` redeems nothing but validated pairs, and every observation it returns
states what a redemption it started was answered. `finalize_cases` redeems only after every case
was validated.
-/

namespace Atcap.Lab

open Base

/-- The redemptions a variant is expected to cause. -/
def Variant.spends (v : Variant) : Nat := if v.allows then 1 else 0

/-- The specification of a validated case. -/
def TrustedController.ValidatedCase.spec (v : TrustedController.ValidatedCase) : CaseSpecFields :=
  v.prepared.val.spec.val

namespace TrustedController

variable {L : Type} {A : LabHistory → Event LabOp LabOp.Reply → Prop}
  {G : LabHistory → LabOp → Prop} {h : LabHistory} {l : L} {D : Deployment}
  {ctrl : TrustedController}

/-- A guarantee under which a process may ask, wait, and redeem the given pairs from here on. -/
structure Redeeming (G : LabHistory → LabOp → Prop) (ctrl : TrustedController) (h : LabHistory)
    (pairs : List (WorkerRequest × WorkerResponse)) : Prop where
  ask : Asking G
  wait : ∀ h t, G h (.wait t)
  await : ∀ h t, G h (.await t)
  redeem : ∀ h', h <+: h' → ∀ p ∈ pairs, G h' (.submit (.redeem ctrl.number (lookupOf p.1 p.2)))

/-- It holds from any later point on, for fewer pairs. -/
theorem Redeeming.later {h' : LabHistory} {pairs pairs' : List (WorkerRequest × WorkerResponse)}
    (hr : Redeeming G ctrl h pairs) (hs : h <+: h') (hp : pairs' ⊆ pairs) :
    Redeeming G ctrl h' pairs' :=
  { hr with redeem := fun h'' hs' p hmem ↦ hr.redeem h'' (hs.trans hs') p (hp hmem) }

/-- A process started the redemption of a pair and got its answer. -/
def Saw (ctrl : TrustedController) (h : LabHistory) (p : WorkerRequest × WorkerResponse)
    (d : Decision) : Prop :=
  ∃ t, (⟨.submit (.redeem ctrl.number (lookupOf p.1 p.2)), t⟩ : Event LabOp LabOp.Reply) ∈ h ∧
    ((⟨.wait t, .ok (.decision d)⟩ : Event LabOp LabOp.Reply) ∈ h ∨
      (⟨.await t, some (.ok (.decision d))⟩ : Event LabOp LabOp.Reply) ∈ h)

/-- A longer history keeps a seen decision. -/
theorem Saw.mono {h' : LabHistory} {p : WorkerRequest × WorkerResponse} {d : Decision}
    (hsaw : Saw ctrl h p d) (hs : h <+: h') : Saw ctrl h' p d := by
  obtain ⟨t, hsubmit, hanswer⟩ := hsaw
  exact ⟨t, hs.subset hsubmit, hanswer.imp (fun hw ↦ hs.subset hw) fun hw ↦ hs.subset hw⟩

/-- A decision is the answer it was read from. -/
theorem decisionOf_eq_ok {a : Except Exn Answer} {d : Decision} (hd : decisionOf a = .ok d) :
    a = .ok (.decision d) := by
  unfold decisionOf at hd
  split at hd
  · cases hd
    rfl
  · cases hd
  · cases hd

/-! ### One redemption -/

/-- `redeem` returns the decision of a redemption it started. -/
theorem redeem_returns {p : WorkerRequest × WorkerResponse} {pairs : List _}
    (hr : Redeeming G ctrl h pairs) (hp : p ∈ pairs) :
    Body.Returns A G (fun h' d ↦ Saw ctrl h' p d) (ctrl.redeem p.1 p.2 : Script L _) h l := by
  unfold redeem startRedeem
  apply Body.Returns.perform (hr.redeem h List.prefix_rfl p hp)
  intro t _
  apply Body.Returns.last (hr.wait _ _)
  intro r d _ hd
  obtain rfl := decisionOf_eq_ok hd
  exact ⟨t, by simp, .inl (by simp)⟩

/-- What an observation states of the decision it was made from. -/
structure Observes (D : Deployment) (ctrl : TrustedController) (h : LabHistory)
    (p : WorkerRequest × WorkerResponse) (d : Decision) (sequence : Int)
    (a : AttemptObservation) : Prop where
  runId : a.val.runId = p.1.runId
  redemptionSequence : a.val.redemptionSequence.val = sequence
  requestDigest : canonicalDigest D.lib p.1.modelDump = .ok a.val.requestSha256.val
  responseDigest : canonicalDigest D.lib p.2.modelDump = .ok a.val.workerResponseSha256.val
  proofDigest : canonicalDigest D.lib p.2.holderProof.modelDump = .ok a.val.holderProofSha256.val
  allowed : a.val.allowed = d.allowed
  reason : a.val.reason = d.reason
  receiptJws : a.val.receiptJws.val = d.receipt.compactJws
  /-- The receipt verified, and states this decision on this request. -/
  receipt : ∃ payload credential argumentsDigest tokenHash,
    ctrl.resourceReceiptVerifier.verify D.lib d.receipt = .ok payload ∧
    Told h (.credentialFromDict (.dict p.1.credential)) (.ok credential) ∧
    canonicalDigest D.lib p.1.arguments.modelDump = .ok argumentsDigest ∧
    payload.decidingService = .inventoryd ∧
    payload.decision = (if d.allowed then .allow else .deny) ∧ payload.reason = d.reason ∧
    ctrl.bindsRequest D p.1 credential argumentsDigest tokenHash payload.toReceiptFields = true ∧
    a.val.handlerInvoked = payload.handlerInvoked ∧
    a.val.invocationId.map Subtype.val = payload.invocationId

/-- A longer history keeps an observation. -/
theorem Observes.mono {h' : LabHistory} {p : WorkerRequest × WorkerResponse} {d : Decision}
    {sequence : Int} {a : AttemptObservation} (ho : Observes D ctrl h p d sequence a)
    (hs : h <+: h') : Observes D ctrl h' p d sequence a := by
  obtain ⟨payload, credential, argumentsDigest, tokenHash, hverify, htold, hrest⟩ := ho.receipt
  exact { ho with
    receipt := ⟨payload, credential, argumentsDigest, tokenHash, hverify, htold.mono hs, hrest⟩ }

private theorem invocationId_checked {p : Int → Bool} {x : Option Int}
    {y : Option { n : Int // p n = true }} (h : x.mapM (checked p) = .ok y) :
    y.map Subtype.val = x := by
  cases x with
  | none =>
    cases h
    rfl
  | some n =>
    change (checked p n >>= fun b ↦ pure (some b)) = .ok y at h
    rw [bind_eq_ok] at h
    obtain ⟨b, hb, hy⟩ := h
    cases hy
    rw [Option.map_some, checked_eq_ok.mp hb]

/-- `_observe_decision` returns an observation of the decision. -/
theorem observeDecision_returns (hask : Asking G) {p : WorkerRequest × WorkerResponse}
    {d : Decision} {sequence : Int} :
    Body.Returns A G (fun h' a ↦ Observes D ctrl h' p d sequence a)
      (ctrl.observeDecision D d p.1 p.2 sequence : Script L _) h l := by
  unfold observeDecision
  apply Body.Returns.ofExcept
  intro payload hverify
  rw [mapError_eq_ok] at hverify
  apply returns_compute
  intro argumentsDigest harguments
  apply returns_compute
  intro tokenHash _
  apply Body.Returns.raiseIf
  intro hdecision
  rw [not_or, not_or, not_not, not_not, not_not] at hdecision
  apply returns_askLibExcept hask
  intro credential
  apply Body.Returns.raiseIf
  intro hbinds
  rw [Bool.not_eq_false] at hbinds
  apply returns_compute
  intro policyDigest _
  apply Body.Returns.raiseIf
  intro _
  apply Body.Returns.ofExcept
  intro _ _
  apply Body.Returns.raiseIf
  intro _
  apply returns_compute
  intro redemptionSequence hsequence
  apply returns_compute
  intro requestDigest hrequest
  apply returns_compute
  intro requestSha256 hrequestSha
  apply returns_compute
  intro responseDigest hresponse
  apply returns_compute
  intro workerResponseSha256 hresponseSha
  apply returns_compute
  intro proofDigest hproof
  apply returns_compute
  intro holderProofSha256 hproofSha
  apply returns_compute
  intro receiptJws hjws
  apply returns_compute
  intro businessResult _
  apply returns_compute
  intro invocationId hinvocation
  apply returns_compute_last
  intro a ha
  have hval := construct_eq_ok ha
  rw [checked_eq_ok] at hsequence hrequestSha hresponseSha hproofSha hjws
  have hid := invocationId_checked hinvocation
  exact {
    runId := by rw [hval]
    redemptionSequence := by rw [hval]; exact hsequence
    requestDigest := by rw [hval, hrequest, hrequestSha]
    responseDigest := by rw [hval, hresponse, hresponseSha]
    proofDigest := by rw [hval, hproof, hproofSha]
    allowed := by rw [hval]
    reason := by rw [hval]
    receiptJws := by rw [hval]; exact hjws
    receipt := ⟨payload, credential, argumentsDigest, tokenHash, hverify, told_last _ _ _,
      harguments, hdecision.1, hdecision.2.1, hdecision.2.2, hbinds, by rw [hval],
      by rw [hval]; exact hid⟩ }

/-! ### The attempts of a case -/

/-- The submission of a pair's redemption in a thread. -/
def Started (ctrl : TrustedController) (h : LabHistory) (p : WorkerRequest × WorkerResponse)
    (t : Nat) : Prop :=
  (⟨.submit (.redeem ctrl.number (lookupOf p.1 p.2)), t⟩ : Event LabOp LabOp.Reply) ∈ h

/-- Every concurrent redemption is started. -/
theorem startAll_returns {pairs all : List (WorkerRequest × WorkerResponse)}
    (hr : Redeeming G ctrl h all) (hp : pairs ⊆ all) :
    Body.Returns A G (fun h' threads ↦ List.Forall₂ (Started ctrl h') pairs threads)
      (ctrl.startAll pairs : Script L _) h l := by
  induction pairs generalizing h l with
  | nil => exact Body.Returns.pure .nil
  | cons p pairs ih =>
    rw [List.cons_subset] at hp
    apply Body.Returns.perform (hr.redeem h List.prefix_rfl p hp.1)
    intro t _
    apply Body.Returns.bind (ih (hr.later (List.prefix_append _ _) (List.Subset.refl _)) hp.2)
    intro h' threads _ hs hrest
    exact Body.Returns.pure (.cons (hs.subset (List.mem_append_right _ (List.mem_singleton_self _)))
      hrest)

/-- The results of the concurrent redemptions are what their threads answered in time. -/
theorem resultsOf_returns (hawait : ∀ h t, G h (.await t)) (threads : List Nat) :
    Body.Returns A G (fun h' decisions ↦ List.Forall₂ (fun t d ↦
        (⟨.await t, some (.ok (.decision d))⟩ : Event LabOp LabOp.Reply) ∈ h') threads decisions)
      (resultsOf threads : Script L _) h l := by
  induction threads generalizing h l with
  | nil => exact Body.Returns.pure .nil
  | cons t threads ih =>
    apply Body.Returns.invoke (hawait _ _)
    intro r d _ hd
    have hr : r = some (.ok (.decision d)) := by
      cases r with
      | none => cases hd
      | some a => rw [decisionOf_eq_ok hd]
    subst hr
    apply Body.Returns.bind ih
    intro h' decisions _ hs hrest
    exact Body.Returns.pure (.cons (hs.subset (List.mem_append_right _ (List.mem_singleton_self _)))
      hrest)

/-- Joining the threads only waits. -/
theorem joinAll_returns (hwait : ∀ h t, G h (.wait t)) (threads : List Nat) :
    Body.Returns A G (fun _ _ ↦ True) (joinAll threads : Script L _) h l := by
  induction threads generalizing h l with
  | nil => exact Body.Returns.pure trivial
  | cons t threads ih =>
    apply Body.Returns.perform (hwait _ _)
    intro _ _
    exact ih

private theorem saw_of_awaited {pairs : List (WorkerRequest × WorkerResponse)}
    {threads : List Nat} {decisions : List Decision}
    (hs : List.Forall₂ (Started ctrl h) pairs threads)
    (ha : List.Forall₂ (fun t d ↦
      (⟨.await t, some (.ok (.decision d))⟩ : Event LabOp LabOp.Reply) ∈ h) threads decisions) :
    List.Forall₂ (Saw ctrl h) pairs decisions := by
  induction hs generalizing decisions with
  | nil =>
    cases ha
    exact .nil
  | cons hstart _ ih =>
    cases ha with
    | cons hanswer hrest => exact .cons ⟨_, hstart, .inr hanswer⟩ (ih hrest)

/-- The race returns the decision of each pair. -/
theorem raceAll_returns {pairs all : List (WorkerRequest × WorkerResponse)}
    (hr : Redeeming G ctrl h all) (hp : pairs ⊆ all) :
    Body.Returns A G (fun h' decisions ↦ List.Forall₂ (Saw ctrl h') pairs decisions)
      (ctrl.raceAll pairs : Script L _) h l := by
  unfold raceAll
  apply Body.Returns.invoke (hr.ask _ _)
  intro _ _ _ _
  apply Body.Returns.bind
    (startAll_returns (hr.later (List.prefix_append _ _) (List.Subset.refl _)) hp)
  intro h₁ threads _ _ hstarted
  apply Body.Returns.attempt (resultsOf_returns hr.await threads)
  intro h₂ outcome _ hs₂ hresults
  apply Body.Returns.bind (joinAll_returns hr.wait threads)
  intro h₃ _ _ hs₃ _
  apply Body.Returns.compute
  intro decisions hok
  apply saw_of_awaited
  · exact hstarted.imp fun _ _ hone ↦ (hs₂.trans hs₃).subset hone
  · exact (hresults decisions hok).imp fun _ _ hone ↦ hs₃.subset hone

/-- An observation of a redemption of this process. -/
def Attests (D : Deployment) (ctrl : TrustedController) (h : LabHistory)
    (s : (WorkerRequest × WorkerResponse) × Int) (a : AttemptObservation) : Prop :=
  ∃ d, Saw ctrl h s.1 d ∧ Observes D ctrl h s.1 d s.2 a

/-- A longer history keeps an attested observation. -/
theorem Attests.mono {h' : LabHistory} {s : (WorkerRequest × WorkerResponse) × Int}
    {a : AttemptObservation} (ha : Attests D ctrl h s a) (hs : h <+: h') :
    Attests D ctrl h' s a := by
  obtain ⟨d, hsaw, hobserves⟩ := ha
  exact ⟨d, hsaw.mono hs, hobserves.mono hs⟩

/-- The redemptions of a case, each with its sequence number. -/
def attemptPlan (variant : Variant) (pairs : List (WorkerRequest × WorkerResponse)) :
    List ((WorkerRequest × WorkerResponse) × Int) :=
  match variant with
  | .concurrent => pairs.map fun p ↦ (p, 1)
  | .replay => pairs.head?.toList.flatMap fun p ↦ [(p, 1), (p, 2)]
  | _ => pairs.head?.toList.map fun p ↦ (p, 1)

/-- The observations of the concurrent redemptions. -/
theorem observeAll_returns (hask : Asking G) {pairs : List (WorkerRequest × WorkerResponse)}
    {decisions : List Decision} (hs : List.Forall₂ (Saw ctrl h) pairs decisions) :
    Body.Returns A G (fun h' attempts ↦
        List.Forall₂ (Attests D ctrl h') (pairs.map fun p ↦ (p, 1)) attempts)
      (ctrl.observeAll D (pairs.zip decisions) : Script L _) h l := by
  induction pairs generalizing decisions h l with
  | nil =>
    cases hs
    exact Body.Returns.pure .nil
  | cons p pairs ih =>
    cases hs with
    | @cons _ d _ decisions hsaw hrest =>
      apply Body.Returns.bind (observeDecision_returns (p := p) hask)
      intro h₁ a _ hs₁ hobserves
      apply Body.Returns.bind (ih (hrest.imp fun _ _ hone ↦ hone.mono hs₁))
      intro h₂ attempts _ hs₂ hattests
      exact Body.Returns.pure
        (.cons ⟨d, (hsaw.mono hs₁).mono hs₂, hobserves.mono hs₂⟩ hattests)

/-- Every attempt of a case is an observation of one of its planned redemptions. -/
theorem attemptCase_returns (variant : Variant) {pairs : List (WorkerRequest × WorkerResponse)}
    (hr : Redeeming G ctrl h pairs) :
    Body.Returns A G (fun h' attempts ↦
        List.Forall₂ (Attests D ctrl h') (attemptPlan variant pairs) attempts)
      (ctrl.attemptCase D variant pairs : Script L _) h l := by
  unfold attemptCase
  split
  · next hvariant =>
    subst hvariant
    apply Body.Returns.bind (raceAll_returns hr (List.Subset.refl _))
    intro h₁ decisions _ _ hsaw
    exact observeAll_returns hr.ask hsaw
  · next hvariant =>
    cases pairs with
    | nil => exact Body.Returns.raise
    | cons p pairs =>
      apply Body.Returns.bind (redeem_returns (p := p) hr List.mem_cons_self)
      intro h₁ first _ hs₁ hfirst
      apply Body.Returns.bind (observeDecision_returns (p := p) hr.ask)
      intro h₂ observation _ hs₂ hobserved
      have hone : Attests D ctrl h₂ (p, 1) observation := ⟨first, hfirst.mono hs₂, hobserved⟩
      split
      · next hreplay =>
        subst hreplay
        apply Body.Returns.bind (redeem_returns (p := p)
          (hr.later (hs₁.trans hs₂) (List.Subset.refl _)) List.mem_cons_self)
        intro h₃ replayed _ hs₃ hreplayed
        apply Body.Returns.bind (observeDecision_returns (p := p) hr.ask)
        intro h₄ again _ hs₄ hagain
        exact Body.Returns.pure (.cons (hone.mono (hs₃.trans hs₄))
          (.cons ⟨replayed, hreplayed.mono hs₄, hagain⟩ .nil))
      · next hreplay =>
        have hplan : attemptPlan variant (p :: pairs) = [(p, 1)] := by
          cases variant with
          | concurrent => exact absurd rfl hvariant
          | replay => exact absurd rfl hreplay
          | valid | argumentSubstitution | recordSubstitution | wrongHolder | malformed => rfl
        rw [hplan]
        exact Body.Returns.pure (.cons hone .nil)

/-! ### The cases -/

/-- What the observation of a case states of its validated inputs. -/
structure Finalized (D : Deployment) (ctrl : TrustedController) (h : LabHistory)
    (v : ValidatedCase) (c : CaseObservation) : Prop where
  caseId : c.val.caseId = v.spec.caseId
  variant : c.val.variant = v.spec.variant
  brokerReceiptJws : c.val.brokerReceiptJws.val = v.grant.brokerReceipt.compactJws
  attempts : List.Forall₂ (Attests D ctrl h) (attemptPlan v.spec.variant v.pairs) c.val.attempts
  outcomes : observedOutcomes v.spec.variant c.val.attempts =
    expectedOutcomes (v.spec.concurrency.val - 1).toNat v.spec.variant
  invocationDelta : c.val.invocationDelta.val = v.spec.variant.spends
  redemptionCount : c.val.credentialRedemptionCount.val = v.spec.variant.spends
  counted : (⟨.ask (.redemptionCount v.grant.credential.credentialId),
    .ok v.spec.variant.spends⟩ : Event LabOp LabOp.Reply) ∈ h

/-- A longer history keeps what it shows of a finalised case. -/
theorem Finalized.mono {h' : LabHistory} {v : ValidatedCase} {c : CaseObservation}
    (hf : Finalized D ctrl h v c) (hs : h <+: h') : Finalized D ctrl h' v c :=
  { hf with
    attempts := hf.attempts.imp fun _ _ hone ↦ hone.mono hs
    counted := hs.subset hf.counted }

/-- `_redeem_validated_case` returns the observation of a finalised case. -/
theorem redeemValidatedCase_returns {v : ValidatedCase} (hr : Redeeming G ctrl h v.pairs) :
    Body.Returns A G (fun h' c ↦ Finalized D ctrl h' v c)
      (ctrl.redeemValidatedCase D v.prepared v.grant v.orderedResponses : Script L _) h l := by
  unfold redeemValidatedCase ask
  apply Body.Returns.perform (hr.ask _ _)
  intro before _
  apply Body.Returns.bind (attemptCase_returns (D := D) v.spec.variant
    (hr.later (List.prefix_append _ _) (List.Subset.refl _)))
  intro h₁ attempts _ _ hattempts
  apply Body.Returns.ofExcept
  intro _ houtcomes
  rw [requireExpectedOutcomes, raiseIf_eq_ok, not_not] at houtcomes
  apply Body.Returns.perform (hr.ask _ _)
  intro after _
  apply Body.Returns.invoke (hr.ask _ _)
  intro r redemptions _ hcount
  obtain rfl : r = .ok redemptions := mapError_eq_ok.mp hcount
  apply Body.Returns.raiseIf
  intro hexpected
  rw [not_or, not_not, not_not] at hexpected
  apply returns_compute
  intro brokerReceiptJws hjws
  apply returns_compute
  intro workerPublicKey _
  apply returns_compute
  intro workerImage _
  apply returns_compute
  intro workerCodeDigest _
  apply returns_compute
  intro invocationDelta hdelta
  apply returns_compute
  intro credentialRedemptionCount hredemptions
  apply returns_compute_last
  intro c hc
  have hval := construct_eq_ok hc
  rw [checked_eq_ok] at hjws hdelta hredemptions
  have hspends : ((v.spec.variant.spends : Nat) : Int) =
      if v.spec.variant.allows then 1 else 0 := by
    unfold Variant.spends
    split
    · rfl
    · rfl
  have hspent : redemptions = v.spec.variant.spends := by
    apply Int.ofNat.inj
    exact hexpected.2.trans hspends.symm
  exact {
    caseId := by rw [hval]; rfl
    variant := by rw [hval]; rfl
    brokerReceiptJws := by rw [hval]; exact hjws
    attempts := by
      rw [hval]
      exact hattempts.imp fun _ _ hone ↦ (hone.mono (List.prefix_append _ _)).mono
        (List.prefix_append _ _)
    outcomes := by rw [hval]; exact houtcomes
    invocationDelta := by rw [hval, hspends]; exact hdelta.trans hexpected.1
    redemptionCount := by rw [hval, hspends]; exact hredemptions.trans hexpected.2
    counted := by
      rw [← hspent]
      exact List.mem_append_right _ (List.mem_singleton_self _) }

/-- The second loop of `finalize_cases` returns the observations of all cases. -/
theorem redeemCases_returns {validated : List ValidatedCase}
    (hr : Redeeming G ctrl h (pairing validated)) :
    Body.Returns A G (fun h' cases ↦ List.Forall₂ (Finalized D ctrl h') validated cases)
      (ctrl.redeemCases D validated : Script L _) h l := by
  induction validated generalizing h l with
  | nil => exact Body.Returns.pure .nil
  | cons v validated ih =>
    rw [pairing, List.flatMap_cons] at hr
    apply Body.Returns.bind (redeemValidatedCase_returns (D := D)
      (hr.later List.prefix_rfl (List.subset_append_left _ _)))
    intro h₁ c _ hs₁ hone
    apply Body.Returns.bind (ih (hr.later hs₁ (List.subset_append_right _ _)))
    intro h₂ cases _ hs₂ hrest
    exact Body.Returns.pure (.cons (hone.mono hs₂) hrest)

/-- What `finalize_cases` guarantees: it starts nothing but redemptions, each of a pair of a bundle
whose cases have all been validated before. -/
def Pledge (D : Deployment) (ctrl : TrustedController)
    (inputs : List (PreparedCase × List WorkerResponse)) (h : LabHistory) : LabOp → Prop
  | .submit c => ∃ validated, List.Forall₂ (Validates D ctrl h) inputs validated ∧
      ∃ p ∈ pairing validated, c = .redeem ctrl.number (lookupOf p.1 p.2)
  | _ => True

/-- `finalize_cases` keeps its pledge, and returns an observation of each case. -/
theorem finalizeCases_returns (inputs : List (PreparedCase × List WorkerResponse)) :
    Body.Returns A (Pledge D ctrl inputs)
      (fun h' cases ↦ ∃ validated, List.Forall₂ (Validates D ctrl h') inputs validated ∧
        List.Forall₂ (Finalized D ctrl h') validated cases)
      (ctrl.finalizeCases D inputs : Script L _) h l := by
  unfold finalizeCases
  apply Body.Returns.bind (validateCases_returns (fun _ _ ↦ trivial) inputs)
  intro h₁ validated _ _ hvalidates
  have hr : Redeeming (Pledge D ctrl inputs) ctrl h₁ (pairing validated) := {
    ask := fun _ _ ↦ trivial
    wait := fun _ _ ↦ trivial
    await := fun _ _ ↦ trivial
    redeem := fun h' hs p hp ↦ ⟨validated, validates_mono hvalidates hs, p, hp, rfl⟩ }
  apply (redeemCases_returns hr).extend.mono
  rintro h₂ cases ⟨hs, hfinalized⟩
  exact ⟨validated, validates_mono hvalidates hs, hfinalized⟩

end TrustedController
end Atcap.Lab
