import Atcap.Lab.Validation

/-!
# What preparation returns

`prepare_case` starts nothing but resource challenges. What it returns carries the grant it was
given: every request names the dumped credential, the scope of the policy and a challenge that was
issued for exactly its own arguments and record.
-/

namespace Atcap.Lab

open Base TrustedController

variable {L : Type} {A : LabHistory → Event LabOp LabOp.Reply → Prop}
  {G : LabHistory → LabOp → Prop} {h h' : LabHistory} {l : L} {D : Deployment}
  {ctrl : TrustedController} {g : CapabilityGrant}

/-! ### The dumped credential -/

/-- The members of a credential that a process dumped. -/
def Dumped (h : LabHistory) (c : Credential) (members : List (Text × Value)) : Prop :=
  ∃ body, Told h (.credentialBody c) (.ok body) ∧
    members = Value.setMember body (text "signature") (.str c.signature)

/-- A longer history keeps a dumped credential. -/
theorem Dumped.mono {c : Credential} {members : List (Text × Value)} (hd : Dumped h c members)
    (hs : h <+: h') : Dumped h' c members := by
  obtain ⟨body, htold, hmembers⟩ := hd
  exact ⟨body, htold.mono hs, hmembers⟩

/-- `credential_to_dict` returns a dumped credential. -/
theorem credentialToDict_returns (hask : Asking G) (c : Credential) :
    Body.Returns A G (fun h' members ↦ Dumped h' c members)
      (credentialToDict c : Script L _) h l := by
  unfold credentialToDict
  apply returns_askLibExcept hask
  intro body
  exact Body.Returns.pure ⟨body, told_last _ _ _, rfl⟩

/-! ### One request -/

/-- A challenge that a process was issued for a context. -/
def Challenged (ctrl : TrustedController) (h : LabHistory) (credentialId : Text)
    (arguments : InventoryArguments) (recordId token : Text) : Prop :=
  ∃ t challenge, (⟨.submit (.issueResourceChallenge ctrl.number credentialId arguments recordId),
      t⟩ : Event LabOp LabOp.Reply) ∈ h ∧
    (⟨.wait t, .ok (.challenge challenge)⟩ : Event LabOp LabOp.Reply) ∈ h ∧ token = challenge.token

/-- What a prepared request carries of its grant, its case and its policy. -/
structure Requested (D : Deployment) (ctrl : TrustedController) (h : LabHistory)
    (g : CapabilityGrant) (spec : CaseSpecFields) (count index : Nat) (request : WorkerRequest) :
    Prop where
  caseId : request.caseId = spec.caseId
  variant : request.variant = spec.variant
  runId : request.runId.val = requestName count index spec.caseId.val
  recordId : request.recordId.val = requestName count index spec.recordId.val
  sku : request.arguments.sku = spec.sku
  audience : request.audience.val = (ctrl.inventory D).policy.audience
  qualifiedScope : request.qualifiedScope.val = (ctrl.inventory D).policy.qualifiedScope
  workerImage : request.workerImage.val = ctrl.workerImage
  workerCodeDigest : request.workerCodeDigest.val = ctrl.workerCodeDigest
  credential : Dumped h g.credential request.credential
  challenge : Challenged ctrl h g.credential.credentialId ⟨spec.sku.toBounded⟩ request.recordId.val
    request.challenge.val

/-- A longer history keeps a prepared request. -/
theorem Requested.mono {spec : CaseSpecFields} {count index : Nat} {request : WorkerRequest}
    (hr : Requested D ctrl h g spec count index request) (hs : h <+: h') :
    Requested D ctrl h' g spec count index request := by
  obtain ⟨t, challenge, hsubmit, hwait, htoken⟩ := hr.challenge
  exact { hr with
    credential := hr.credential.mono hs
    challenge := ⟨t, challenge, hs.subset hsubmit, hs.subset hwait, htoken⟩ }

/-- A challenge is the answer it was read from. -/
theorem challengeOf_eq_ok {a : Except Exn Answer} {c : ResourceChallenge}
    (hc : challengeOf a = .ok c) : a = .ok (.challenge c) := by
  unfold challengeOf at hc
  split at hc
  · cases hc
    rfl
  · cases hc
  · cases hc

/-- What preparation guarantees: it starts nothing but resource challenges. -/
def PreparePledge (ctrl : TrustedController) (_ : LabHistory) : LabOp → Prop
  | .submit c => ∃ credentialId arguments recordId,
      c = .issueResourceChallenge ctrl.number credentialId arguments recordId
  | _ => True

/-- One turn of the loop of `prepare_case`. -/
theorem prepareRequest_returns {spec : CaseSpecFields} {count index : Nat} :
    Body.Returns A (PreparePledge ctrl) (fun h' r ↦ Requested D ctrl h' g spec count index r)
      (ctrl.prepareRequest D g spec count index : Script L _) h l := by
  have hask : Asking (PreparePledge ctrl) := fun _ _ ↦ trivial
  unfold prepareRequest
  apply Body.Returns.perform ⟨_, _, _, rfl⟩
  intro t _
  apply Body.Returns.invoke trivial
  intro r challenge _ hchallenge
  obtain rfl := challengeOf_eq_ok hchallenge
  apply Body.Returns.bind (credentialToDict_returns hask _)
  intro h₁ members _ hs₁ hdumped
  apply returns_compute
  intro runId hrunId
  apply returns_compute
  intro token htoken
  apply returns_compute
  intro audience haudience
  apply returns_compute
  intro qualifiedScope hscope
  apply returns_compute
  intro recordId hrecordId
  apply returns_compute
  intro workerImage himage
  apply returns_compute
  intro workerCodeDigest hcode
  rw [checked_eq_ok] at hrunId htoken haudience hscope hrecordId himage hcode
  exact Body.Returns.pure {
    caseId := rfl
    variant := rfl
    runId := hrunId
    recordId := hrecordId
    sku := rfl
    audience := haudience
    qualifiedScope := hscope
    workerImage := himage
    workerCodeDigest := hcode
    credential := hdumped
    challenge := ⟨t, challenge, hs₁.subset (by simp [hrecordId]), hs₁.subset (by simp), htoken⟩ }

/-- The loop of `prepare_case`. -/
theorem prepareRequests_returns {spec : CaseSpecFields} {count : Nat} (indices : List Nat) :
    Body.Returns A (PreparePledge ctrl) (fun h' requests ↦
        List.Forall₂ (Requested D ctrl h' g spec count) indices requests)
      (ctrl.prepareRequests D g spec count indices : Script L _) h l := by
  induction indices generalizing h l with
  | nil => exact Body.Returns.pure .nil
  | cons index indices ih =>
    apply Body.Returns.bind prepareRequest_returns
    intro h₁ request _ _ hone
    apply Body.Returns.bind ih
    intro h₂ requests _ hs hrest
    exact Body.Returns.pure (.cons (hone.mono hs) hrest)

/-! ### The cases -/

/-- What a prepared case carries of the grant and the specification it was made from. -/
structure Prepares (D : Deployment) (ctrl : TrustedController) (h : LabHistory)
    (input : CapabilityGrant × CaseSpec) (k : PreparedCase) : Prop where
  spec : k.val.spec = input.2
  granted : ctrl.verifyGrant D input.1 = .ok ()
  requests : List.Forall₂
    (Requested D ctrl h input.1 input.2.val input.2.val.requestCount.toNat)
    (List.range input.2.val.requestCount.toNat) k.val.requests
  grant : ∃ members, Dumped h input.1.credential members ∧
    input.1.wire members = .ok k.val.grant

/-- A longer history keeps a prepared case. -/
theorem Prepares.mono {input : CapabilityGrant × CaseSpec} {k : PreparedCase}
    (hp : Prepares D ctrl h input k) (hs : h <+: h') : Prepares D ctrl h' input k := by
  obtain ⟨members, hdumped, hwire⟩ := hp.grant
  exact { hp with
    requests := hp.requests.imp fun _ _ hone ↦ hone.mono hs
    grant := ⟨members, hdumped.mono hs, hwire⟩ }

/-- `prepare_case` returns the case of its grant. -/
theorem prepareCase_returns {spec : CaseSpec} {l : List RunId} :
    Body.Returns A (PreparePledge ctrl) (fun h' k ↦ Prepares D ctrl h' (g, spec) k)
      (ctrl.prepareCase D g spec) h l := by
  have hask : Asking (PreparePledge ctrl) := fun _ _ ↦ trivial
  unfold prepareCase reserveCaseId ask CapabilityGrant.toWire
  apply Body.Returns.bind (P := fun _ _ ↦ True)
  · apply Body.Returns.locals
    apply Body.Returns.raiseIf
    intro _
    exact fun _ _ ↦ trivial
  intro h₀ _ _ _ _
  apply Body.Returns.ofExcept
  intro _ hgranted
  apply Body.Returns.bind (prepareRequests_returns (D := D) (g := g) _)
  intro h₁ requests _ _ hrequests
  apply Body.Returns.bind (P := fun h' grant ↦ ∃ members, Dumped h' g.credential members ∧
    g.wire members = .ok grant)
  · apply Body.Returns.bind (credentialToDict_returns hask _)
    intro h₂ members _ _ hdumped
    apply returns_compute_last
    intro grant hgrant
    exact ⟨members, hdumped, hgrant⟩
  intro h₂ grant _ hs₂ hgrant
  obtain ⟨members, hdumped, hwire⟩ := hgrant
  apply Body.Returns.perform (hask _ _)
  intro counted _
  have hs₃ : h₂ <+: h₂ ++ [⟨.ask (.invocationCount ctrl.number), counted⟩] :=
    List.prefix_append _ _
  apply returns_compute
  intro before _
  apply returns_compute_last
  intro k hk
  have hval := construct_eq_ok hk
  exact {
    spec := by rw [hval]
    granted := hgranted
    requests := by
      rw [hval]
      exact hrequests.imp fun _ _ hone ↦ hone.mono (hs₂.trans hs₃)
    grant := ⟨members, hdumped.mono hs₃, by rw [hval]; exact hwire⟩ }

/-- The loop of `prepare_capability_cases`. -/
theorem prepareCases_returns (inputs : List (CapabilityGrant × CaseSpec)) {l : List RunId} :
    Body.Returns A (PreparePledge ctrl) (fun h' cases ↦
        List.Forall₂ (Prepares D ctrl h') inputs cases)
      (prepareCases D ctrl inputs) h l := by
  induction inputs generalizing h l with
  | nil => exact Body.Returns.pure .nil
  | cons input inputs ih =>
    apply Body.Returns.bind (prepareCase_returns (g := input.1))
    intro h₁ k _ _ hone
    apply Body.Returns.bind ih
    intro h₂ cases _ hs hrest
    exact Body.Returns.pure (.cons (hone.mono hs) hrest)

/-- `prepare_capability_cases` returns one case for each grant. -/
theorem prepareCapabilityCases_returns {grants : List CapabilityGrant} {specs : List CaseSpec}
    {holder : Ed25519PrivateKey} {l : List RunId} :
    Body.Returns A (PreparePledge ctrl) (fun h' r ↦ grants.length = specs.length ∧
        List.Forall₂ (Prepares D ctrl h') (grants.zip specs) r.1)
      (prepareCapabilityCases D ctrl grants specs holder) h l := by
  unfold prepareCapabilityCases
  apply Body.Returns.raiseIf
  intro hlength
  rw [not_not] at hlength
  apply Body.Returns.raiseIf
  intro _
  apply Body.Returns.bind (prepareCases_returns _)
  intro h₁ cases _ _ hcases
  apply returns_compute
  intro payload _
  exact Body.Returns.pure ⟨hlength, hcases⟩

/-! ### The case matrix -/

/-- A prepared case has as many requests as its specification says. -/
theorem PreparedCase.length_requests (k : PreparedCase) :
    (k.val.requests.length : Int) = k.val.spec.val.requestCount := by
  have hk := k.property
  simp only [PreparedCaseFields.check, bind_eq_ok, raiseIf_eq_ok, not_not] at hk
  obtain ⟨_, -, _, hcount, -⟩ := hk
  exact hcount

/-- The requests of several cases are counted case by case. -/
theorem length_preparedRequests (cases : List PreparedCase) :
    ((preparedRequests cases).length : Int) =
      (cases.map fun k ↦ k.val.spec.val.requestCount).sum := by
  induction cases with
  | nil => rfl
  | cons k cases ih =>
    rw [preparedRequests] at ih ⊢
    rw [List.flatMap_cons, List.length_append, List.map_cons, List.sum_cons, Nat.cast_add, ih,
      k.length_requests]

/-- The specification of a case has the variant and the concurrency that were asked for. -/
theorem caseSpec_eq_ok {variant : Variant} {concurrency : Int} {spec : CaseSpec}
    (h : caseSpec variant concurrency = .ok spec) :
    spec.val.variant = variant ∧ spec.val.concurrency.val = concurrency := by
  simp only [caseSpec, bind_eq_ok, checked_eq_ok] at h
  obtain ⟨_, -, _, -, _, -, _, hconcurrency, hspec⟩ := h
  rw [construct_eq_ok hspec]
  exact ⟨rfl, hconcurrency⟩

/-- The number of requests of the case of a variant. -/
def requestsOf (concurrency : Int) (variant : Variant) : Int :=
  if variant = .concurrent then concurrency else 1

/-- `_case_specs` specifies one case for each variant, with its number of requests. -/
theorem caseSpecs_eq_ok {concurrency : Int} {specs : List CaseSpec}
    (h : caseSpecs concurrency = .ok specs) :
    specs.map (fun spec ↦ spec.val.variant) = Variant.all ∧
    specs.map (fun spec ↦ spec.val.requestCount) = Variant.all.map (requestsOf concurrency) := by
  rw [caseSpecs] at h
  generalize Variant.all = variants at h ⊢
  induction variants generalizing specs with
  | nil =>
    cases h
    exact ⟨rfl, rfl⟩
  | cons variant variants ih =>
    simp only [List.mapM_cons, bind_eq_ok, pure, Except.pure, Except.ok.injEq] at h
    obtain ⟨spec, hspec, rest, hrest, rfl⟩ := h
    obtain ⟨hvariants, hcounts⟩ := ih hrest
    obtain ⟨hvariant, hconcurrency⟩ := caseSpec_eq_ok hspec
    have hcount : spec.val.requestCount = requestsOf concurrency variant := by
      rw [CaseSpecFields.requestCount, requestsOf, hvariant, hconcurrency]
      split
      · rfl
      · rfl
    exact ⟨by rw [List.map_cons, hvariant, hvariants],
      by rw [List.map_cons, List.map_cons, hcount, hcounts]⟩

/-- The cases of a preparation have the specifications that it was given. -/
theorem map_spec_of_prepares {grants : List CapabilityGrant} {specs : List CaseSpec}
    {cases : List PreparedCase} (hlength : grants.length = specs.length)
    (hp : List.Forall₂ (Prepares D ctrl h) (grants.zip specs) cases) :
    cases.map (fun k ↦ k.val.spec) = specs := by
  rw [← List.map_snd_zip hlength.ge]
  symm
  rw [← List.forall₂_eq_eq_eq, List.forall₂_map_left_iff, List.forall₂_map_right_iff]
  exact hp.imp fun _ _ hone ↦ hone.spec.symm

end Atcap.Lab
