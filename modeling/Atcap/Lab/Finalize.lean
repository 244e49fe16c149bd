import Atcap.Lab.Observation

/-!
# What `finalize` does

The program logic of `finalize`: before the first redemption its process has read the prepared
state and the envelope, and every case of the state was validated against the responses of the
envelope; what it returns was signed over the observations of all cases, verified and written.
-/

namespace Atcap.Lab

open Base TrustedController

variable {L : Type} {A : LabHistory → Event LabOp LabOp.Reply → Prop}
  {G : LabHistory → LabOp → Prop} {h h' : LabHistory} {l : L} {D : Deployment} {keys : OkpKeys}
  {i : Nat} {a : FinalizeArgs} {state : TrustedLabState} {envelope : RunpodJobEnvelope}
  {ctrl : TrustedController}

/-! ### The inputs -/

/-- Bytes that a process read from a file. -/
def ReadFrom (h : LabHistory) (path : Text) (raw : Bytes) : Prop :=
  (⟨.ask (.readBytes path), .ok raw⟩ : Event LabOp LabOp.Reply) ∈ h

/-- Checking a directory only asks. -/
theorem requirePrivateDirectory_returns (hask : Asking G) (path : Text) :
    Body.Returns A G (fun _ _ ↦ True) (requirePrivateDirectory path : Script L Unit) h l := by
  unfold requirePrivateDirectory
  apply Body.Returns.invoke (hask _ _)
  intro _ _ _ _
  apply Body.Returns.raiseIf
  intro _
  apply Body.Returns.invoke (hask _ _)
  intro _ _ _ _
  exact Body.Returns.check fun _ ↦ trivial

/-- Looking for earlier evidence only asks. -/
theorem requireAbsent_returns (hask : Asking G) (paths : List Text) :
    Body.Returns A G (fun _ _ ↦ True) (requireAbsent paths : Script L Unit) h l := by
  induction paths generalizing h l with
  | nil => exact Body.Returns.pure trivial
  | cons path paths ih =>
    apply Body.Returns.invoke (hask _ _)
    intro _ _ _ _
    apply Body.Returns.raiseIf
    intro _
    exact ih

/-- `_read_canonical_state` returns the state that the file spells. -/
theorem readCanonicalState_returns (hask : Asking G) (path : Text) :
    Body.Returns A G (fun h' state ↦
        ∃ raw, ReadFrom h' path raw ∧ parseState D.lib raw = .ok state)
      (readCanonicalState D.lib path : Script L _) h l := by
  unfold readCanonicalState
  apply Body.Returns.invoke (hask _ _)
  intro _ _ _ _
  apply Body.Returns.raiseIf
  intro _
  apply Body.Returns.invoke (hask _ _)
  intro r raw _ hr
  obtain rfl : r = .ok raw := mapError_eq_ok.mp hr
  apply Body.Returns.compute
  intro state hstate
  exact ⟨raw, List.mem_append_right _ (List.mem_singleton_self _), mapError_eq_ok.mp hstate⟩

/-- The envelope is what the response file spells. -/
theorem readEnvelope_returns (hask : Asking G) (path : Text) :
    Body.Returns A G (fun h' envelope ↦
        ∃ raw, ReadFrom h' path raw ∧ parseEnvelope D.lib raw = .ok envelope)
      (readEnvelope D.lib path : Script L _) h l := by
  unfold readEnvelope
  apply Body.Returns.invoke (hask _ _)
  intro _ _ _ _
  apply Body.Returns.raiseIf
  intro _
  apply Body.Returns.invoke (hask _ _)
  intro r raw _ hr
  obtain rfl : r = .ok raw := mapError_eq_ok.mp hr
  apply Body.Returns.compute
  intro envelope henvelope
  exact ⟨raw, List.mem_append_right _ (List.mem_singleton_self _), mapError_eq_ok.mp henvelope⟩

/-- The controller of a `finalize`, and the inventory its process serves. -/
structure Opened (keys : OkpKeys) (i : Nat) (h : LabHistory) (state : TrustedLabStateFields)
    (ctrl : TrustedController) : Prop where
  number : ctrl.number = i
  served : ∃ key app, keys.importKey (.dict state.inventoryReceiptPrivateJwk) = .ok key ∧
    inventoryOf state ⟨key, state.inventoryReceiptKeyId⟩ = .ok app ∧
    (⟨.ask (.serve i app), ()⟩ : Event LabOp LabOp.Reply) ∈ h
  workerKey : ctrl.expectedWorkerPublicKey = state.expectedWorkerPublicKey.val
  workerKeyBytes : bytesFromHex state.expectedWorkerPublicKey.val = .ok ctrl.workerPublicKey
  workerImage : ctrl.workerImage = state.workerImage.val
  workerCodeDigest : ctrl.workerCodeDigest = state.workerCodeDigest.val
  signerKeyId : ctrl.experimentSigner.keyId = state.experimentKeyId
  signerKey : keys.importKey (.dict state.experimentPrivateJwk) =
    .ok ctrl.experimentSigner.privateKey
  signerJwk : ctrl.experimentSigner.publicJwk = keys.publicJwk (.dict state.experimentPrivateJwk)

/-- A longer history keeps an opened controller. -/
theorem Opened.mono {state : TrustedLabStateFields} (ho : Opened keys i h state ctrl)
    (hs : h <+: h') : Opened keys i h' state ctrl := by
  obtain ⟨key, app, hkey, happ, hserved⟩ := ho.served
  exact { ho with served := ⟨key, app, hkey, happ, hs.subset hserved⟩ }

/-- The controller that a `finalize` works with. -/
theorem openController_returns (hask : Asking G) (state : TrustedLabStateFields) :
    Body.Returns A G (fun h' ctrl ↦ Opened keys i h' state ctrl)
      (openController D keys i a state : Script L _) h l := by
  unfold openController TrustedController.init ask
  apply Body.Returns.invoke (hask _ _)
  intro _ _ _ _
  apply returns_compute
  intro inventoryKey hinventory
  apply returns_compute
  intro brokerKey _
  apply returns_compute
  intro experimentKey hexperiment
  apply returns_compute
  intro app happ
  apply Body.Returns.perform (hask _ _)
  intro _ _
  apply Body.Returns.ofExcept
  intro raw hraw
  apply returns_askLibExcept hask
  intro _
  exact Body.Returns.pure {
    number := rfl
    served := ⟨inventoryKey, app, hinventory, happ, by simp⟩
    workerKey := rfl
    workerKeyBytes := mapError_eq_ok.mp hraw
    workerImage := rfl
    workerCodeDigest := rfl
    signerKeyId := rfl
    signerKey := hexperiment
    signerJwk := rfl }

/-- What a `finalize` has in hand when it redeems: the state and the envelope that it read, its
controller, and a bundle with exactly the prepared run ids. -/
structure Loaded (D : Deployment) (keys : OkpKeys) (i : Nat) (a : FinalizeArgs) (h : LabHistory)
    (state : TrustedLabState) (envelope : RunpodJobEnvelope) (ctrl : TrustedController) :
    Prop where
  stateRead : ∃ raw, ReadFrom h a.statePath raw ∧ parseState D.lib raw = .ok state
  envelopeRead : ∃ raw, ReadFrom h a.workerResponsePath raw ∧
    parseEnvelope D.lib raw = .ok envelope
  opened : Opened keys i h state.val ctrl
  runIds : (envelope.output.responses.map WorkerResponse.runId).toFinset =
    ((preparedRequests state.val.preparedCases).map WorkerRequest.runId).toFinset

/-- A longer history keeps what a `finalize` has in hand. -/
theorem Loaded.mono (hl : Loaded D keys i a h state envelope ctrl) (hs : h <+: h') :
    Loaded D keys i a h' state envelope ctrl := by
  obtain ⟨raw, hread, hparse⟩ := hl.stateRead
  obtain ⟨raw', hread', hparse'⟩ := hl.envelopeRead
  exact ⟨⟨raw, hs.subset hread, hparse⟩, ⟨raw', hs.subset hread', hparse'⟩, hl.opened.mono hs,
    hl.runIds⟩

/-- The inputs of `finalize_cases` in a `finalize`. -/
def bundleInputs (state : TrustedLabState) (envelope : RunpodJobEnvelope) :
    List (PreparedCase × List WorkerResponse) :=
  caseInputs state.val.preparedCases envelope.output.responses

/-! ### The evidence -/

/-- Bytes that a process wrote to a new file. -/
def Wrote (h : LabHistory) (path : Text) (contents : Bytes) : Prop :=
  (⟨.ask (.writeNewFile path contents 0o644), .ok ()⟩ : Event LabOp LabOp.Reply) ∈ h

/-- The evidence of a signed record: it verified, and the three files are written. -/
structure Published (D : Deployment) (keys : OkpKeys) (a : FinalizeArgs) (h : LabHistory)
    (signer : PublishedSigner) (payload : ExperimentRecordPayload)
    (signed : SignedExperimentRecord) : Prop where
  verified : ∃ key verified, keys.importKey signer.publicJwk = .ok key ∧
    (⟨key, signer.keyId⟩ : ExperimentRecordVerifier).verify D.lib keys.importKey signed =
      .ok verified
  jws : ∃ jws, encodeAscii signed.compactJws.val = .ok jws ∧ Wrote h a.jwsPath (jws ++ [10])
  record : ∃ record, canonicalJson D.lib payload.val.modelDump = .ok record ∧
    Wrote h a.recordPath record
  verifier : ∃ document published, publicVerifier signer = .ok document ∧
    canonicalJson D.lib document.val.modelDump = .ok published ∧ Wrote h a.verifierPath published

/-- The end of `finalize` returns once the evidence is published. -/
theorem publishEvidence_returns (hask : Asking G) {signer : PublishedSigner}
    {payload : ExperimentRecordPayload} {signed : SignedExperimentRecord} :
    Body.Returns A G (fun h' _ ↦ Published D keys a h' signer payload signed)
      (publishEvidence D keys a signer payload signed : Script L Unit) h l := by
  unfold publishEvidence
  apply returns_compute
  intro key hkey
  apply returns_compute
  intro verified hverified
  apply returns_compute
  intro document hdocument
  apply returns_compute
  intro jws hjws
  apply Body.Returns.invoke (hask _ _)
  intro r₁ _ _ hr₁
  obtain rfl : r₁ = .ok () := mapError_eq_ok.mp hr₁
  apply returns_compute
  intro record hrecord
  apply Body.Returns.invoke (hask _ _)
  intro r₂ _ _ hr₂
  obtain rfl : r₂ = .ok () := mapError_eq_ok.mp hr₂
  apply returns_compute
  intro published hpublished
  apply Body.Returns.invoke (hask _ _)
  intro r₃ _ _ hr₃
  obtain rfl : r₃ = .ok () := mapError_eq_ok.mp hr₃
  apply Body.Returns.last (hask _ _)
  intro _ _ _ _
  exact {
    verified := ⟨key, verified, hkey, hverified⟩
    jws := ⟨jws, hjws, by simp [Wrote]⟩
    record := ⟨record, hrecord, by simp [Wrote]⟩
    verifier := ⟨document, published, hdocument, hpublished, by simp [Wrote]⟩ }

/-! ### `finalize` -/

/-- What `finalize` guarantees of every redemption: what it has in hand, and the pledge of
`finalize_cases`. -/
def FinalizePledge (D : Deployment) (keys : OkpKeys) (i : Nat) (a : FinalizeArgs)
    (h : LabHistory) : LabOp → Prop
  | .submit c => ∃ state envelope ctrl, Loaded D keys i a h state envelope ctrl ∧
      Pledge D ctrl (bundleInputs state envelope) h (.submit c)
  | _ => True

/-- What a `finalize` that returned a record has done. -/
structure Concluded (D : Deployment) (keys : OkpKeys) (i : Nat) (a : FinalizeArgs)
    (h : LabHistory) (signed : SignedExperimentRecord) (state : TrustedLabState)
    (envelope : RunpodJobEnvelope) (ctrl : TrustedController) (validated : List ValidatedCase)
    (payload : ExperimentRecordPayload) : Prop where
  loaded : Loaded D keys i a h state envelope ctrl
  validates : List.Forall₂ (Validates D ctrl h) (bundleInputs state envelope) validated
  finalized : List.Forall₂ (Finalized D ctrl h) validated payload.val.cases
  signature : ctrl.experimentSigner.sign D.lib payload = .ok signed
  published : Published D keys a h ctrl.experimentSigner payload signed

/-- The cases of a record are those it was made from. -/
theorem recordPayload_cases {header : RecordHeader} {observation : UntrustedRunpodObservation}
    {cases : List CaseObservation} {now : Int} {payload : ExperimentRecordPayload}
    (hp : ctrl.recordPayload header observation cases now = .ok payload) :
    payload.val.cases = cases := by
  simp only [recordPayload, bind_eq_ok] at hp
  obtain ⟨_, -, _, -, _, -, _, -, _, -, _, -, _, -, _, -, _, -, _, -, _, -, _, -, hp⟩ := hp
  rw [construct_eq_ok hp]

/-- `finalize` keeps its pledge, and returns a record only after everything it stands for. -/
theorem finalize_returns :
    Body.Returns A (FinalizePledge D keys i a) (fun h' signed ↦ ∃ state envelope ctrl validated
        payload, Concluded D keys i a h' signed state envelope ctrl validated payload)
      (finalize D keys i a : Script L _) h l := by
  have hask : Asking (FinalizePledge D keys i a) := fun _ _ ↦ trivial
  unfold finalize
  apply Body.Returns.bind (requirePrivateDirectory_returns hask _)
  intro _ _ _ _ _
  apply Body.Returns.bind (requirePrivateDirectory_returns hask _)
  intro _ _ _ _ _
  apply Body.Returns.bind (requireAbsent_returns hask _)
  intro _ _ _ _ _
  apply Body.Returns.bind (readCanonicalState_returns (D := D) hask _)
  rintro h₁ state _ _ ⟨raw, hread, hparse⟩
  apply Body.Returns.raiseIf
  intro _
  apply Body.Returns.bind (readEnvelope_returns (D := D) hask _)
  rintro h₂ envelope _ hs₂ ⟨raw', hread', hparse'⟩
  unfold finalizeRead
  apply Body.Returns.bind (P := fun h ctrl ↦ Opened keys i h state.val ctrl)
    (openController_returns hask _)
  intro h₃ ctrl _ hs₃ hopened
  apply Body.Returns.raiseIf
  intro hruns
  rw [not_not] at hruns
  apply returns_compute
  intro observation _
  apply returns_compute
  intro _ _
  have hloaded : Loaded D keys i a h₃ state envelope ctrl :=
    ⟨⟨raw, (hs₂.trans hs₃).subset hread, hparse⟩, ⟨raw', hs₃.subset hread', hparse'⟩, hopened,
      hruns⟩
  have hpledge : ∀ h' e, h₃ <+: h' ∧ Pledge D ctrl (bundleInputs state envelope) h' e →
      FinalizePledge D keys i a h' e := by
    intro h' e he
    cases e with
    | submit c => exact ⟨state, envelope, ctrl, hloaded.mono he.1, he.2⟩
    | wait | await | ask => trivial
  apply Body.Returns.bind
    ((finalizeCases_returns (bundleInputs state envelope)).within.weaken hpledge)
  rintro h₄ cases _ hs₄ ⟨validated, hvalidates, hfinalized⟩
  unfold signRecord
  apply Body.Returns.bind (P := fun h' r ↦ h₄ <+: h' ∧ r.1.val.cases = cases ∧
    ctrl.experimentSigner.sign D.lib r.1 = .ok r.2)
  · apply Body.Returns.invoke (hask _ _)
    intro _ now _ _
    apply returns_compute
    intro payload hpayload
    apply returns_compute
    intro signed hsigned
    exact Body.Returns.pure ⟨List.prefix_append _ _, recordPayload_cases hpayload, hsigned⟩
  rintro h₅ ⟨payload, signed⟩ _ _ ⟨hs₅, hpayload, hsigned⟩
  apply Body.Returns.bind (P := fun h _ ↦ Published D keys a h ctrl.experimentSigner payload signed)
    (publishEvidence_returns hask)
  intro h₆ _ _ hs₆ hpublished
  have hs := hs₅.trans hs₆
  refine Body.Returns.pure ⟨state, envelope, ctrl, validated, payload, ?_⟩
  exact {
    loaded := hloaded.mono (hs₄.trans hs)
    validates := validates_mono hvalidates hs
    finalized := by
      rw [hpayload]
      exact hfinalized.imp fun _ _ hone ↦ hone.mono hs
    signature := hsigned
    published := hpublished }

end Atcap.Lab
