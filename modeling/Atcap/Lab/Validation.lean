import Atcap.Base.Returning
import Atcap.Lab.LiveCli

/-!
# What validation establishes

`_validate_case_inputs` and the functions it calls only ask. What they return is vetted: every
response answers its own request, is signed by the expected worker key, and its proof was appraised
as its variant prescribes. The evidence is what the process was answered.
-/

namespace Atcap.Lab

open Base

variable {L : Type} {A : LabHistory → Event LabOp LabOp.Reply → Prop}
  {G : LabHistory → LabOp → Prop} {h : LabHistory} {l : L}

/-- A guarantee under which a process may ask. -/
def Asking (G : LabHistory → LabOp → Prop) : Prop := ∀ h q, G h (.ask q)

/-! ### Rules for scripts -/

section Rules

variable {α β : Type} {P : LabHistory → α → Prop} {Q : LabHistory → β → Prop}

/-- A pure computation of the services, then the rest. -/
theorem returns_compute {x : Except Exn α} {g : α → Script L β}
    (hg : ∀ a, x = .ok a → Body.Returns A G Q (g a) h l) :
    Body.Returns A G Q (compute x >>= g) h l := by
  apply Body.Returns.ofExcept
  intro a ha
  exact hg a (mapError_eq_ok.mp ha)

/-- A last pure computation of the services. -/
theorem returns_compute_last {x : Except Exn α} (hx : ∀ a, x = .ok a → P h a) :
    Body.Returns A G P (compute x : Script L α) h l := by
  apply Body.Returns.compute
  intro a ha
  exact hx a (mapError_eq_ok.mp ha)

/-- A library call, then the rest. -/
theorem returns_askLibExcept {c : LibCall} {translate : Exn → LabExn} {g : c.Result → Script L β}
    (hask : Asking G)
    (hg : ∀ a, Body.Returns A G Q (g a) (h ++ [⟨.ask (.lib c), .ok a⟩]) l) :
    Body.Returns A G Q (askLibExcept c translate >>= g) h l := by
  apply Body.Returns.invoke (hask _ _)
  intro r a _ hr
  obtain rfl : r = .ok a := mapError_eq_ok.mp hr
  exact hg a

/-- A last library call. -/
theorem returns_askLibExcept_last {c : LibCall} {translate : Exn → LabExn}
    {P : LabHistory → c.Result → Prop} (hask : Asking G)
    (hp : ∀ a, P (h ++ [⟨.ask (.lib c), .ok a⟩]) a) :
    Body.Returns A G P (askLibExcept c translate : Script L c.Result) h l := by
  apply Body.Returns.last (hask _ _)
  intro r a _ hr
  obtain rfl : r = .ok a := mapError_eq_ok.mp hr
  exact hp a

end Rules

/-- A checked value is the value it was given. -/
theorem checked_eq_ok {α : Type} {p : α → Bool} {a : α} {b : { a : α // p a = true }} :
    checked p a = .ok b ↔ b.val = a := by
  unfold checked
  split
  · next hp =>
    rw [Except.ok.injEq, Subtype.ext_iff]
    exact eq_comm
  · next hp =>
    constructor
    · intro hb
      cases hb
    · intro hb
      rw [← hb] at hp
      exact absurd b.property hp

/-! ### The proof of a response -/

/-- The answer of a library to a process. -/
def Told (h : LabHistory) (c : LibCall) (r : Except Exn c.Result) : Prop :=
  (⟨.ask (.lib c), r⟩ : Event LabOp LabOp.Reply) ∈ h

/-- A longer history keeps the answers. -/
theorem Told.mono {h' : LabHistory} {c : LibCall} {r : Except Exn c.Result} (ht : Told h c r)
    (hs : h <+: h') : Told h' c r := hs.subset ht

/-- The last answer. -/
theorem told_last (h : LabHistory) (c : LibCall) (r : Except Exn c.Result) :
    Told (h ++ [⟨.ask (.lib c), r⟩]) c r := List.mem_append_right _ (List.mem_singleton_self _)

/-- One more event keeps the answers. -/
theorem Told.snoc {c : LibCall} {r : Except Exn c.Result} (ht : Told h c r)
    (ev : Event LabOp LabOp.Reply) : Told (h ++ [ev]) c r := ht.mono (List.prefix_append _ _)

variable {D : Deployment} {ctrl : TrustedController}

/-- A context in which the proof of a response is appraised. -/
structure ProofContext where
  request : WorkerRequest
  response : WorkerResponse
  credential : Credential
  recordId : Text
  arguments : Value

namespace ProofContext

/-- The prepared context of a request. -/
def original (request : WorkerRequest) (response : WorkerResponse) (credential : Credential) :
    ProofContext :=
  ⟨request, response, credential, request.recordId.val, request.arguments.modelDump⟩

variable (D ctrl) (x : ProofContext)

/-- The check a parsed proof is put to. -/
def check (proof : HolderProof) (sealedPayload : Bytes) : HolderProofCheck :=
  ctrl.proofCheck D x.request x.credential x.recordId proof sealedPayload

/-- The answers show a proof that verifies. -/
def Accepted (h : LabHistory) : Prop :=
  ∃ proof data, Told h (.holderProofFromDict x.response.holderProof.modelDump) (.ok proof) ∧
    canonicalJson D.lib x.arguments = .ok data ∧
    Told h (.verifyHolderProof (x.check D ctrl proof data)) (.ok ())

/-- The answers show a proof that does not parse or does not verify; an exception that says neither
is no refusal. -/
def Refused (h : LabHistory) : Prop :=
  (∃ e, Told h (.holderProofFromDict x.response.holderProof.modelDump) (.error e) ∧
      TrustedController.refusesProof (.raised e) = true) ∨
    ∃ proof, Told h (.holderProofFromDict x.response.holderProof.modelDump) (.ok proof) ∧
      ∀ data, canonicalJson D.lib x.arguments = .ok data →
        ∃ e, Told h (.verifyHolderProof (x.check D ctrl proof data)) (.error e) ∧
          TrustedController.refusesProof (.raised e) = true

variable {D ctrl} {x : ProofContext}

/-- A longer history keeps an accepted proof. -/
theorem Accepted.mono {h' : LabHistory} (ha : x.Accepted D ctrl h) (hs : h <+: h') :
    x.Accepted D ctrl h' := by
  obtain ⟨proof, data, hparse, hdata, hverify⟩ := ha
  exact ⟨proof, data, hparse.mono hs, hdata, hverify.mono hs⟩

/-- A longer history keeps a refused proof. -/
theorem Refused.mono {h' : LabHistory} (hr : x.Refused D ctrl h) (hs : h <+: h') :
    x.Refused D ctrl h' := by
  rcases hr with ⟨e, he, hrefuses⟩ | ⟨proof, hparse, hverify⟩
  · exact .inl ⟨e, he.mono hs, hrefuses⟩
  · refine .inr ⟨proof, hparse.mono hs, fun data hdata ↦ ?_⟩
    obtain ⟨e, he, hrefuses⟩ := hverify data hdata
    exact ⟨e, he.mono hs, hrefuses⟩

/-- The answers show whether the proof verifies. -/
def Appraised (D : Deployment) (ctrl : TrustedController) (x : ProofContext) (verifies : Bool)
    (h : LabHistory) : Prop :=
  match verifies with
  | true => x.Accepted D ctrl h
  | false => x.Refused D ctrl h

/-- A longer history keeps an appraisal. -/
theorem Appraised.mono {verifies : Bool} {h' : LabHistory} (ha : x.Appraised D ctrl verifies h)
    (hs : h <+: h') : x.Appraised D ctrl verifies h' := by
  cases verifies with
  | true => exact Accepted.mono ha hs
  | false => exact Refused.mono ha hs

end ProofContext

namespace TrustedController

/-- However the `try` block of `_proof_verifies` ends, the answers show it. -/
theorem appraiseProof_sat (x : ProofContext) (hask : Asking G) :
    Body.Sat A G (fun h' r _ ↦ match r with
        | .ok _ => x.Accepted D ctrl h'
        | .error e => refusesProof e = true → x.Refused D ctrl h')
      (ctrl.appraiseProof D x.request x.response x.credential x.recordId x.arguments) h () := by
  unfold appraiseProof askLib askLibExcept compute
  apply Body.Sat.invoke (hask _ _)
  · intro r e _ hr
    obtain ⟨e', rfl, rfl⟩ := mapError_eq_error.mp hr
    intro hrefuses
    exact .inl ⟨e', told_last _ _ _, hrefuses⟩
  intro r proof _ hr
  obtain rfl : r = .ok proof := mapError_eq_ok.mp hr
  apply Body.Sat.ofExcept
  · intro e he
    obtain ⟨e', hdata, -⟩ := mapError_eq_error.mp he
    intro _
    refine .inr ⟨proof, told_last _ _ _, fun data hok ↦ ?_⟩
    rw [hdata] at hok
    cases hok
  intro data hdata
  rw [mapError_eq_ok] at hdata
  rw [Body.sat_invoke]
  refine ⟨hask _ _, fun r _ ↦ ?_⟩
  cases r with
  | ok u => exact ⟨proof, data, (told_last _ _ _).snoc _, hdata, told_last _ _ _⟩
  | error e =>
    intro hrefuses
    refine .inr ⟨proof, (told_last _ _ _).snoc _, fun data' hdata' ↦ ⟨e, ?_, hrefuses⟩⟩
    obtain rfl := Except.ok.inj (hdata.symm.trans hdata')
    exact told_last _ _ _

/-- What `_proof_verifies` returns is what the answers show. -/
theorem proofVerifies_returns (x : ProofContext) (hask : Asking G) :
    Body.Returns A G (fun h' verifies ↦ x.Appraised D ctrl verifies h')
      (ctrl.proofVerifies D x.request x.response x.credential x.recordId x.arguments) h l := by
  unfold proofVerifies
  apply Body.Returns.attempt (appraiseProof_sat x hask)
  intro h' r _ _ hr
  cases r with
  | ok u => exact Body.Returns.pure hr
  | error e =>
    dsimp only
    split
    · next hrefuses => exact Body.Returns.pure (hr hrefuses)
    · exact Body.Returns.raise

/-! ### Vetted responses -/

/-- The response to a request carries the bindings of the request and of the expected worker, and a
signature that verified under the expected worker key. -/
structure Bound (D : Deployment) (ctrl : TrustedController) (h : LabHistory)
    (request : WorkerRequest) (response : WorkerResponse) : Prop where
  caseId : response.caseId = request.caseId
  runId : response.runId = request.runId
  digest : canonicalDigest D.lib request.modelDump = .ok response.requestSha256.val
  key : response.workerPublicKey.val = ctrl.expectedWorkerPublicKey
  image : response.workerImage.val = ctrl.workerImage
  codeDigest : response.workerCodeDigest.val = ctrl.workerCodeDigest
  signed : ∃ signature message, bytesFromHex response.holderSignature.val = .ok signature ∧
    canonicalJson D.lib response.signedBody = .ok message ∧
    Told h (.ed25519Verify ctrl.workerPublicKey signature message) (.ok ())

/-- What a process was shown of the response to a request before it redeems: besides the bindings,
the proof was appraised in the prepared context, and verified just when the variant says so. -/
structure Vetted (D : Deployment) (ctrl : TrustedController) (h : LabHistory)
    (request : WorkerRequest) (response : WorkerResponse) : Prop
    extends Bound D ctrl h request response where
  challenge : response.holderProof.challenge.val = request.challenge.val
  appraised : ∃ credential,
    Told h (.credentialFromDict (.dict request.credential)) (.ok credential) ∧
    (ProofContext.original request response credential).Appraised D ctrl request.variant.allows h

variable {request : WorkerRequest} {response : WorkerResponse}

/-- A longer history keeps the bindings. -/
theorem Bound.mono {h' : LabHistory} (hb : Bound D ctrl h request response) (hs : h <+: h') :
    Bound D ctrl h' request response := by
  obtain ⟨signature, message, hsignature, hmessage, htold⟩ := hb.signed
  exact { hb with signed := ⟨signature, message, hsignature, hmessage, htold.mono hs⟩ }

/-- A longer history keeps what it shows of a response. -/
theorem Vetted.mono {h' : LabHistory} (hv : Vetted D ctrl h request response) (hs : h <+: h') :
    Vetted D ctrl h' request response := by
  obtain ⟨credential, hcredential, happraised⟩ := hv.appraised
  exact ⟨hv.toBound.mono hs, hv.challenge, credential, hcredential.mono hs, happraised.mono hs⟩

/-- `_verify_worker_response` returns on a bound response only. -/
theorem verifyWorkerResponse_returns (hask : Asking G) :
    Body.Returns A G (fun h' _ ↦ Bound D ctrl h' request response)
      (ctrl.verifyWorkerResponse D request response) h l := by
  unfold verifyWorkerResponse
  apply returns_compute
  intro expectedDigest hdigest
  apply Body.Returns.raiseIf
  intro hids
  apply Body.Returns.raiseIf
  intro hsha
  apply Body.Returns.raiseIf
  intro hkey
  apply Body.Returns.raiseIf
  intro himage
  apply Body.Returns.raiseIf
  intro hcode
  rw [not_or, not_not, not_not] at hids
  rw [not_not] at hsha hkey himage hcode
  apply Body.Returns.ofExcept
  intro signature hsignature
  apply Body.Returns.ofExcept
  intro message hmessage
  apply returns_askLibExcept_last hask
  intro _
  exact ⟨hids.1, hids.2, by rw [hdigest, hsha], hkey, himage, hcode, signature, message,
    mapError_eq_ok.mp hsignature, mapError_eq_ok.mp hmessage, told_last _ _ _⟩

/-- Whatever proof a denial case prescribes, asking for it is asking. -/
theorem prescribedProof_returns {credential : Credential} (hask : Asking G) :
    Body.Returns A G (fun _ _ ↦ True) (ctrl.prescribedProof D request response credential) h l := by
  unfold prescribedProof
  split
  · exact (proofVerifies_returns ⟨request, response, credential, _, _⟩ hask).mono fun _ _ _ ↦
      trivial
  · exact (proofVerifies_returns ⟨request, response, credential, _, _⟩ hask).mono fun _ _ _ ↦
      trivial
  · exact (proofVerifies_returns ⟨request, response, _, _, _⟩ hask).mono fun _ _ _ ↦ trivial
  · exact Body.Returns.pure trivial

/-- `_preappraise_prescribed_proof` returns on a proof that verifies in the prepared context just
when the variant says so. -/
theorem preappraise_returns (hask : Asking G) (hb : Bound D ctrl h request response) :
    Body.Returns A G (fun h' _ ↦ Vetted D ctrl h' request response)
      (ctrl.preappraisePrescribedProof D request response) h l := by
  unfold preappraisePrescribedProof
  apply returns_askLibExcept hask
  intro credential
  apply Body.Returns.raiseIf
  intro hchallenge
  apply Body.Returns.raiseIf
  intro _
  apply Body.Returns.raiseIf
  intro _
  rw [not_not] at hchallenge
  apply Body.Returns.bind
    (proofVerifies_returns (ProofContext.original request response credential) hask)
  intro h' verifies _ hpre happraised
  have hvetted : verifies = request.variant.allows → ∀ h'', h' <+: h'' →
      Vetted D ctrl h'' request response := by
    rintro rfl h'' hs
    have hall := hpre.trans hs
    exact ⟨hb.mono ((List.prefix_append _ _).trans hall), hchallenge, credential,
      (told_last _ _ _).mono hall, happraised.mono hs⟩
  split
  · next hallows =>
    apply Body.Returns.check
    intro hv
    rw [Bool.not_eq_false] at hv
    exact hvetted (hv.trans hallows.symm) h' List.prefix_rfl
  · next hallows =>
    apply Body.Returns.raiseIf
    intro hv
    apply Body.Returns.bind (prescribedProof_returns hask)
    intro h'' _ _ hs _
    apply Body.Returns.check
    intro _
    rw [Bool.not_eq_true] at hallows hv
    exact hvetted (hv.trans hallows.symm) h'' hs

/-- Every pair that passed is vetted. -/
theorem validatePairs_returns (hask : Asking G) (pairs : List (WorkerRequest × WorkerResponse)) :
    Body.Returns A G (fun h' _ ↦ ∀ p ∈ pairs, Vetted D ctrl h' p.1 p.2) (ctrl.validatePairs D pairs)
      h l := by
  induction pairs generalizing h l with
  | nil => exact Body.Returns.pure (List.forall_mem_nil _)
  | cons p pairs ih =>
    apply Body.Returns.bind (verifyWorkerResponse_returns hask)
    intro h₁ _ _ _ hbound
    apply Body.Returns.bind (preappraise_returns hask hbound)
    intro h₂ _ _ _ hvetted
    apply ih.extend.mono
    rintro h₃ _ ⟨hs, hrest⟩
    rw [List.forall_mem_cons]
    exact ⟨hvetted.mono hs, hrest⟩

end TrustedController
end Atcap.Lab
