import Atcap.Lab.Controller

/-!
# Preparing and finalising an experiment

`lab/live_cli.py`: `prepare_capability_cases` and `finalize`, and the processes of the laboratory
as clients of the services. A `finalize` reads the prepared state back from its directory and
serves an inventory of its own over the same database.
-/

namespace Atcap.Lab

open Base

variable {L : Type}

/-- What `joserfc` makes of a JWK. -/
structure OkpKeys where
  /-- `OKPKey.import_key(jwk)`: the raw key. -/
  importKey : ImportKey
  /-- `OKPKey.import_key(jwk).as_dict(private=False)`. -/
  publicJwk : Value → Value

/-! ### Preparation -/

/-- The name of the case of a variant. -/
def caseName (kind : Text) (variant : Variant) : Text :=
  kind ++ codePoint '-' :: variant.value

/-- The specification of the case of a variant. -/
def caseSpec (variant : Variant) (concurrency : Int) : Except Exn CaseSpec := do
  let caseId ← checked _ (caseName (text "case") variant)
  let recordId ← checked _ (caseName (text "record") variant)
  let sku ← checked _ (text "widget-42")
  let concurrency ← checked _ concurrency
  construct CaseSpecFields.check { caseId, variant, sku, recordId, concurrency }

/-- `_case_specs`. -/
def caseSpecs (concurrency : Int) : Except Exn (List CaseSpec) :=
  Variant.all.mapM fun v ↦ caseSpec v (if v = .concurrent then concurrency else 1)

/-- The loop of `prepare_capability_cases`. -/
def prepareCases (D : Deployment) (ctrl : TrustedController) :
    List (CapabilityGrant × CaseSpec) → Script (List RunId) (List PreparedCase)
  | [] => return []
  | (grant, spec) :: rest => do
    let prepared ← ctrl.prepareCase D grant spec
    let cases ← prepareCases D ctrl rest
    return prepared :: cases

/-- The payload of a worker, from the prepared cases. -/
def workerPayload (ctrl : TrustedController) (holder : Ed25519PrivateKey)
    (prepared : List PreparedCase) : Except Exn WorkerPayload := do
  let disposableHolderPrivateKey ← checked _ (hex holder.seed)
  let workerImage ← checked _ ctrl.workerImage
  let workerCodeDigest ← checked _ ctrl.workerCodeDigest
  construct WorkerPayloadFields.check {
    disposableHolderPrivateKey, workerImage, workerCodeDigest
    requests := preparedRequests prepared }

/-- `prepare_capability_cases`. -/
def prepareCapabilityCases (D : Deployment) (ctrl : TrustedController)
    (grants : List CapabilityGrant) (specs : List CaseSpec) (holder : Ed25519PrivateKey) :
    Script (List RunId) (List PreparedCase × WorkerPayload) := do
  Body.raiseIf (grants.length ≠ specs.length)
    (.raised (.value "one independently issued capability is required per case"))
  Body.raiseIf (hex holder.publicRaw ≠ ctrl.expectedWorkerPublicKey)
    (.raised (.value "disposable holder key does not match controller expectation"))
  let prepared ← prepareCases D ctrl (grants.zip specs)
  let payload ← compute (workerPayload ctrl holder prepared)
  return (prepared, payload)

/-! ### Files -/

/-- `directory / name`. -/
def inDir (directory : Text) (name : String) : Text := directory ++ codePoint '/' :: text name

/-- `_require_private_directory`. -/
def requirePrivateDirectory (path : Text) : Script L Unit := do
  let present ← Body.invoke (.ask (.isDir path)) fun r ↦ r.mapError .raised
  Body.raiseIf (present = false)
    (.protocol "trusted state directory must exist with mode 0700")
  let mode ← Body.invoke (.ask (.mode path)) fun r ↦ r.mapError .raised
  Body.raiseIf (mode ≠ 0o700) (.protocol "trusted state directory must exist with mode 0700")

/-- The state in the bytes of its file. -/
def parseState (lib : Libraries) (raw : Bytes) : Except Exn TrustedLabState :=
  parseCanonical lib TrustedLabStateFields.modelValidate "trusted state is not canonical" raw

/-- `_read_canonical_state`. -/
def readCanonicalState (lib : Libraries) (path : Text) : Script L TrustedLabState := do
  let mode ← Body.invoke (.ask (.mode path)) fun r ↦ r.mapError .raised
  Body.raiseIf (mode &&& 0o077 ≠ 0) (.protocol "trusted state file permissions are too broad")
  let rejected (_ : Exn) : LabExn := .protocol "trusted state failed strict validation"
  let raw ← Body.invoke (.ask (.readBytes path)) fun r ↦ r.mapError rejected
  Body.ofExcept ((parseState lib raw).mapError rejected)

/-- The first of these files that is present stops `finalize`. -/
def requireAbsent : List Text → Script L Unit
  | [] => return ()
  | path :: paths => do
    let present ← Body.invoke (.ask (.isPresent path)) fun r ↦ r.mapError .raised
    Body.raiseIf (present = true) (.protocol "experiment evidence output already exists")
    requireAbsent paths

/-- `MAX_RUNPOD_ENVELOPE_BYTES`. -/
def maxRunpodEnvelopeBytes : Nat := 2097152

/-- The envelope in the bytes of its file. -/
def parseEnvelope (lib : Libraries) (raw : Bytes) : Except Exn RunpodJobEnvelope := do
  let decoded ← strictJsonObject lib raw
  RunpodJobEnvelope.modelValidate decoded

/-- The `try` block of `finalize` that reads the response envelope. -/
def readEnvelope (lib : Libraries) (path : Text) : Script L RunpodJobEnvelope := do
  let rejected (_ : Exn) : LabExn := .protocol "Runpod response envelope failed strict validation"
  let size ← Body.invoke (.ask (.size path)) fun r ↦ r.mapError rejected
  Body.raiseIf (maxRunpodEnvelopeBytes < size) (rejected .other)
  let raw ← Body.invoke (.ask (.readBytes path)) fun r ↦ r.mapError rejected
  Body.ofExcept ((parseEnvelope lib raw).mapError rejected)

/-! ### Finalisation -/

/-- The arguments of `finalize`. -/
structure FinalizeArgs where
  stateDir : Text
  workerResponsePath : Text
  endpointId : Text
  workerImage : Text
  evidenceDir : Text

namespace FinalizeArgs

variable (a : FinalizeArgs)

/-- `STATE_FILENAME` in the state directory. -/
def statePath : Text := inDir a.stateDir "trusted-state.json"

/-- `DATABASE_FILENAME` in the state directory. -/
def databasePath : Text := inDir a.stateDir "lab.sqlite3"

/-- The compact JWS in the evidence directory. -/
def jwsPath : Text := inDir a.evidenceDir "experiment-record.jws"

/-- The record in the evidence directory. -/
def recordPath : Text := inDir a.evidenceDir "experiment-record.json"

/-- The published verifier in the evidence directory. -/
def verifierPath : Text := inDir a.evidenceDir "experiment-verifier.json"

end FinalizeArgs

/-- The inventory that a state configures. -/
def inventoryOf (state : TrustedLabStateFields) (signer : ReceiptSigner) :
    Except Exn InventoryApplication := do
  let secret ← bytesFromHex state.resourceChallengeSecret.val
  InventoryApplication.init state.resourcePolicy.policy secret signer none

/-- The keys and the controller of a `finalize` with number `i`. -/
def openController (D : Deployment) (keys : OkpKeys) (i : Nat) (a : FinalizeArgs)
    (state : TrustedLabStateFields) : Script L TrustedController := do
  Body.invoke (.ask (.openStore a.databasePath)) fun r ↦ r.mapError .raised
  let inventoryJwk := keys.publicJwk (.dict state.inventoryReceiptPrivateJwk)
  let inventoryKey ← compute (keys.importKey (.dict state.inventoryReceiptPrivateJwk))
  let brokerKey ← compute (keys.importKey (.dict state.brokerReceiptPublicJwk))
  let experimentKey ← compute (keys.importKey (.dict state.experimentPrivateJwk))
  let app ← compute (inventoryOf state ⟨inventoryKey, state.inventoryReceiptKeyId⟩)
  ask (.serve i app)
  TrustedController.init i
    ⟨⟨brokerKey, state.brokerReceiptKeyId⟩, keys.publicJwk (.dict state.brokerReceiptPublicJwk)⟩
    ⟨⟨D.lib.jwkPublic inventoryKey, state.inventoryReceiptKeyId⟩, keys.publicJwk inventoryJwk⟩
    ⟨⟨experimentKey, state.experimentKeyId⟩, keys.publicJwk (.dict state.experimentPrivateJwk)⟩
    state.expectedWorkerPublicKey.val state.workerImage.val state.workerCodeDigest.val

/-- The bounded projection of the provider's metadata. -/
def observeRunpod (a : FinalizeArgs) (envelope : RunpodJobEnvelope) :
    Except Exn UntrustedRunpodObservation := do
  let endpointId ← encodeUtf8 a.endpointId
  let endpointIdSha256 ← checked _ (sha256Hex endpointId)
  let jobId ← encodeUtf8 envelope.id.val
  let jobIdSha256 ← checked _ (sha256Hex jobId)
  let workerIdSha256 ← envelope.workerId.mapM fun w ↦ do
    let workerId ← encodeUtf8 w.val
    checked _ (sha256Hex workerId)
  let workerImageArgument ← checked _ a.workerImage
  return {
    endpointIdSha256, jobIdSha256, workerIdSha256, workerImageArgument
    delayTimeMs := envelope.delayTime, executionTimeMs := envelope.executionTime }

/-- The responses of an envelope by the case they name. -/
def caseInputs (cases : List PreparedCase) (responses : List WorkerResponse) :
    List (PreparedCase × List WorkerResponse) :=
  cases.map fun k ↦ (k, responses.filter fun r ↦ decide (r.caseId = k.val.spec.val.caseId))

/-- `str.encode("ascii")`. -/
def encodeAscii (t : Text) : Except Exn Bytes :=
  if t.all fun c ↦ decide (c.val < 128) then .ok (utf8 t) else .error .unicodeEncode

/-- `PublicExperimentVerifier` of an experiment signer. -/
def publicVerifier (signer : PublishedSigner) :
    Except Exn (Validated PublicExperimentVerifierFields.check) := do
  let keyId ← checked _ signer.keyId
  let publicJwk ← Ed25519PublicJwk.modelValidate signer.publicJwk
  construct PublicExperimentVerifierFields.check { keyId, publicJwk }

/-- The part of `finalize` after the record is signed: verify it and write the evidence. -/
def publishEvidence (D : Deployment) (keys : OkpKeys) (a : FinalizeArgs) (signer : PublishedSigner)
    (payload : ExperimentRecordPayload) (signed : SignedExperimentRecord) : Script L Unit := do
  let verifierKey ← compute (keys.importKey signer.publicJwk)
  let verifier : ExperimentRecordVerifier := ⟨verifierKey, signer.keyId⟩
  let _ ← compute (verifier.verify D.lib keys.importKey signed)
  let document ← compute (publicVerifier signer)
  let jws ← compute (encodeAscii signed.compactJws.val)
  Body.invoke (.ask (.writeNewFile a.jwsPath (jws ++ [10]) 0o644)) fun r ↦ r.mapError .raised
  let record ← compute (canonicalJson D.lib payload.val.modelDump)
  Body.invoke (.ask (.writeNewFile a.recordPath record 0o644)) fun r ↦ r.mapError .raised
  let published ← compute (canonicalJson D.lib document.val.modelDump)
  Body.invoke (.ask (.writeNewFile a.verifierPath published 0o644)) fun r ↦ r.mapError .raised
  Body.invoke (.ask (.chmod a.databasePath 0o600)) fun r ↦ r.mapError .raised

/-- The part of `finalize` after its two inputs were read. -/
def finalizeRead (D : Deployment) (keys : OkpKeys) (i : Nat) (a : FinalizeArgs)
    (state : TrustedLabStateFields) (envelope : RunpodJobEnvelope) :
    Script L SignedExperimentRecord := do
  let ctrl ← openController D keys i a state
  let responses := envelope.output.responses
  Body.raiseIf ((responses.map WorkerResponse.runId).toFinset ≠
      ((preparedRequests state.preparedCases).map WorkerRequest.runId).toFinset)
    (.protocol "Runpod response contains missing or unprepared run IDs")
  let runpodObservation ← compute (observeRunpod a envelope)
  let _ ← compute (canonicalJson D.lib runpodObservation.modelDump)
  let cases ← ctrl.finalizeCases D (caseInputs state.preparedCases responses)
  let (payload, signed) ← ctrl.signRecord D {
    experimentId := state.experimentId, commitSha := state.commitSha
    uvLockSha256 := state.uvLockSha256, tpmMode := state.tpmMode
    tpmEvidenceVerified := state.tpmEvidenceVerified } runpodObservation cases
  publishEvidence D keys a ctrl.experimentSigner payload signed
  return signed

/-- `finalize`. -/
def finalize (D : Deployment) (keys : OkpKeys) (i : Nat) (a : FinalizeArgs) :
    Script L SignedExperimentRecord := do
  requirePrivateDirectory a.stateDir
  requirePrivateDirectory a.evidenceDir
  requireAbsent [a.jwsPath, a.recordPath, a.verifierPath]
  let state ← readCanonicalState D.lib a.statePath
  Body.raiseIf (a.workerImage ≠ state.val.workerImage.val)
    (.protocol "finalize worker image does not match prepared state")
  let envelope ← readEnvelope D.lib a.workerResponsePath
  finalizeRead D keys i a state.val envelope

/-! ### The processes of the laboratory -/

/-- A process of the laboratory. -/
inductive LabCall where
  | prepare (ctrl : TrustedController) (grants : List CapabilityGrant) (specs : List CaseSpec)
      (holder : Ed25519PrivateKey)
  | finalizeCases (ctrl : TrustedController) (inputs : List (PreparedCase × List WorkerResponse))
  | finalize (i : Nat) (a : FinalizeArgs)

/-- The inventory instance of a process. -/
def LabCall.number : LabCall → Nat
  | .prepare ctrl _ _ _ => ctrl.number
  | .finalizeCases ctrl _ => ctrl.number
  | .finalize i _ => i

/-- What a process returns. -/
inductive LabAnswer where
  | prepared (cases : List PreparedCase) (payload : WorkerPayload)
  | cases (observations : List CaseObservation)
  | record (signed : SignedExperimentRecord)

/-- The program of a process. -/
def LabCall.program (D : Deployment) (keys : OkpKeys) :
    LabCall → Prog LabOp LabOp.Reply (Except LabExn LabAnswer)
  | .prepare ctrl grants specs holder =>
    ((prepareCapabilityCases D ctrl grants specs holder) []).bind fun r ↦
      .done (r.1.map fun p ↦ .prepared p.1 p.2)
  | .finalizeCases ctrl inputs =>
    (LabAnswer.cases <$> (ctrl.finalizeCases D inputs : Script Unit _)).prog
  | .finalize i a => (LabAnswer.record <$> (Lab.finalize D keys i a : Script Unit _)).prog

/-- What the shared state says of a query. -/
def Query.look (D : Deployment) : (q : Query) → World → q.Reply → Prop
  | .invocationCount i, w, n => n = w.counter i
  | .redemptionCount credentialId, w, r => ∀ n, r = .ok n → n = w.store.redemptionCount credentialId
  | .serve i app, _, _ => D.app i = app
  | _, _, _ => True

/-- The laboratory over the services. -/
def laboratory (D : Deployment) (keys : OkpKeys) :
    Clients D.system Query Query.Reply LabCall (Except LabExn LabAnswer) where
  program := LabCall.program D keys
  owner := fun b ↦ .inventoryd b.number
  Look := Query.look D

end Atcap.Lab
