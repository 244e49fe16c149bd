import Atcap.Base.ClientSchedule
import Atcap.Lab.Finalize
import Atcap.Lab.Preparation
import Atcap.Lab.RecordSpec
import Atcap.System.Schedule

/-!
# The processes of the laboratory

The program logic of the three kinds of processes, read along every run: a `finalize` or
`finalize_cases` starts no redemption before its whole bundle was validated, whatever the worker
returned, and a process that fails before leaves the services as they would be without it. The
order in which the worker lists its responses changes nothing.
-/

namespace Atcap.Lab

open Base Base.Clients TrustedController

section Runs

variable {D : Deployment} {keys : OkpKeys}

/-! ### What a process guarantees -/

namespace LabCall

/-- What a process guarantees for each operation it issues after a history. -/
def pledge (D : Deployment) (keys : OkpKeys) : LabCall → LabHistory → LabOp → Prop
  | .prepare ctrl _ _ _ => PreparePledge ctrl
  | .finalizeCases ctrl inputs => Pledge D ctrl inputs
  | .finalize i a => FinalizePledge D keys i a

/-- What holds of the history and the answer of a process that returned. -/
def outcome (D : Deployment) (keys : OkpKeys) : LabCall → LabHistory → LabAnswer → Prop
  | .prepare ctrl grants specs _, h, a => ∃ cases payload, a = .prepared cases payload ∧
      grants.length = specs.length ∧ List.Forall₂ (Prepares D ctrl h) (grants.zip specs) cases
  | .finalizeCases ctrl inputs, h, a => ∃ observations validated, a = .cases observations ∧
      List.Forall₂ (Validates D ctrl h) inputs validated ∧
      List.Forall₂ (Finalized D ctrl h) validated observations
  | .finalize i args, h, a => ∃ signed state envelope ctrl validated payload, a = .record signed ∧
      Concluded D keys i args h signed state envelope ctrl validated payload

/-- Every process keeps its guarantee, and returns only with its outcome. -/
theorem program_sat (b : LabCall) :
    (b.program D keys).Sat (fun _ _ ↦ True) (b.pledge D keys)
      (fun h r ↦ ∀ a, r = .ok a → b.outcome D keys h a) [] := by
  cases b with
  | prepare ctrl grants specs holder =>
    apply Prog.sat_bind.mpr
    apply Prog.Sat.mono (@prepareCapabilityCases_returns _ _ D ctrl _ _ _ _)
    rintro h ⟨r, _⟩ hr a ha
    cases r with
    | error e => cases ha
    | ok p =>
      cases ha
      exact ⟨p.1, p.2, rfl, hr p rfl⟩
  | finalizeCases ctrl inputs =>
    apply Body.sat_prog.mpr
    apply Body.Returns.map
    apply (finalizeCases_returns inputs).mono
    rintro h observations ⟨validated, hvalidates, hfinalized⟩
    exact ⟨observations, validated, rfl, hvalidates, hfinalized⟩
  | finalize i args =>
    apply Body.sat_prog.mpr
    apply Body.Returns.map
    apply finalize_returns.mono
    rintro h signed ⟨state, envelope, ctrl, validated, payload, hconcluded⟩
    exact ⟨signed, state, envelope, ctrl, validated, payload, rfl, hconcluded⟩

end LabCall

variable {w : World} {tr pre post : List (laboratory D keys).Label} {s : (laboratory D keys).Config}
  {p : Nat} {b : LabCall}

/-- The guarantee of a process at a call that it starts. -/
theorem pledge_submit (h : (laboratory D keys).Run w tr s) (hb : Label.start p b ∈ tr) {c : Call}
    {t : Nat} (he : tr = pre ++ .act p (.submit c) t :: post) :
    b.pledge D keys ((laboratory D keys).history p pre) (.submit c) := by
  obtain ⟨b', hb', hg⟩ := h.guarantee LabCall.program_sat he
  obtain rfl := h.start_unique hb (by rw [he]; exact List.mem_append_left _ hb')
  exact hg fun _ _ _ _ ↦ trivial

/-- The outcome of a process that returned. -/
theorem outcome_finish (h : (laboratory D keys).Run w tr s) (hb : Label.start p b ∈ tr)
    {a : LabAnswer} (ha : Label.finish p (.ok a) ∈ tr) :
    b.outcome D keys ((laboratory D keys).history p tr) a := by
  have hrelies : Prog.Relies (fun _ _ ↦ True) ((laboratory D keys).history p tr) :=
    fun _ _ _ _ ↦ trivial
  exact h.result hb b.program_sat hrelies ha a rfl

/-- What `prepare` returns for `_case_specs` is the whole matrix: one case for each variant, with
one request each but for the race. -/
theorem prepared_matrix (h : (laboratory D keys).Run w tr s) {ctrl : TrustedController}
    {grants : List CapabilityGrant} {specs : List CaseSpec} {holder : Ed25519PrivateKey}
    {concurrency : Int} (hspecs : caseSpecs concurrency = .ok specs)
    (hb : Label.start p (.prepare ctrl grants specs holder) ∈ tr) {cases : List PreparedCase}
    {payload : WorkerPayload} (ha : Label.finish p (.ok (.prepared cases payload)) ∈ tr) :
    cases.map (fun k ↦ k.val.spec.val.variant) = Variant.all ∧
    ((preparedRequests cases).length : Int) = 6 + concurrency := by
  obtain ⟨cases', payload', heq, hlength, hprepares⟩ := outcome_finish h hb ha
  cases heq
  obtain ⟨hvariants, hcounts⟩ := caseSpecs_eq_ok hspecs
  rw [← map_spec_of_prepares hlength hprepares, List.map_map] at hvariants hcounts
  refine ⟨hvariants, ?_⟩
  rw [length_preparedRequests]
  change (cases.map ((fun spec : CaseSpec ↦ spec.val.requestCount) ∘ fun k ↦ k.val.spec)).sum = _
  rw [hcounts]
  simp only [Variant.all, requestsOf, List.map_cons, List.map_nil, List.sum_cons, List.sum_nil,
    reduceCtorEq, if_false, if_true]
  omega

/-! ### Validation before any redemption -/

/-- A pairing of responses with requests, one to one, each response bound to its request. -/
structure Paired (D : Deployment) (ctrl : TrustedController) (h : LabHistory)
    (requests : List WorkerRequest) (responses : List WorkerResponse)
    (pairs : List (WorkerRequest × WorkerResponse)) : Prop where
  requests : pairs.map Prod.fst = requests
  responses : (pairs.map Prod.snd).Perm responses
  bound : ∀ q ∈ pairs, Bound D ctrl h q.1 q.2

/-- The pairs of validated cases are bound. -/
theorem bound_pairing {ctrl : TrustedController} {h : LabHistory}
    {inputs : List (PreparedCase × List WorkerResponse)} {validated : List ValidatedCase}
    (hv : List.Forall₂ (Validates D ctrl h) inputs validated) :
    ∀ q ∈ pairing validated, Vetted D ctrl h q.1 q.2 := by
  induction hv with
  | nil => exact List.forall_mem_nil _
  | cons hone _ ih =>
    rw [pairing, List.flatMap_cons, List.forall_mem_append]
    exact ⟨hone.vetted, ih⟩

end Runs

/-! ### Small experiments

One capability is prepared for one case, the worker answers as its variant says, and processes
finalise what was prepared. -/

/-- What the schedules check of an answer. -/
def Query.looks (q : Query) (w : World) (a : q.Reply) : Bool :=
  match q, a with
  | .invocationCount i, n => decide (n = w.counter i)
  | .redemptionCount credentialId, .ok n => decide (n = w.store.redemptionCount credentialId)
  | .serve _ _, _ => false
  | _, _ => true

/-- A checked answer is one that the shared state gives. -/
theorem Query.look_of_looks {D : Deployment} (q : Query) (w : World) (a : q.Reply)
    (h : q.looks w a = true) : q.look D w a := by
  cases q with
  | invocationCount i =>
    have hn : a = w.counter i := by simpa [Query.looks] using h
    exact hn
  | redemptionCount credentialId =>
    rintro n rfl
    simpa [Query.looks] using h
  | serve i app => cases h
  | lib | clock | barrier | openStore | isDir | isPresent | mode | size | readBytes | writeNewFile
  | chmod => trivial

namespace Bench

/-- One byte, thirty-two times. -/
theorem isLowerHexOf_filled (b : UInt8) :
    Text.isLowerHexOf 64 (hex (List.replicate 32 b)) = true := by
  apply isLowerHexOf_hex
  rw [List.length_replicate]

/-- A digest or key of one byte. -/
def filled (b : UInt8) : Hex32 := ⟨hex (List.replicate 32 b), isLowerHexOf_filled b⟩

/-- A signature that spells its key twice. -/
theorem isLowerHexOf_signature (k : Hex32) : Text.isLowerHexOf 128 (k.val ++ k.val) = true := by
  have hk := k.property
  simp only [Text.isLowerHexOf, Bool.and_eq_true, decide_eq_true_eq] at hk ⊢
  rw [List.length_append, List.all_append, hk.1, hk.2]
  exact ⟨rfl, rfl⟩

/-- What a key signs. -/
def signature (k : Hex32) : Hex64 := ⟨k.val ++ k.val, isLowerHexOf_signature k⟩

/-- The key of the worker. -/
def holder : Hex32 := filled 7

/-- The key of another holder. -/
def otherHolder : Hex32 := filled 8

/-- Answers of the packages; a proof is made by the key that its signature spells. -/
def packages : (c : LibCall) → Except Exn c.Result
  | .holderProofFromDict d => orRaise (do
      let challenge ← StandIn.textMember d "challenge"
      let _ ← StandIn.textMember d "signature"
      return ⟨challenge, d⟩) .holderProofInvalid
  | .verifyHolderProof c =>
    raiseIf (StandIn.textMember c.proof.claims "signature" ≠
      some (c.credential.subject ++ c.credential.subject)) .holderProofInvalid
  | c => StandIn.honest (text "s") [3] c

/-- The environment of a process at one time. -/
def answer : (q : Query) → World → q.Reply
  | .lib c, _ => packages c
  | .clock, _ => .ok 1004
  | .invocationCount i, w => w.counter i
  | .redemptionCount credentialId, w => .ok (w.store.redemptionCount credentialId)
  | .barrier _, _ => .ok ()
  | .openStore _, _ => .ok ()
  | .serve .., _ => ()
  | .isDir _, _ => .ok true
  | .isPresent _, _ => .ok false
  | .mode _, _ => .ok 0o700
  | .size _, _ => .ok 0
  | .readBytes _, _ => .ok []
  | .writeNewFile .., _ => .ok ()
  | .chmod .., _ => .ok ()

/-- The keys of the laboratory. -/
def okpKeys : OkpKeys := ⟨fun _ ↦ .ok [1], id⟩

/-- The laboratory over a small deployment. -/
def bench := laboratory Demo.deployment okpKeys

/-- The credential of the capability. -/
def credential : Credential :=
  ⟨(filled 1).val, text "01", holder.val, {text "s"}, 0, none, some 1000, some 1060, text "x"⟩

/-- The receipt of the broker for the capability. -/
def receiptFields : ReceiptFields where
  receiptId := hex (List.replicate 16 1)
  decidingService := .broker
  decision := .allow
  reason := .ALLOW
  decidedAt := 1000
  credentialId := some credential.credentialId
  qualifiedScope := some (text "s")
  challengeTokenHash := some (filled 1).val
  manifestDigest := some (text "sha256:" ++ (filled 3).val)
  method := none
  audience := none
  argumentsDigest := none
  recordId := none
  invocationId := none
  handlerCountSnapshot := 0
  handlerInvoked := false
  businessResult := .notApplicable
  artifactHashes := Std.ExtTreeMap.ofList [(text "broker_policy_sha256", (filled 4).val),
    (text "tpm_attest_sha256", (filled 5).val), (text "tpm_signature_sha256", (filled 5).val),
    (text "tpm_ak_chain_sha256", (filled 5).val), (text "issuance_request_sha256", (filled 1).val)]

/-- The signed receipt of the capability. -/
def receipt : SignedDecisionReceipt :=
  (DecisionReceiptPayload.construct receiptFields >>=
    ReceiptSigner.sign standIn ⟨[1], text "1"⟩).toOption.getD ⟨[]⟩

/-- The capability. -/
def grant : CapabilityGrant where
  credential := credential
  brokerReceipt := receipt
  expectedManifestDigest := text "sha256:" ++ (filled 3).val
  expectedBrokerPolicySha256 := (filled 4).val
  expectedBrokerChallengeTokenHash := (filled 1).val
  expectedTpmAttestSha256 := (filled 5).val
  expectedTpmSignatureSha256 := (filled 5).val
  expectedTpmAkChainSha256 := (filled 5).val
  expectedIssuanceRequestSha256 := (filled 1).val

/-- The controller of the experiment. -/
def controller : TrustedController where
  number := 0
  brokerReceiptVerifier := ⟨⟨[1], text "1"⟩, .none⟩
  resourceReceiptVerifier := ⟨⟨[2], text "r"⟩, .none⟩
  experimentSigner := ⟨⟨[5], text "e"⟩, .none⟩
  workerPublicKey := []
  expectedWorkerPublicKey := holder.val
  workerImage := text "r.io/w@sha256:" ++ (filled 9).val
  workerCodeDigest := (filled 6).val

/-- The case of a variant with this many requests. -/
def specs (variant : Variant) (n : Nat) : List CaseSpec := (caseSpec variant n).toOption.toList

/-- The key pair of the worker. -/
def holderKey : Ed25519PrivateKey := ⟨List.replicate 32 7, (fromHex holder.val).getD []⟩

/-- A call that a process starts, with `n` operations at one time. -/
def call (p t n : Nat) (now : Int) (seed : UInt8) : List bench.Move :=
  .submit p t :: (List.replicate n (.thread (.act t (Scenario.mk now seed packages).input)) ++
    [.thread (.finish t)])

/-- Queries of a process. -/
def asks (p n : Nat) : List bench.Move := List.replicate n (.ask p answer)

/-- The preparation of request `t` of a case. -/
def requesting (t : Nat) : List bench.Move :=
  call 0 t 4 1000 (UInt8.ofNat (t + 1)) ++ .wait 0 :: asks 0 1

/-- The preparation of the case of a variant with `n` requests. -/
def preparing (variant : Variant) (n : Nat) : List bench.Move :=
  .start 0 (.prepare controller [grant] (specs variant n) holderKey) ::
    ((List.range n).flatMap requesting ++ (asks 0 2 ++ [.finish 0]))

/-- Play a schedule from the start. -/
def play (moves : List bench.Move) : Option (List bench.Label × bench.Config) :=
  Clients.play bench Query.looks (bench.initial .initial) moves

/-- Play the preparation of a case, and then a schedule. -/
def stage (variant : Variant) (n : Nat) (moves : List bench.Move) :
    Option (List bench.Label × bench.Config) :=
  (play (preparing variant n)).bind fun r ↦
    (Clients.play bench Query.looks r.2 moves).map fun q ↦ (r.1 ++ q.1, q.2)

/-- The two are one schedule. -/
theorem play_eq_stage (variant : Variant) (n : Nat) (moves : List bench.Move) :
    play (preparing variant n ++ moves) = stage variant n moves :=
  Clients.play_append _ _

/-- The cases that the first process of a run prepared. -/
def preparedIn (tr : List bench.Label) : Option (List PreparedCase) :=
  tr.findSome? fun l ↦ match l with
    | .finish 0 (.ok (.prepared cases _)) => some cases
    | _ => none

/-- The prepared cases. -/
@[irreducible] def prepared (variant : Variant) (n : Nat) : List PreparedCase :=
  ((play (preparing variant n)).bind fun r ↦ preparedIn r.1).getD []

/-- A text that stands in for a challenge out of bounds. -/
theorem isBounded_challenge : isBounded 1 8192 (text "c") = true := by decide

/-- What the worker returns for a request. -/
def respond (request : WorkerRequest) : WorkerResponse :=
  let subject := if request.variant = .wrongHolder then otherHolder else holder
  { caseId := request.caseId, runId := request.runId
    requestSha256 := (canonicalDigest standIn request.modelDump >>=
      checked (Text.isLowerHexOf 64)).toOption.getD (filled 0)
    workerPublicKey := holder, proofSubject := subject, workerImage := request.workerImage
    workerCodeDigest := request.workerCodeDigest
    holderProof := ⟨(checked (isBounded 1 8192) request.challenge.val).toOption.getD
      ⟨text "c", isBounded_challenge⟩, .hex (signature subject)⟩
    runpodMetadata := {}, holderSignature := signature holder }

/-- The bundle of the worker's responses. -/
def bundle (variant : Variant) (n : Nat) : List (PreparedCase × List WorkerResponse) :=
  (prepared variant n).map fun k ↦ (k, k.val.requests.map respond)

/-- The bundle has the prepared cases. -/
theorem map_fst_bundle (variant : Variant) (n : Nat) :
    (bundle variant n).map Prod.fst = prepared variant n := by
  rw [bundle, List.map_map]
  exact List.map_id _

/-- The moves of the schedule; the packages answer every thread and every process alike. -/
inductive Scheduled : bench.Move → Prop where
  | start (p : Nat) (b : LabCall) : Scheduled (.start p b)
  | submit (p t : Nat) : Scheduled (.submit p t)
  | act (t : Nat) (now : Int) (seed : UInt8) :
    Scheduled (.thread (.act t (Scenario.mk now seed packages).input))
  | ended (t : Nat) : Scheduled (.thread (.finish t))
  | wait (p : Nat) : Scheduled (.wait p)
  | ask (p : Nat) : Scheduled (.ask p answer)
  | finish (p : Nat) : Scheduled (.finish p)

/-- A call has such moves. -/
theorem scheduled_call {p t n : Nat} {now : Int} {seed : UInt8} {m : bench.Move}
    (hm : m ∈ call p t n now seed) : Scheduled m := by
  simp only [call, List.mem_cons, List.mem_append, List.mem_replicate, List.not_mem_nil,
    or_false] at hm
  rcases hm with rfl | ⟨-, rfl⟩ | rfl
  · exact .submit p t
  · exact .act t now seed
  · exact .ended t

/-- So have queries. -/
theorem scheduled_asks {p n : Nat} {m : bench.Move} (hm : m ∈ asks p n) : Scheduled m := by
  obtain ⟨-, rfl⟩ := List.mem_replicate.mp hm
  exact .ask p

/-- So has a preparation. -/
theorem scheduled_preparing {variant : Variant} {n : Nat} {m : bench.Move}
    (hm : m ∈ preparing variant n) : Scheduled m := by
  simp only [preparing, requesting, List.mem_cons, List.mem_append, List.mem_flatMap,
    List.not_mem_nil, or_false] at hm
  rcases hm with rfl | ⟨t, -, hm | rfl | hm⟩ | hm | rfl
  · exact .start _ _
  · exact scheduled_call hm
  · exact .wait _
  · exact scheduled_asks hm
  · exact scheduled_asks hm
  · exact .finish _

/-- A run of an experiment: a case is prepared, the moves are made, and every step is one that
`check` passes. -/
structure Experiment (variant : Variant) (n : Nat) (moves : List bench.Move)
    (check : bench.Label → Bool) (tr : List bench.Label) (s : bench.Config) : Prop where
  played : play (preparing variant n ++ moves) = some (tr, s)
  checked : ∀ l ∈ tr, check l = true
  scheduled : ∀ m ∈ moves, Scheduled m
  prepares : ∀ e, check (.finish 0 (.error e)) = false

variable {variant : Variant} {n : Nat} {moves : List bench.Move} {check : bench.Label → Bool}

/-- An experiment that can be played to its end has a run. -/
theorem exists_experiment (hplay : (stage variant n moves).any (fun r ↦ r.1.all check) = true)
    (hscheduled : ∀ m ∈ moves, Scheduled m)
    (hprepares : ∀ e, check (.finish 0 (.error e)) = false) :
    ∃ tr s, Experiment variant n moves check tr s := by
  obtain ⟨⟨tr, s⟩, hplayed, hall⟩ := (Option.any_eq_true _ _).mp hplay
  exact ⟨tr, s, (play_eq_stage variant n moves).trans hplayed, List.all_eq_true.mp hall,
    hscheduled, hprepares⟩

namespace Experiment

variable {tr : List bench.Label} {s : bench.Config} (x : Experiment variant n moves check tr s)

include x

/-- It is a run of the laboratory from an empty database. -/
theorem run : bench.Run .initial tr s := Clients.run_of_play Query.look_of_looks x.played

/-- It follows the schedule. -/
theorem made : List.Forall₂ Move.Makes (preparing variant n ++ moves) tr :=
  Clients.makes_of_play x.played

/-- Every move of the schedule is taken. -/
theorem exists_label {m : bench.Move} (hm : m ∈ moves) : ∃ l ∈ tr, m.Makes l :=
  exists_of_forall₂ x.made.flip (List.mem_append_right _ hm)

/-- Every step is of a move. -/
theorem exists_move {l : bench.Label} (hl : l ∈ tr) : ∃ m, Scheduled m ∧ m.Makes l := by
  obtain ⟨m, hm, hmakes⟩ := exists_of_forall₂ x.made hl
  refine ⟨m, ?_, hmakes⟩
  rcases List.mem_append.mp hm with hm | hm
  · exact scheduled_preparing hm
  · exact x.scheduled m hm

/-- The case is prepared. -/
theorem prepare : Label.start 0 (.prepare controller [grant] (specs variant n) holderKey) ∈ tr ∧
    ∃ payload, Label.finish 0 (.ok (.prepared (prepared variant n) payload)) ∈ tr := by
  have hstage := (play_eq_stage variant n moves).symm.trans x.played
  rw [stage, Option.bind_eq_some_iff] at hstage
  obtain ⟨⟨tr₁, s₁⟩, hfirst, hsecond⟩ := hstage
  rw [Option.map_eq_some_iff] at hsecond
  obtain ⟨⟨tr₂, last⟩, -, heq⟩ := hsecond
  obtain ⟨htr, -⟩ := Prod.mk.inj heq
  have hmade := Clients.makes_of_play hfirst
  have hrun : bench.Run .initial tr₁ s₁ := Clients.run_of_play Query.look_of_looks hfirst
  have hstart : Label.start 0 (.prepare controller [grant] (specs variant n) holderKey) ∈ tr₁ := by
    obtain ⟨l, hl, rfl⟩ := exists_of_forall₂ hmade.flip (y := Move.start 0 _) List.mem_cons_self
    exact hl
  have hfinish : ∃ a, Label.finish 0 (.ok a) ∈ tr₁ := by
    obtain ⟨l, hl, o, rfl⟩ :=
      exists_of_forall₂ hmade.flip (y := Move.finish 0) (by simp [preparing])
    cases o with
    | ok a => exact ⟨a, hl⟩
    | error e =>
      have hcheck := x.checked _ (by rw [← htr]; exact List.mem_append_left _ hl)
      rw [x.prepares e] at hcheck
      cases hcheck
  obtain ⟨a, ha⟩ := hfinish
  obtain ⟨cases, payload, rfl, -⟩ := outcome_finish hrun hstart ha
  have hfound : (preparedIn tr₁).isSome := List.findSome?_isSome_iff.mpr ⟨_, ha, rfl⟩
  obtain ⟨cases', hcases'⟩ := Option.isSome_iff_exists.mp hfound
  have hprepared : prepared variant n = cases' := by
    rw [prepared, hfirst, Option.bind_some, hcases', Option.getD_some]
  obtain ⟨l, hl, heq⟩ := List.exists_of_findSome?_eq_some hcases'
  refine ⟨by rw [← htr]; exact List.mem_append_left _ hstart, ?_⟩
  rw [hprepared]
  split at heq
  · next payload' =>
    cases heq
    exact ⟨payload', by rw [← htr]; exact List.mem_append_left _ hl⟩
  · cases heq

/-- What was prepared is of the specification. -/
theorem prepares_specs : List.Forall₂ (Prepares Demo.deployment controller (bench.history 0 tr))
    ([grant].zip (specs variant n)) (prepared variant n) := by
  obtain ⟨hstart, payload, hfinish⟩ := x.prepare
  obtain ⟨cases, payload', heq, -, hprepares⟩ := outcome_finish x.run hstart hfinish
  cases heq
  exact hprepares

/-- A process of the schedule starts. -/
theorem start {p : Nat} {b : LabCall} (hm : Move.start p b ∈ moves) : Label.start p b ∈ tr := by
  obtain ⟨l, hl, rfl⟩ := x.exists_label hm
  exact hl

/-- A call of the schedule is submitted. -/
theorem submitted {p t : Nat} (hm : Move.submit p t ∈ moves) : Submitted p t tr := by
  obtain ⟨l, hl, c, rfl⟩ := x.exists_label hm
  exact ⟨c, hl⟩

/-- Every package call of a thread has one answer. -/
theorem reply_thread {t : Nat} {c : LibCall} {y r : Except Exn c.Result}
    (hl : Label.thread (.act t (.lib c) y r) ∈ tr) : r = packages c := by
  obtain ⟨pre, post, he⟩ := List.append_of_mem (mem_threads_act.mpr hl)
  have hreply : r = y := x.run.inner.reply_eq he
  obtain ⟨m, hm, hmakes⟩ := x.exists_move hl
  cases hm with
  | act t' now seed =>
    obtain ⟨l, ⟨e, r', rfl⟩, heq⟩ := hmakes
    cases heq
    exact hreply
  | ended t' =>
    obtain ⟨l, ⟨a, rfl⟩, heq⟩ := hmakes
    cases heq
  | start p b => cases hmakes
  | submit p t' =>
    obtain ⟨c', heq⟩ := hmakes
    cases heq
  | wait p =>
    obtain ⟨t', a, heq | heq⟩ := hmakes
    · cases heq
    · cases heq
  | ask p =>
    obtain ⟨q, w, heq⟩ := hmakes
    cases heq
  | finish p =>
    obtain ⟨o, heq⟩ := hmakes
    cases heq

/-- Every package call of a process has the same answer. -/
theorem reply_process {p : Nat} {c : LibCall} {r : Except Exn c.Result}
    (hl : Label.act p (.ask (.lib c)) r ∈ tr) : r = packages c := by
  obtain ⟨m, hm, hmakes⟩ := x.exists_move hl
  cases hm with
  | ask p' =>
    obtain ⟨q, w, heq⟩ := hmakes
    cases heq
    rfl
  | act t' now seed =>
    obtain ⟨l, -, heq⟩ := hmakes
    cases heq
  | ended t' =>
    obtain ⟨l, -, heq⟩ := hmakes
    cases heq
  | start p' b => cases hmakes
  | submit p' t' =>
    obtain ⟨c', heq⟩ := hmakes
    cases heq
  | wait p' =>
    obtain ⟨t', a, heq | heq⟩ := hmakes
    · cases heq
    · cases heq
  | finish p' =>
    obtain ⟨o, heq⟩ := hmakes
    cases heq

end Experiment

end Bench

/-! ### No redemption before validation -/

/-- In every run, whatever the worker returned: when a `finalize` starts a redemption, the
responses of the envelope it read are in bijection with all prepared requests of the state it read,
each bound to its request, and it redeems one of these pairs; a `finalize_cases` likewise for the
cases it was given. A process that started nothing leaves the store and the counters as they are
without it. -/
theorem validated_before_redemption {D : Deployment} {keys : OkpKeys} {w : World}
    {tr : List (laboratory D keys).Label} {s : (laboratory D keys).Config}
    (h : (laboratory D keys).Run w tr s) :
    (∀ p i a pre c t post, Label.start p (.finalize i a) ∈ tr →
      tr = pre ++ .act p (.submit c) t :: post → ∃ state envelope ctrl pairs,
        Loaded D keys i a ((laboratory D keys).history p pre) state envelope ctrl ∧
        Paired D ctrl ((laboratory D keys).history p pre)
          (preparedRequests state.val.preparedCases) envelope.output.responses pairs ∧
        ∃ q ∈ pairs, c = .redeem i (lookupOf q.1 q.2)) ∧
    (∀ p ctrl inputs pre c t post, Label.start p (.finalizeCases ctrl inputs) ∈ tr →
      tr = pre ++ .act p (.submit c) t :: post → ∃ pairs,
        Paired D ctrl ((laboratory D keys).history p pre)
          (preparedRequests (inputs.map Prod.fst)) (inputs.flatMap Prod.snd) pairs ∧
        ∃ q ∈ pairs, c = .redeem ctrl.number (lookupOf q.1 q.2)) ∧
    (∀ p, (∀ c t, Label.act p (.submit c) t ∉ tr) → s.inner.shared =
      D.system.after w ((laboratory D keys).threads ((laboratory D keys).without p tr))) := by
  refine ⟨?_, ?_, fun p hnone ↦ h.shared_without hnone⟩
  · intro p i a pre c t post hb he
    obtain ⟨state, envelope, ctrl, hloaded, validated, hvalidates, q, hq, hc⟩ :=
      pledge_submit h hb he
    refine ⟨state, envelope, ctrl, pairing validated, hloaded, ⟨?_, ?_, ?_⟩, q, hq, ?_⟩
    · rw [map_fst_pairing hvalidates, bundleInputs, caseInputs, List.map_map]
      exact congrArg preparedRequests (List.map_id _)
    · exact pairing_perm envelope.output.uniqueRunIds hloaded.runIds hvalidates
    · exact fun q hq ↦ (bound_pairing hvalidates q hq).toBound
    · rw [hc, hloaded.opened.number]
  · intro p ctrl inputs pre c t post hb he
    obtain ⟨validated, hvalidates, q, hq, hc⟩ := pledge_submit h hb he
    refine ⟨pairing validated, ⟨map_fst_pairing hvalidates, map_snd_pairing hvalidates, ?_⟩, q, hq,
      hc⟩
    exact fun q hq ↦ (bound_pairing hvalidates q hq).toBound

namespace Bench

/-- The worker's image has the form of one. -/
theorem isImage_workerImage : isImage controller.workerImage = true := by decide

/-- The arguments of a finalisation. -/
def arguments : FinalizeArgs := ⟨text "s", text "w", text "e", controller.workerImage, text "d"⟩

/-- A race of two requests is validated up to its first redemption, while a `finalize` finds an
empty state file. -/
def validating : List bench.Move :=
  .start 1 (.finalizeCases controller (bundle .concurrent 2)) :: .start 2 (.finalize 0 arguments) ::
    (asks 1 6 ++ (asks 2 9 ++ (.finish 2 :: (asks 1 5 ++ [.submit 1 2]))))

/-- Whether only the `finalize` raises, and it starts no call. -/
def isValidating (l : bench.Label) : Bool :=
  match l with
  | .finish 2 (.ok _) => false
  | .finish 2 (.error _) => true
  | .finish _ (.error _) => false
  | .act 2 (.submit _) _ => false
  | _ => true

set_option maxRecDepth 100000 in
/-- The race can be played. -/
theorem play_validating :
    (stage .concurrent 2 validating).any (fun r ↦ r.1.all isValidating) = true := by
  decide +kernel

/-- The race has a run. -/
theorem exists_validating : ∃ tr s, Experiment .concurrent 2 validating isValidating tr s := by
  apply exists_experiment play_validating
  · intro m hm
    simp only [validating, List.mem_cons, List.mem_append, List.not_mem_nil, or_false] at hm
    rcases hm with rfl | rfl | hm | hm | rfl | hm | rfl
    · exact .start _ _
    · exact .start _ _
    · exact scheduled_asks hm
    · exact scheduled_asks hm
    · exact .finish _
    · exact scheduled_asks hm
    · exact .submit _ _
  · exact fun _ ↦ rfl

/-- The specification of the race. -/
theorem exists_race : ∃ spec, specs .concurrent 2 = [spec] ∧
    spec.val.caseId.val = text "case-concurrent" ∧ spec.val.requestCount = 2 := by
  have hmap : (specs .concurrent 2).map (fun spec ↦ (spec.val.caseId.val, spec.val.requestCount)) =
      [(text "case-concurrent", 2)] := by decide
  obtain ⟨spec, hspecs, heq⟩ := List.map_eq_singleton_iff.mp hmap
  exact ⟨spec, hspecs, (Prod.mk.inj heq).1, (Prod.mk.inj heq).2⟩

/-- The run ids of the prepared race. -/
theorem runIds_race : (preparedRequests (prepared .concurrent 2)).map (fun r ↦ r.runId.val) =
    [text "case-concurrent.01", text "case-concurrent.02"] := by
  obtain ⟨tr, s, x⟩ := exists_validating
  obtain ⟨spec, hspecs, hname, hcount⟩ := exists_race
  have hprepares := x.prepares_specs
  rw [hspecs] at hprepares
  generalize prepared .concurrent 2 = cases at hprepares
  cases hprepares with
  | @cons _ k _ _ hk hnil =>
    cases hnil
    have hrequests := hk.requests
    rw [hcount] at hrequests
    have hrange : List.range (2 : Int).toNat = [0, 1] := rfl
    rw [hrange] at hrequests
    simp only [preparedRequests, List.flatMap_cons, List.flatMap_nil, List.append_nil]
    generalize k.val.requests = requests at hrequests
    cases hrequests with
    | cons hfirst hrest =>
      cases hrest with
      | cons hsecond hnone =>
        cases hnone
        simp only [List.map_cons, List.map_nil, hfirst.runId, hsecond.runId, hname]
        decide

end Bench

/-- The race redeems one of its two pairs, and the `finalize` beside it leaves no trace. -/
theorem validated_before_redemption_experiment : ∃ tr s, Bench.bench.Run .initial tr s ∧
    (∃ pre c t post pairs, tr = pre ++ .act 1 (.submit c) t :: post ∧ pairs.length = 2 ∧
      Paired Demo.deployment Bench.controller (Bench.bench.history 1 pre)
        (preparedRequests ((Bench.bundle .concurrent 2).map Prod.fst))
        ((Bench.bundle .concurrent 2).flatMap Prod.snd) pairs ∧
      ∃ q ∈ pairs, c = .redeem 0 (lookupOf q.1 q.2)) ∧
    Label.start 2 (.finalize 0 Bench.arguments) ∈ tr ∧
    s.inner.shared = Demo.deployment.system.after .initial
      (Bench.bench.threads (Bench.bench.without 2 tr)) := by
  obtain ⟨tr, s, x⟩ := Bench.exists_validating
  have hstart : Label.start 1 (.finalizeCases Bench.controller (Bench.bundle .concurrent 2)) ∈ tr :=
    x.start List.mem_cons_self
  obtain ⟨c, hc⟩ := x.submitted (p := 1) (t := 2) (by simp [Bench.validating])
  obtain ⟨pre, post, he⟩ := List.append_of_mem hc
  obtain ⟨-, hcases, hwithout⟩ := validated_before_redemption x.run
  obtain ⟨pairs, hpairs, hq⟩ := hcases 1 Bench.controller _ pre c 2 post hstart he
  refine ⟨tr, s, x.run, ⟨pre, c, 2, post, pairs, he, ?_, hpairs, hq⟩,
    x.start (List.mem_cons_of_mem _ List.mem_cons_self), hwithout 2 ?_⟩
  · have hlength := congrArg List.length Bench.runIds_race
    rw [List.length_map] at hlength
    rw [← List.length_map (f := Prod.fst), hpairs.requests, Bench.map_fst_bundle, hlength]
    rfl
  · intro c t hl
    cases x.checked _ hl

/-! ### The order of the responses -/

section Order

variable {D : Deployment} {keys : OkpKeys}

/-- An envelope with the same responses in some order. -/
structure RunpodJobEnvelope.Reordered (e e' : RunpodJobEnvelope) : Prop where
  id : e.id = e'.id
  delayTime : e.delayTime = e'.delayTime
  executionTime : e.executionTime = e'.executionTime
  workerId : e.workerId = e'.workerId
  responses : e.output.responses.Perm e'.output.responses

/-- The cases of a reordered bundle. -/
theorem caseInputs_perm (cases : List PreparedCase) {responses responses' : List WorkerResponse}
    (hp : responses.Perm responses') :
    List.Forall₂ (fun i i' ↦ i.1 = i'.1 ∧ i.2.Perm i'.2) (caseInputs cases responses)
      (caseInputs cases responses') := by
  induction cases with
  | nil => exact .nil
  | cons k cases ih => exact .cons ⟨rfl, hp.filter _⟩ ih

/-- `finalize_cases` on reordered responses. -/
theorem finalizeCases_perm {L : Type} {ctrl : TrustedController}
    {inputs inputs' : List (PreparedCase × List WorkerResponse)}
    (hp : List.Forall₂ (fun i i' ↦ i.1 = i'.1 ∧ i.2.Perm i'.2) inputs inputs') :
    (ctrl.finalizeCases D inputs : Script L _) = ctrl.finalizeCases D inputs' := by
  rw [finalizeCases, finalizeCases, validateCases_perm hp]

/-- Whatever `finalize` does after it read its inputs, it does for every order of the responses:
the same questions, the same redemptions in the same order, the same record or the same error. -/
theorem finalizeRead_reordered {L : Type} {i : Nat} {a : FinalizeArgs}
    {state : TrustedLabStateFields} {e e' : RunpodJobEnvelope} (he : e.Reordered e') :
    (finalizeRead D keys i a state e : Script L _) = finalizeRead D keys i a state e' := by
  have hset : (e.output.responses.map WorkerResponse.runId).toFinset =
      (e'.output.responses.map WorkerResponse.runId).toFinset :=
    List.toFinset_eq_of_perm _ _ (he.responses.map _)
  have hobserve : observeRunpod a e = observeRunpod a e' := by
    rw [observeRunpod, observeRunpod, he.id, he.delayTime, he.executionTime, he.workerId]
  have hcases : ∀ ctrl : TrustedController,
      (ctrl.finalizeCases D (caseInputs state.preparedCases e.output.responses) : Script L _) =
        ctrl.finalizeCases D (caseInputs state.preparedCases e'.output.responses) := fun ctrl ↦
    finalizeCases_perm (caseInputs_perm _ he.responses)
  simp only [finalizeRead, hobserve, hcases]
  rw [hset]

end Order

namespace Bench

/-- The responses to the prepared race. -/
def responses : List WorkerResponse := (preparedRequests (prepared .concurrent 2)).map respond

/-- A response names the run of its request. -/
theorem map_runId_responses : responses.map WorkerResponse.runId =
    (preparedRequests (prepared .concurrent 2)).map WorkerRequest.runId := List.map_map

/-- The race has two responses. -/
theorem length_responses : responses.length = 2 := by
  have hlength := congrArg List.length runIds_race
  rw [List.length_map] at hlength
  rw [responses, List.length_map, hlength]
  rfl

/-- They repeat no run id. -/
theorem nodup_responses : (responses.map WorkerResponse.runId).Nodup := by
  apply List.Nodup.of_map Subtype.val
  rw [map_runId_responses, List.map_map]
  change ((preparedRequests (prepared .concurrent 2)).map fun r ↦ r.runId.val).Nodup
  rw [runIds_race]
  decide

/-- A job has a name within its bounds. -/
theorem isBounded_job : isBounded 1 256 (text "j") = true := by decide

/-- The envelope of the responses in some order. -/
def envelope (rs : List WorkerResponse) (hp : rs.Perm responses) : RunpodJobEnvelope :=
  { id := ⟨text "j", isBounded_job⟩, delayTime := none, executionTime := none, workerId := none
    output := ⟨rs, by rw [hp.length_eq, length_responses]; decide,
      (hp.map WorkerResponse.runId).nodup_iff.mpr nodup_responses⟩ }

/-- Envelopes of the responses in two orders. -/
theorem reordered_envelope {rs rs' : List WorkerResponse} (hp : rs.Perm responses)
    (hp' : rs'.Perm responses) : (envelope rs hp).Reordered (envelope rs' hp') :=
  ⟨rfl, rfl, rfl, rfl, hp.trans hp'.symm⟩

/-- The name of the experiment. -/
def name : RunId := ⟨text "1", by decide⟩

/-- A lifetime in its bounds. -/
theorem isPositive_minute : decide ((0 : Int) < 60) = true := by decide

/-- A commit of forty digits. -/
theorem isLowerHexOf_commit : Text.isLowerHexOf 40 (hex (List.replicate 20 1)) = true := by decide

/-- A secret of its least length. -/
theorem isSecret_filled :
    (decide (64 ≤ (filled 2).val.length) && Text.encodable (filled 2).val) = true := by decide

/-- A state that prepared the race. -/
def state : TrustedLabStateFields where
  experimentId := name
  commitSha := ⟨hex (List.replicate 20 1), isLowerHexOf_commit⟩
  uvLockSha256 := filled 1
  tpmMode := .testDouble
  tpmEvidenceVerified := false
  resourcePolicy := ⟨text "a", text "m", text "s", filled 1, ⟨60, isPositive_minute⟩,
    ⟨60, isPositive_minute⟩⟩
  resourceChallengeSecret := ⟨(filled 2).val, isSecret_filled⟩
  inventoryReceiptKeyId := text "r"
  inventoryReceiptPrivateJwk := []
  brokerReceiptKeyId := text "1"
  brokerReceiptPublicJwk := []
  experimentKeyId := text "e"
  experimentPrivateJwk := []
  expectedWorkerPublicKey := holder
  workerImage := ⟨controller.workerImage, isImage_workerImage⟩
  workerCodeDigest := filled 6
  preparedCases := prepared .concurrent 2

end Bench

/-- The two responses to the prepared race, in both orders. -/
theorem finalizeRead_reordered_pair :
    Bench.responses.map WorkerResponse.runId =
      (preparedRequests Bench.state.preparedCases).map WorkerRequest.runId ∧
    Bench.responses.length = 2 ∧
    (finalizeRead Demo.deployment Bench.okpKeys 0 Bench.arguments Bench.state
        (Bench.envelope Bench.responses (List.Perm.refl _)) : Script Unit SignedExperimentRecord) =
      finalizeRead Demo.deployment Bench.okpKeys 0 Bench.arguments Bench.state
        (Bench.envelope Bench.responses.reverse (List.reverse_perm _)) :=
  ⟨Bench.map_runId_responses, Bench.length_responses,
    finalizeRead_reordered (Bench.reordered_envelope _ _)⟩

end Atcap.Lab
