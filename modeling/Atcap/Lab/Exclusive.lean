import Atcap.Lab.Laboratory
import Atcap.Lab.RecordSpec
import Atcap.System.Numbering
import Atcap.System.Race
import Atcap.System.Writes

/-!
# One prepared state, one record

Nothing in `finalize` locks or marks its state directory. That two processes never both return a
record follows from what they observe: each returned only after redemptions that it started itself
had consumed the challenges of its allow cases, and a challenge is consumed once.
-/

namespace Atcap.Lab

open Base Base.Clients TrustedController

variable {D : Deployment} {keys : OkpKeys} {w : World} {tr : List (laboratory D keys).Label}
  {s : (laboratory D keys).Config} {p : Nat} {ctrl : TrustedController}

/-! ### Consumed challenges -/

private theorem spends_of_mem {tr : D.Trace} {t : Nat} {a : SpendArgs} {res : CredentialSpendResult}
    (hm : (⟨.spend a, .ok res⟩ : Event Op Op.Reply) ∈ D.history t tr) :
    Deployment.Spends tr t a res := by
  obtain ⟨x, hx⟩ := System.mem_own.mp hm
  exact ⟨x, hx⟩

/-- An allowed redemption spent what its checks admitted. -/
theorem spends_of_allowed {w : World} {tr : D.Trace}
    {s : System.Config Op Op.Reply World Call (Except Exn Answer)} (h : D.system.Run w tr s)
    {t i : Nat} {request : LookupInput} {d : Decision}
    (hc : System.Label.start t (.redeem i request) ∈ tr)
    (hf : System.Label.finish t (.ok (.decision d)) ∈ tr) (hd : d.allowed = true) :
    ∃ (x : InventoryApplication.Presentation) (res : CredentialSpendResult),
      Deployment.Spends tr t (x.spendArgs (D.app i) request) res ∧
      x.Checked D.lib (D.app i) request (D.history t tr) := by
  obtain ⟨hnumbered, hunnumbered⟩ := Deployment.answer_carries h hc hf
  have hnumber : ∃ n, (t, n) ∈ D.numbers i tr := by
    by_contra hnone
    rw [not_exists] at hnone
    have hdenied := (hunnumbered hnone d rfl).1
    rw [hd] at hdenied
    cases hdenied
  obtain ⟨n, hn⟩ := hnumber
  have hentered : t ∈ D.entries tr := (Deployment.entriesOf_sublist _ _).subset (hnumbered n hn).1
  obtain ⟨c, j, request', x, hc', hr, hx⟩ := Deployment.entered_of_mem h hentered
  obtain rfl := h.start_unique hc hc'
  cases hr
  obtain ⟨h₀, m, q, ⟨h₁, res, now, rfl, -, hchecked, -⟩, hown⟩ := hx.admitted
  rw [List.append_assoc] at hown
  refine ⟨x, res, spends_of_mem ?_, ?_⟩
  · rw [hown]
    simp
  · rw [hown]
    exact hchecked.mono (List.subset_append_left _ _)

/-- In a plain environment a redemption that was denied because its credential was spent had
consumed its challenge. -/
theorem spends_of_spent {w : World} {tr : D.Trace}
    {s : System.Config Op Op.Reply World Call (Except Exn Answer)} (h : D.system.Run w tr s)
    {t i : Nat} {request : LookupInput} {d : Decision}
    (hplain : ∀ e x r, System.Label.act t e x r ∈ tr → PlainInput e x)
    (hc : System.Label.start t (.redeem i request) ∈ tr)
    (hf : System.Label.finish t (.ok (.decision d)) ∈ tr) (hd : d.allowed = false)
    (hspent : d.reason = .CREDENTIAL_SPENT) :
    ∃ (x : InventoryApplication.Presentation) (res : CredentialSpendResult),
      Deployment.Spends tr t (x.spendArgs (D.app i) request) res ∧
      x.Checked D.lib (D.app i) request (D.history t tr) := by
  obtain ⟨p, hpath, hdone⟩ := h.history hc
  rw [hdone _ hf] at hpath
  obtain ⟨r, hredeem, ha⟩ := Deployment.path_redeem rfl hpath
  obtain rfl : r = .ok d := by
    cases r with
    | error e => cases ha
    | ok d' =>
      cases ha
      rfl
  have hrefused : ((D.app i).redeem D.lib i request).prog.Sat PlainReply _ _ [] :=
    Body.sat_prog.mpr InventoryApplication.redeem_refused
  obtain ⟨h₁, hreason, q, hown, -⟩ :=
    hrefused.path hredeem (Deployment.relies_plainReply h fun e x r ↦ hplain e x r) d rfl hd
  change D.history t tr = _ at hown
  cases hreason with
  | early hquiet hearly =>
    rw [hspent] at hearly
    exact absurd hearly (by decide)
  | @locked x h₀ e hh hp hquiet hreason =>
    rw [hh, List.append_assoc, List.singleton_append] at hown
    obtain ⟨pre, input, post, he, -, -⟩ := System.own_eq_append hown
    have hreply : .error e = (D.exec (.spend (x.spendArgs (D.app i) request)) input
      (D.system.after w pre)).1 := h.reply_eq he
    obtain ⟨hclock, hfaults⟩ : Plain input.1 ∧ input.2.Plain :=
      hplain _ input (.error e) (by rw [he]; simp)
    rw [hspent] at hreason
    rcases spend_error hfaults hclock hreply.symm with ⟨-, hlocked⟩ | ⟨hinternal, -⟩
    · rw [← hreason] at hlocked
      exact absurd hlocked (by decide)
    · rw [← hreason] at hinternal
      cases hinternal
  | @second x h₀ res hh hp hquiet hfirst hreason =>
    rw [hh, List.append_assoc, List.singleton_append] at hown
    refine ⟨x, res, spends_of_mem ?_, ?_⟩
    · rw [hown]
      simp
    · rw [hown]
      exact hp.mono (List.subset_append_left _ _)
  | unclocked hh hp hquiet hfirst hreason =>
    rw [hspent] at hreason
    cases hreason
  | late hh hp hquiet hfirst hreason =>
    rw [hspent] at hreason
    rcases hreason with ⟨-, ⟨⟩⟩ | ⟨-, ⟨⟩⟩

/-- `HolderProof.from_dict` keeps the challenge that it reads. -/
def KeepsChallenge (tr : D.Trace) : Prop :=
  ∀ t d proof, (⟨.lib (.holderProofFromDict d), .ok proof⟩ : Event Op Op.Reply) ∈ D.history t tr →
    d.get? (text "challenge") = some (.str proof.challenge)

/-- A process consumed the challenge of a request, in a thread that it submitted itself. -/
def Consumed (D : Deployment) (keys : OkpKeys) (tr : List (laboratory D keys).Label) (p : Nat)
    (request : WorkerRequest) : Prop :=
  ∃ (t : Nat) (a : SpendArgs) (res : CredentialSpendResult), Submitted p t tr ∧
    Deployment.Spends ((laboratory D keys).threads tr) t a res ∧
    a.tokenHash = sha256Hex (utf8 request.challenge.val)

/-- One challenge is consumed by one process. -/
theorem Consumed.unique (h : (laboratory D keys).Run w tr s) {p' : Nat} {request : WorkerRequest}
    (hc : Consumed D keys tr p request) (hc' : Consumed D keys tr p' request) : p = p' := by
  obtain ⟨t, a, res, hsubmit, hspends, hhash⟩ := hc
  obtain ⟨t', a', res', hsubmit', hspends', hhash'⟩ := hc'
  obtain ⟨rfl, -⟩ :=
    Deployment.spends_unique h.inner hspends hspends' (hhash.trans hhash'.symm)
  exact h.submitted_eq hsubmit hsubmit'

/-- The spend of a vetted pair consumes the challenge of its request, whichever response was vetted
for it. -/
theorem consumed_of_spends (law : KeepsChallenge ((laboratory D keys).threads tr))
    {h : LabHistory} {request : WorkerRequest} {response : WorkerResponse} {t : Nat}
    {x : InventoryApplication.Presentation} {res : CredentialSpendResult}
    (hv : Vetted D ctrl h request response) (hsubmit : Submitted p t tr)
    (hspends : Deployment.Spends ((laboratory D keys).threads tr) t
      (x.spendArgs (D.app ctrl.number) (lookupOf request response)) res)
    (hx : x.Checked D.lib (D.app ctrl.number) (lookupOf request response)
      (D.history t ((laboratory D keys).threads tr))) : Consumed D keys tr p request := by
  refine ⟨t, _, res, hsubmit, hspends, ?_⟩
  have hkept := law t _ _ hx.challenge.parsed
  have hshown : (Value.dict response.holderProof.members).get? (text "challenge") =
      some (.str request.challenge.val) := by
    rw [← hv.challenge]
    rfl
  have hsame : request.challenge.val = x.proof.challenge :=
    Value.str.inj (Option.some.inj (hshown.symm.trans hkept))
  rw [hsame]
  exact (challengeTokenHash_eq_ok hx.challenge.hashed).2

/-- The thread of a seen decision was started and finished with it. -/
theorem finish_of_saw (h : (laboratory D keys).Run w tr s) {q : WorkerRequest × WorkerResponse}
    {d : Decision} (hs : Saw ctrl ((laboratory D keys).history p tr) q d) :
    ∃ t, Submitted p t tr ∧
      System.Label.start t (.redeem ctrl.number (lookupOf q.1 q.2)) ∈
        (laboratory D keys).threads tr ∧
      System.Label.finish t (.ok (.decision d)) ∈ (laboratory D keys).threads tr := by
  obtain ⟨t, hsubmit, hanswer⟩ := hs
  have hact := mem_history.mp hsubmit
  refine ⟨t, ⟨_, hact⟩, start_of_submit hact, ?_⟩
  rcases hanswer with hwait | hawait
  · obtain ⟨pre, post, he⟩ := List.append_of_mem (mem_history.mp hwait)
    have hfinish := h.waited he
    rw [he, threads_append]
    exact List.mem_append_left _ hfinish
  · obtain ⟨pre, post, he⟩ := List.append_of_mem (mem_history.mp hawait)
    have hfinish := h.awaited he
    rw [he, threads_append]
    exact List.mem_append_left _ hfinish

/-- What the environment decides for a thread holds no `DecisionError`. -/
def PlainThreads (tr : D.Trace) : Prop :=
  ∀ t e x r, System.Label.act t e x r ∈ tr → PlainInput e x

/-- A pair that a process saw allowed, or in a plain environment lose its race, consumed the
challenge of its request. -/
theorem consumed_of_saw (h : (laboratory D keys).Run w tr s)
    (law : KeepsChallenge ((laboratory D keys).threads tr))
    {q : WorkerRequest × WorkerResponse} {d : Decision}
    (hv : Vetted D ctrl ((laboratory D keys).history p tr) q.1 q.2)
    (hs : Saw ctrl ((laboratory D keys).history p tr) q d)
    (hd : d.allowed = true ∨ PlainThreads ((laboratory D keys).threads tr) ∧
      d.allowed = false ∧ d.reason = .CREDENTIAL_SPENT) : Consumed D keys tr p q.1 := by
  obtain ⟨t, hsubmit, hstart, hfinish⟩ := finish_of_saw h hs
  rcases hd with hallowed | ⟨hplain, hdenied, hspent⟩
  · obtain ⟨x, res, hspends, hx⟩ := spends_of_allowed h.inner hstart hfinish hallowed
    exact consumed_of_spends law hv hsubmit hspends hx
  · obtain ⟨x, res, hspends, hx⟩ := spends_of_spent h.inner
      (fun e x r hl ↦ hplain t e x r hl) hstart hfinish hdenied hspent
    exact consumed_of_spends law hv hsubmit hspends hx

/-! ### Finalised cases -/

/-- An allow case prescribes one allowed attempt. -/
theorem allow_mem_expectedOutcomes (losers : Nat) {variant : Variant} (hv : variant.allows = true) :
    (true, Reason.ALLOW) ∈ expectedOutcomes losers variant := by
  cases variant with
  | valid | replay | concurrent => exact List.mem_cons_self
  | argumentSubstitution | recordSubstitution | wrongHolder | malformed => cases hv

/-- The observed outcomes are those of the attempts. -/
theorem mem_observedOutcomes {variant : Variant} {attempts : List AttemptObservation}
    {o : Outcome} : o ∈ observedOutcomes variant attempts ↔
      o ∈ attempts.map fun a ↦ (a.val.allowed, a.val.reason) := by
  unfold observedOutcomes
  split
  · exact (List.mergeSort_perm _ _).mem_iff
  · exact Iff.rfl

/-- The planned redemptions of a case are of its pairs. -/
theorem mem_attemptPlan {variant : Variant} {pairs : List (WorkerRequest × WorkerResponse)}
    {x : (WorkerRequest × WorkerResponse) × Int} (hx : x ∈ attemptPlan variant pairs) :
    x.1 ∈ pairs := by
  cases variant with
  | concurrent =>
    obtain ⟨q, hq, rfl⟩ := List.mem_map.mp hx
    exact hq
  | replay =>
    obtain ⟨q, hq, hx⟩ := List.mem_flatMap.mp hx
    have hone : x.1 = q := by
      simp only [List.mem_cons, List.not_mem_nil, or_false] at hx
      rcases hx with rfl | rfl
      · rfl
      · rfl
    rw [hone]
    exact List.mem_of_mem_head? (Option.mem_toList.mp hq)
  | valid | argumentSubstitution | recordSubstitution | wrongHolder | malformed =>
    obtain ⟨q, hq, rfl⟩ := List.mem_map.mp hx
    exact List.mem_of_mem_head? (Option.mem_toList.mp hq)

/-- A finalised allow case saw one of its redemptions allowed. -/
theorem TrustedController.Finalized.exists_allowed {h : LabHistory} {v : ValidatedCase}
    {c : CaseObservation} (hf : Finalized D ctrl h v c) (hv : v.spec.variant.allows = true) :
    ∃ q ∈ v.pairs, ∃ d, Saw ctrl h q d ∧ d.allowed = true := by
  have hmem := allow_mem_expectedOutcomes (v.spec.concurrency.val - 1).toNat hv
  rw [← hf.outcomes, mem_observedOutcomes, List.mem_map] at hmem
  obtain ⟨a, ha, houtcome⟩ := hmem
  obtain ⟨x, hx, d, hsaw, hobserves⟩ := exists_of_forall₂ hf.attempts ha
  refine ⟨x.1, mem_attemptPlan hx, d, hsaw, ?_⟩
  rw [← hobserves.allowed]
  exact (Prod.mk.injEq _ _ _ _ ▸ houtcome).1

/-- A finalised race saw each of its redemptions allowed or its credential spent. -/
theorem TrustedController.Finalized.raced {h : LabHistory} {v : ValidatedCase} {c : CaseObservation}
    (hf : Finalized D ctrl h v c) (hv : v.spec.variant = .concurrent)
    {q : WorkerRequest × WorkerResponse} (hq : q ∈ v.pairs) :
    ∃ d, Saw ctrl h q d ∧
      (d.allowed = true ∨ d.allowed = false ∧ d.reason = .CREDENTIAL_SPENT) := by
  have hplanned : (q, 1) ∈ attemptPlan v.spec.variant v.pairs := by
    rw [hv]
    exact List.mem_map.mpr ⟨q, hq, rfl⟩
  obtain ⟨a, ha, d, hsaw, hobserves⟩ := exists_of_forall₂ hf.attempts.flip hplanned
  have hobserved : (a.val.allowed, a.val.reason) ∈
      observedOutcomes v.spec.variant c.val.attempts :=
    mem_observedOutcomes.mpr (List.mem_map.mpr ⟨a, ha, rfl⟩)
  rw [hf.outcomes, hv, hobserves.allowed, hobserves.reason] at hobserved
  refine ⟨d, hsaw, ?_⟩
  rcases List.mem_cons.mp hobserved with hwinner | hloser
  · exact .inl (Prod.mk.inj hwinner).1
  · exact .inr (Prod.mk.inj (List.eq_of_mem_replicate hloser))

/-- A process finalised a prepared case. -/
def Settled (D : Deployment) (h : LabHistory) (k : PreparedCase) : Prop :=
  ∃ ctrl input v c, input.1 = k ∧ Validates D ctrl h input v ∧ Finalized D ctrl h v c

/-- A case other than a race has one request. -/
theorem PreparedCase.exists_request (k : PreparedCase)
    (hv : k.val.spec.val.variant ≠ .concurrent) : ∃ request, k.val.requests = [request] := by
  have hcount := k.length_requests
  rw [CaseSpecFields.requestCount, if_neg hv] at hcount
  exact List.length_eq_one_iff.mp (by omega)

/-- Every request of a validated case has a response. -/
theorem TrustedController.Validates.exists_pair {h : LabHistory}
    {input : PreparedCase × List WorkerResponse} {v : ValidatedCase}
    (hv : Validates D ctrl h input v) {request : WorkerRequest}
    (hr : request ∈ input.1.val.requests) :
    ∃ response, (request, response) ∈ v.pairs := by
  have hlength := (orderResponses_ok hv.ordered).2.2.length_eq
  have hfst : v.pairs.map Prod.fst = input.1.val.requests := by
    rw [ValidatedCase.pairs, hv.prepared]
    exact List.map_fst_zip hlength.le
  rw [← hfst] at hr
  obtain ⟨⟨_, response⟩, hq, rfl⟩ := List.mem_map.mp hr
  exact ⟨response, hq⟩

/-- Whoever finalised an allow case consumed the challenges of its requests itself. -/
theorem Settled.consumed (h : (laboratory D keys).Run w tr s)
    (law : KeepsChallenge ((laboratory D keys).threads tr)) {k : PreparedCase}
    (hv : k.val.spec.val.variant.allows = true)
    (hplain : k.val.spec.val.variant = .concurrent → PlainThreads ((laboratory D keys).threads tr))
    (hs : Settled D ((laboratory D keys).history p tr) k) {request : WorkerRequest}
    (hr : request ∈ k.val.requests) : Consumed D keys tr p request := by
  obtain ⟨ctrl, input, v, c, rfl, hvalidates, hfinalized⟩ := hs
  have hspec : v.spec = input.1.val.spec.val := by
    rw [ValidatedCase.spec, hvalidates.prepared]
  by_cases hrace : input.1.val.spec.val.variant = .concurrent
  · -- Every pair of a race was redeemed.
    obtain ⟨response, hq⟩ := hvalidates.exists_pair hr
    obtain ⟨d, hsaw, hd⟩ := hfinalized.raced (hspec ▸ hrace) hq
    exact consumed_of_saw (q := (request, response)) h law (hvalidates.vetted _ hq) hsaw
      (hd.imp_right fun hd ↦ ⟨hplain hrace, hd⟩)
  · -- Any other case has one request.
    obtain ⟨q, hq, d, hsaw, hd⟩ := hfinalized.exists_allowed (hspec ▸ hv)
    have hone : q.1 = request := by
      obtain ⟨request', hrequests⟩ := input.1.exists_request hrace
      have hmem : q.1 ∈ input.1.val.requests := by
        rw [← hvalidates.prepared]
        exact (List.of_mem_zip hq).1
      rw [hrequests, List.mem_singleton] at hr hmem
      rw [hr, hmem]
    rw [← hone]
    exact consumed_of_saw h law (hvalidates.vetted q hq) hsaw (.inl hd)

/-- A trusted state has a `valid` case. -/
theorem TrustedLabState.exists_valid (state : TrustedLabState) :
    ∃ k ∈ state.val.preparedCases, k.val.spec.val.variant = .valid := by
  have hs := state.property
  simp only [TrustedLabStateFields.check, bind_eq_ok, raiseIf_eq_ok, not_not, not_or] at hs
  obtain ⟨_, -, _, -, _, -, _, hmatrix, -⟩ := hs
  have hvalid : Variant.valid ∈ (state.val.preparedCases.map fun k ↦ k.val.spec.val.variant) := by
    rw [← List.mem_toFinset, hmatrix.2, List.mem_toFinset]
    decide
  obtain ⟨k, hk, hvariant⟩ := List.mem_map.mp hvalid
  exact ⟨k, hk, hvariant⟩

/-- Every case of the state of a concluded `finalize` is finalised. -/
theorem Concluded.settled {i : Nat} {a : FinalizeArgs} {h : LabHistory}
    {signed : SignedExperimentRecord} {state : TrustedLabState} {envelope : RunpodJobEnvelope}
    {validated : List ValidatedCase} {payload : ExperimentRecordPayload}
    (hc : Concluded D keys i a h signed state envelope ctrl validated payload) {k : PreparedCase}
    (hk : k ∈ state.val.preparedCases) : Settled D h k := by
  have hinput : (k, envelope.output.responses.filter fun r ↦
      decide (r.caseId = k.val.spec.val.caseId)) ∈ bundleInputs state envelope :=
    List.mem_map.mpr ⟨k, hk, rfl⟩
  obtain ⟨v, hv, hvalidates⟩ := exists_of_forall₂ hc.validates.flip hinput
  obtain ⟨c, -, hfinalized⟩ := exists_of_forall₂ hc.finalized.flip hv
  exact ⟨ctrl, _, v, c, rfl, hvalidates, hfinalized⟩

/-! ### At most one record -/

/-- The processes that returned a record of the state at a path. -/
def recorders (keys : OkpKeys) (path : Text) (tr : List (laboratory D keys).Label) : Set Nat :=
  {p | ∃ i a r, a.statePath = path ∧ Label.start p (.finalize i a) ∈ tr ∧
    Label.finish p (.ok r) ∈ tr}

/-- The processes that returned from a `finalize_cases` over a bundle with a case. -/
def finalisers (keys : OkpKeys) (k : PreparedCase) (tr : List (laboratory D keys).Label) :
    Set Nat :=
  {p | ∃ ctrl bundle a, k ∈ bundle.map Prod.fst ∧
    Label.start p (.finalizeCases ctrl bundle) ∈ tr ∧ Label.finish p (.ok a) ∈ tr}

/-- A prepared case has a request. -/
theorem PreparedCase.requests_ne_nil (k : PreparedCase) : k.val.requests ≠ [] := by
  have hk := k.property
  simp only [PreparedCaseFields.check, bind_eq_ok, raiseIf_eq_ok, not_not] at hk
  obtain ⟨_, ⟨hone, -⟩, -⟩ := hk
  exact List.length_pos_iff.mp hone

/-- Two processes that settled an allow case are one process. -/
theorem settled_unique (h : (laboratory D keys).Run w tr s)
    (law : KeepsChallenge ((laboratory D keys).threads tr)) {k : PreparedCase}
    (hv : k.val.spec.val.variant.allows = true)
    (hplain : k.val.spec.val.variant = .concurrent → PlainThreads ((laboratory D keys).threads tr))
    {p' : Nat} (hs : Settled D ((laboratory D keys).history p tr) k)
    (hs' : Settled D ((laboratory D keys).history p' tr) k) : p = p' := by
  obtain ⟨request, hr⟩ := List.exists_mem_of_ne_nil _ k.requests_ne_nil
  exact (hs.consumed h law hv hplain hr).unique h (hs'.consumed h law hv hplain hr)

/-- Any number of `finalize` processes over the same prepared state and database, sequential or
interleaved with each other and with any calls and crashes, with any envelopes and evidence
directories: at most one of them ever returns a record. Likewise at most one `finalize_cases` ever
returns from a bundle with a given allow case, for a race in an environment that raises no
`DecisionError` of its own. -/
theorem one_state_one_record (h : (laboratory D keys).Run w tr s)
    (law : KeepsChallenge ((laboratory D keys).threads tr)) :
    (∀ path, (∀ p p' raw raw', ReadFrom ((laboratory D keys).history p tr) path raw →
      ReadFrom ((laboratory D keys).history p' tr) path raw' → raw = raw') →
      (recorders keys path tr).Subsingleton) ∧
    (∀ k, k.val.spec.val.variant.allows = true →
      (k.val.spec.val.variant = .concurrent → PlainThreads ((laboratory D keys).threads tr)) →
      (finalisers keys k tr).Subsingleton) := by
  constructor
  · rintro path hstate p ⟨i, a, r, hpath, hb, hr⟩ p' ⟨i', a', r', hpath', hb', hr'⟩
    obtain ⟨_, state, _, _, _, _, -, hconcluded⟩ := outcome_finish h hb hr
    obtain ⟨_, state', _, _, _, _, -, hconcluded'⟩ := outcome_finish h hb' hr'
    obtain ⟨raw, hread, hraw⟩ := hconcluded.loaded.stateRead
    obtain ⟨raw', hread', hraw'⟩ := hconcluded'.loaded.stateRead
    rw [hpath] at hread
    rw [hpath'] at hread'
    obtain rfl := hstate p p' raw raw' hread hread'
    obtain rfl := Except.ok.inj (hraw.symm.trans hraw')
    obtain ⟨k, hk, hvariant⟩ := state.exists_valid
    have hallows : k.val.spec.val.variant.allows = true := by
      rw [hvariant]
      rfl
    have hplain : k.val.spec.val.variant = .concurrent →
        PlainThreads ((laboratory D keys).threads tr) := by
      rw [hvariant]
      exact nofun
    exact settled_unique h law hallows hplain (hconcluded.settled hk) (hconcluded'.settled hk)
  · rintro k hallows hplain p ⟨ctrl, bundle, a, hk, hb, hr⟩ p' ⟨ctrl', bundle', a', hk', hb', hr'⟩
    have hsettled : ∀ {p ctrl bundle a}, k ∈ bundle.map Prod.fst →
        Label.start p (.finalizeCases ctrl bundle) ∈ tr → Label.finish p (.ok a) ∈ tr →
        Settled D ((laboratory D keys).history p tr) k := by
      intro p ctrl bundle a hk hb hr
      obtain ⟨observations, validated, rfl, hvalidates, hfinalized⟩ := outcome_finish h hb hr
      obtain ⟨input, hinput, rfl⟩ := List.mem_map.mp hk
      obtain ⟨v, hv, hone⟩ := exists_of_forall₂ hvalidates.flip hinput
      obtain ⟨c, -, hc⟩ := exists_of_forall₂ hfinalized.flip hv
      exact ⟨ctrl, input, v, c, rfl, hone, hc⟩
    exact settled_unique h law hallows hplain (hsettled hk hb hr) (hsettled hk' hb' hr')

/-! ### A contested case -/

namespace Bench

/-- Two processes validate a `valid` case before either redeems it. The first returns, and the
redemption of the second is answered. -/
def contesting : List bench.Move :=
  .start 1 (.finalizeCases controller (bundle .valid 1)) ::
    .start 2 (.finalizeCases controller (bundle .valid 1)) :: (asks 1 6 ++ (asks 2 6 ++
      (call 1 1 15 1003 4 ++ (.wait 1 :: (asks 1 3 ++ (.finish 1 :: call 2 2 9 1003 5))))))

/-- Whether no process raised, and only the first redemption was allowed. -/
def isContesting (l : bench.Label) : Bool :=
  match l with
  | .finish _ (.error _) => false
  | .thread (.finish 1 (.ok (.decision d))) => d.allowed
  | .thread (.finish 2 (.ok (.decision d))) => !d.allowed
  | .thread (.finish 1 _) | .thread (.finish 2 _) => false
  | _ => true

set_option maxRecDepth 100000 in
/-- The case can be played. -/
theorem play_contesting :
    (stage .valid 1 contesting).any (fun r ↦ r.1.all isContesting) = true := by
  decide +kernel

/-- The case has a run. -/
theorem exists_contesting : ∃ tr s, Experiment .valid 1 contesting isContesting tr s := by
  apply exists_experiment play_contesting
  · intro m hm
    simp only [contesting, List.mem_cons, List.mem_append] at hm
    rcases hm with rfl | rfl | hm | hm | hm | rfl | hm | rfl | hm
    · exact .start _ _
    · exact .start _ _
    · exact scheduled_asks hm
    · exact scheduled_asks hm
    · exact scheduled_call hm
    · exact .wait _
    · exact scheduled_asks hm
    · exact .finish _
    · exact scheduled_call hm
  · exact fun _ ↦ rfl

namespace Experiment

variable {tr : List bench.Label} {s : bench.Config}
  (x : Experiment .valid 1 contesting isContesting tr s)

include x

/-- The packages keep the challenge of a proof. -/
theorem keepsChallenge : KeepsChallenge (bench.threads tr) := by
  intro t d proof hproof
  obtain ⟨y, hy⟩ := System.mem_own.mp hproof
  have hparsed := orRaise_eq_ok.mp (x.reply_thread (mem_threads_act.mp hy)).symm
  simp only [Option.bind_eq_bind, Option.bind_eq_some_iff, Option.pure_def,
    Option.some.injEq] at hparsed
  obtain ⟨challenge, hchallenge, _, -, rfl⟩ := hparsed
  unfold StandIn.textMember at hchallenge
  split at hchallenge
  · next t hmember =>
    cases hchallenge
    exact hmember
  · cases hchallenge

/-- The first process returns from the bundle. -/
theorem returned : ∃ a, Label.finish 1 (.ok a) ∈ tr := by
  obtain ⟨l, hl, o, rfl⟩ := x.exists_label (m := .finish 1) (by simp [contesting])
  cases o with
  | ok a => exact ⟨a, hl⟩
  | error e => cases x.checked _ hl

/-- The redemption of the second process is denied. -/
theorem lost : ∃ d : Decision, Label.thread (.finish 2 (.ok (.decision d))) ∈ tr ∧
    d.allowed = false := by
  obtain ⟨l, hl, l', ⟨a, rfl⟩, rfl⟩ :=
    x.exists_label (m := .thread (.finish 2)) (by simp [contesting, call])
  have hcheck := x.checked _ hl
  cases a with
  | error e => cases hcheck
  | ok a =>
    cases a with
    | decision d => exact ⟨d, hl, by simpa [isContesting] using hcheck⟩
    | token | challenge | tool => cases hcheck

end Experiment

end Bench

/-- Two processes have validated one prepared `valid` case. The first returned, and it alone: the
redemption of the second was denied. -/
theorem one_state_one_record_experiment : ∃ tr s k, Bench.bench.Run .initial tr s ∧
    k.val.spec.val.variant = .valid ∧ finalisers Bench.okpKeys k tr = {1} ∧
    Label.start 2 (.finalizeCases Bench.controller (Bench.bundle .valid 1)) ∈ tr ∧
    k ∈ (Bench.bundle .valid 1).map Prod.fst ∧ Submitted 2 2 tr ∧
    ∃ d : Decision, Label.thread (.finish 2 (.ok (.decision d))) ∈ tr ∧ d.allowed = false := by
  obtain ⟨tr, s, x⟩ := Bench.exists_contesting
  have hmap : (Bench.specs .valid 1).map (fun spec ↦ spec.val.variant) = [.valid] := by decide
  obtain ⟨spec, hspecs, hvariant⟩ := List.map_eq_singleton_iff.mp hmap
  have hprepares := x.prepares_specs
  rw [hspecs] at hprepares
  obtain ⟨k, hk, hprepared⟩ :=
    exists_of_forall₂ hprepares.flip (y := (Bench.grant, spec)) List.mem_cons_self
  have hvalid : k.val.spec.val.variant = .valid := by rw [hprepared.spec, hvariant]
  have hbundle : k ∈ (Bench.bundle .valid 1).map Prod.fst := by
    rw [Bench.map_fst_bundle]
    exact hk
  have hone := (one_state_one_record x.run x.keepsChallenge).2 k (by rw [hvalid]; rfl)
    (by rw [hvalid]; exact nofun)
  obtain ⟨a, ha⟩ := x.returned
  have hmem : 1 ∈ finalisers Bench.okpKeys k tr :=
    ⟨Bench.controller, Bench.bundle .valid 1, a, hbundle, x.start List.mem_cons_self, ha⟩
  exact ⟨tr, s, k, x.run, hvalid, hone.eq_singleton_of_mem hmem,
    x.start (List.mem_cons_of_mem _ List.mem_cons_self), hbundle,
    x.submitted (by simp [Bench.contesting, Bench.call]), x.lost⟩

end Atcap.Lab
