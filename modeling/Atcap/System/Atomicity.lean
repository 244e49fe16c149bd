import Atcap.Broker.Outcome
import Atcap.System.Issuance
import Atcap.System.Writes

/-!
# A failed issuance is atomic

What a denied `issue` returns, writes and signs, among any other calls and with a failure at any of
its steps.
-/

namespace Atcap

open Base System CapabilityBroker

/-- No `DecisionError` comes from the clock, from the statements of the store or from minting. -/
def PlainIssue : (e : Op) → e.Input → e.Reply → Prop
  | .clock, _, r => Plain r
  | .lib (.credentialSign ..), _, r => Plain r
  | .lib (.credentialBody _), _, r => Plain r
  | .sign .., _, r => Plain r
  | .consumeBrokerChallenge _, x, _ => x.2.Plain
  | _, _, _ => True

namespace CapabilityBroker

variable {lib : Libraries} {broker : CapabilityBroker} {raw : RawIssuanceRequest}
  {rawEvidence : RawTpmEvidence}

/-- For a malformed request at most the policy hash was derived. -/
theorem derived_of_malformedRequest {e : Exn} (h : validateIssuanceRequestRuntime raw = .error e) :
    (derived lib broker raw rawEvidence).tokenHash = none ∧
      (derived lib broker raw rawEvidence).manifestDigest = none ∧
      ∀ k, k ≠ text "broker_policy_sha256" →
        (derived lib broker raw rawEvidence).artifactHashes[k]? = none := by
  unfold derived
  cases broker.policy.sha256 lib with
  | error x => exact ⟨rfl, rfl, fun _ _ ↦ rfl⟩
  | ok policyDigest =>
    simp only [h]
    refine ⟨trivial, trivial, ?_⟩
    intro k hk
    rw [Std.ExtTreeMap.getElem?_insert, if_neg]
    · rfl
    · rw [Std.LawfulEqCmp.compare_eq_iff_eq]
      exact hk.symm

/-- For malformed evidence the policy hash, the challenge hash and the manifest digest were derived,
and no other hash. -/
theorem derived_of_malformedEvidence {policyDigest tokenHash : Text} {request : IssuanceRequest}
    {e : Exn} (hpolicy : broker.policy.sha256 lib = .ok policyDigest)
    (hrequest : validateIssuanceRequestRuntime raw = .ok request)
    (hhash : challengeTokenHash request.challenge = .ok tokenHash)
    (h : validateTpmEvidenceRuntime rawEvidence = .error e) :
    derived lib broker raw rawEvidence = ⟨some tokenHash, some request.manifestDigest,
      (∅ : ArtifactHashes).insert (text "broker_policy_sha256") policyDigest⟩ := by
  simp only [derived, hpolicy, hrequest, hhash, h]

end CapabilityBroker

namespace Deployment

variable {D : Deployment} {w : World} {tr pre post : D.Trace} {t b : Nat}
  {raw : RawIssuanceRequest} {manifest : Value} {rawEvidence : RawTpmEvidence}
  {s : Config Op Op.Reply World Call (Except Exn Answer)}

/-- An issuance writes after queries only. -/
theorem writesQuietly_issue (h : D.system.Run w tr s)
    (hc : Label.start t (.issue b raw manifest rawEvidence) ∈ tr) : WritesQuietly tr t := by
  intro pre e x r post he hwrites
  have hown : D.history t tr = D.history t pre ++ ⟨e, r⟩ :: D.history t post := System.own_split he
  have hg := h.guarantee_history (A := fun _ _ _ ↦ True) hc (body_sat _) hown fun _ _ _ _ ↦ trivial
  change issueGuarantee D.lib (D.broker b) raw manifest rawEvidence (D.history t pre) e at hg
  cases e with
  | consumeBrokerChallenge k =>
    obtain ⟨_, _, _, hquiet, _⟩ := hg
    exact hquiet
  | storeBrokerChallenge | storeResourceChallenge | spend => cases hg
  | clock | tokenHex | lib | sign | getResourceChallenge | invocationCount | inventoryLookup
  | recordInvocation => cases hwrites

/-- Minting in a plain environment passes on no `DecisionError`. -/
theorem denialReason_of_raised
    (hplain : ∀ e x r, Label.act t e x r ∈ tr → PlainIssue e x r) {h₁ : History}
    (hsub : h₁ ⊆ D.history t tr) {e : Exn} (hr : Raised h₁ e) :
    e.denialReason = .INTERNAL_ERROR := by
  have hmem : ∀ {op : Op} {r : op.Reply}, (⟨op, r⟩ : Event Op Op.Reply) ∈ h₁ →
      ∃ x, PlainIssue op x r := by
    intro op r hev
    obtain ⟨x, hl⟩ := System.mem_own.mp (hsub hev)
    exact ⟨x, hplain _ _ _ hl⟩
  cases hr with
  | clock hev =>
    obtain ⟨_, hp⟩ := hmem hev
    exact Plain.denialReason hp rfl
  | credentialSign hev =>
    obtain ⟨_, hp⟩ := hmem hev
    exact Plain.denialReason hp rfl
  | credentialBody hev =>
    obtain ⟨_, hp⟩ := hmem hev
    exact Plain.denialReason hp rfl
  | sign hev =>
    obtain ⟨_, hp⟩ := hmem hev
    exact Plain.denialReason hp rfl
  | invalid message he =>
    rw [he]
    rfl

/-- A call consumed the challenge of its own request, and wrote nothing else. -/
def ConsumedBrokerOwn (w : World) (tr : D.Trace) (t : Nat) (raw : RawIssuanceRequest) : Prop :=
  ∃ request tokenHash now, validateIssuanceRequestRuntime raw = .ok request ∧
    challengeTokenHash request.challenge = .ok tokenHash ∧
    WritesOnce w tr t (ConsumesBroker now tokenHash)

/-- What a refused issuance has written. -/
theorem writes_of_refused (h : D.system.Run w tr s)
    (hc : Label.start t (.issue b raw manifest rawEvidence) ∈ tr)
    (hplain : ∀ e x r, Label.act t e x r ∈ tr → PlainIssue e x r) {h₁ : History} {e : Exn}
    (hrefused : Refused raw rawEvidence h₁ e)
    (hext : Prog.ExtendedBy (fun e ↦ (e.isQuery || e.isSign) = true) h₁ (D.history t tr)) :
    Unwritten w tr t ∨
      e.denialReason = .INTERNAL_ERROR ∧ ConsumedBrokerOwn w tr t raw := by
  obtain ⟨q, hown, hq⟩ := hext
  cases hrefused with
  | early hquiet =>
    left
    apply unwritten_of_none
    intro ev hev
    rw [hown, List.mem_append] at hev
    rcases hev with hev | hev
    · exact not_writes_of_quiet hquiet hev
    · exact not_writes_of_served (hq ev hev)
  | @locked sub h₀ hh htyped =>
    rw [hh, List.append_assoc, List.singleton_append] at hown
    obtain ⟨pre, x, post, he, _, _⟩ := System.own_eq_append hown
    have hreply : .error e = (D.exec (.consumeBrokerChallenge sub.tokenHash) x
      (D.system.after w pre)).1 := h.reply_eq he
    have hfaults : x.2.Plain := hplain _ x (.error e) (by rw [he]; simp)
    rcases consumeBroker_error hfaults hreply.symm with hsame | ⟨hinternal, row, now, hs, hdb⟩
    · exact .inl (unwritten_of_same (writesQuietly_issue h hc) he rfl hsame)
    · refine .inr ⟨hinternal, sub.request, sub.tokenHash, now, htyped.request, htyped.hashed, ?_⟩
      apply writesOnce_of_write (writesQuietly_issue h hc) he rfl
      have hstore : (D.exec (.consumeBrokerChallenge sub.tokenHash) x
          (D.system.after w pre)).2.store =
            (D.system.after w pre).store.consumeBroker sub.tokenHash now := hdb
      rw [hstore]
      exact hs.consumes
  | @unminted sub h₀ q' hh htyped hraised =>
    right
    refine ⟨denialReason_of_raised hplain ?_ hraised, ?_⟩
    · rw [hown]
      exact List.subset_append_left _ _
    rw [hh, List.append_assoc, List.cons_append] at hown
    obtain ⟨pre, x, post, he, _, _⟩ := System.own_eq_append hown
    have hreply : .ok () = (D.exec (.consumeBrokerChallenge sub.tokenHash) x
      (D.system.after w pre)).1 := h.reply_eq he
    obtain ⟨row, now, _, hs, hdb⟩ := consumeBrokerChallenge_ok (Prod.ext hreply.symm rfl)
    refine ⟨sub.request, sub.tokenHash, now, htyped.request, htyped.hashed, ?_⟩
    apply writesOnce_of_write (writesQuietly_issue h hc) he rfl
    have hstore : (D.exec (.consumeBrokerChallenge sub.tokenHash) x
        (D.system.after w pre)).2.store =
          (D.system.after w pre).store.consumeBroker sub.tokenHash now := hdb
    rw [hstore]
    exact hs.consumes

/-- What the denial receipt of an issuance carries: what was derived, under a fresh identifier and
the time of the decision. -/
def ReceiptsDerived (D : Deployment) (h : History) (b : Nat) (raw : RawIssuanceRequest)
    (rawEvidence : RawTpmEvidence) (d : Decision) : Prop :=
  ∃ payload receiptId decidedAt,
    ⟨.sign (D.broker b).receiptSigner payload, .ok d.receipt⟩ ∈ h ∧
    payload.toReceiptFields = (D.broker b).receiptFields .deny d.reason none
      (derived D.lib (D.broker b) raw rawEvidence).tokenHash
      (derived D.lib (D.broker b) raw rawEvidence).manifestDigest
      (derived D.lib (D.broker b) raw rawEvidence).artifactHashes receiptId decidedAt

/-- How a call of `issue` that is denied ends. -/
theorem issue_denied :
    (D.system.body (.issue b raw manifest rawEvidence)).Sat (fun _ _ ↦ True) (fun _ _ ↦ True)
      (fun h' a ↦ ∀ d, a = .ok (.decision d) → d.allowed = false →
        d.result = none ∧ ∃ h₁ e, Refused raw rawEvidence h₁ e ∧ d.reason = e.denialReason ∧
          Prog.ExtendedBy (fun e ↦ (e.isQuery || e.isSign) = true) h₁ h' ∧
          ReceiptsDerived D h' b raw rawEvidence d) [] := by
  apply Body.sat_prog.mpr
  apply Body.Sat.map
  apply issue_ended.mono
  intro h' r _ hr d hd
  cases r with
  | error e => cases hd
  | ok d' =>
    cases hd
    exact hr d rfl

/-- A failed issuance is atomic, in every run among any other calls and crashes and with a failure
at any of its steps: it returns no result, it wrote nothing unless its reason is `INTERNAL_ERROR`,
when it may have consumed its own challenge, and its receipt carries what was derived before the
step that failed. -/
theorem failed_issuance_atomic (h : D.system.Run w tr s)
    (hc : Label.start t (.issue b raw manifest rawEvidence) ∈ tr)
    (hplain : ∀ e x r, Label.act t e x r ∈ tr → PlainIssue e x r) {d : Decision}
    (hf : Label.finish t (.ok (.decision d)) ∈ tr) (hdenied : d.allowed = false) :
    d.result = none ∧
    (d.reason ≠ .INTERNAL_ERROR → Unwritten w tr t) ∧
    (d.reason = .INTERNAL_ERROR → Unwritten w tr t ∨ ConsumedBrokerOwn w tr t raw) ∧
    ReceiptsDerived D (D.history t tr) b raw rawEvidence d ∧
    (∀ e, validateIssuanceRequestRuntime raw = .error e →
      (derived D.lib (D.broker b) raw rawEvidence).tokenHash = none ∧
      (derived D.lib (D.broker b) raw rawEvidence).manifestDigest = none ∧
      ∀ k, k ≠ text "broker_policy_sha256" →
        (derived D.lib (D.broker b) raw rawEvidence).artifactHashes[k]? = none) ∧
    (∀ policyDigest request tokenHash e, (D.broker b).policy.sha256 D.lib = .ok policyDigest →
      validateIssuanceRequestRuntime raw = .ok request →
      challengeTokenHash request.challenge = .ok tokenHash →
      validateTpmEvidenceRuntime rawEvidence = .error e →
      derived D.lib (D.broker b) raw rawEvidence = ⟨some tokenHash, some request.manifestDigest,
        (∅ : ArtifactHashes).insert (text "broker_policy_sha256") policyDigest⟩) := by
  obtain ⟨p, hpath, hdone⟩ := h.history hc
  rw [hdone _ hf] at hpath
  obtain ⟨hresult, h₁, e, hrefused, hreason, hext, hreceipt⟩ :=
    issue_denied.path hpath (fun _ _ _ _ ↦ trivial) d rfl hdenied
  have hwrites := writes_of_refused h hc hplain hrefused hext
  rw [← hreason] at hwrites
  refine ⟨hresult, ?_, ?_, hreceipt, ?_, ?_⟩
  · intro hne
    rcases hwrites with hun | ⟨hinternal, _⟩
    · exact hun
    · exact absurd hinternal hne
  · intro _
    rcases hwrites with hun | ⟨_, hown⟩
    · exact .inl hun
    · exact .inr hown
  · intro x hx
    exact derived_of_malformedRequest hx
  · intro policyDigest request tokenHash x hpolicy hrequest hhash hx
    exact derived_of_malformedEvidence hpolicy hrequest hhash hx

end Deployment

namespace Demo

/-- Every move of the schedule is made in a scenario. -/
theorem act_of_mem_twoIssuances {t : Nat} {x : (e : Op) → e.Input}
    (h : Move.act t x ∈ twoIssuances) : ∃ now seed, x = (scenario now seed).input := by
  simp only [twoIssuances, replayedIssuance, issuance, Deployment.alone, List.mem_append,
    List.mem_cons, List.mem_replicate, reduceCtorEq, false_or, List.not_mem_nil, or_false] at h
  rcases h with ((⟨_, _, rfl⟩ | ⟨_, _, rfl⟩) | ⟨_, _, rfl⟩) | ⟨_, _, rfl⟩ | ⟨_, _, rfl⟩
  · exact ⟨_, _, rfl⟩
  · exact ⟨_, _, rfl⟩
  · exact ⟨_, _, rfl⟩
  · exact ⟨_, _, rfl⟩
  · exact ⟨_, _, rfl⟩

/-- Nothing in the schedule raises a `DecisionError` out of place. -/
theorem plainIssue_twoIssuances {tr : deployment.Trace}
    {s : Config Op Op.Reply World Call (Except Exn Answer)}
    (hrun : deployment.system.Run .initial tr s)
    (hmade : List.Forall₂ Move.Makes twoIssuances tr) (hsigned : signedAll tr = true) {t : Nat}
    {e : Op} {x : e.Input} {r : e.Reply} (hl : Label.act t e x r ∈ tr) : PlainIssue e x r := by
  obtain ⟨m, hm, hmakes⟩ := exists_move_of_mem hmade hl
  have hone := List.all_eq_true.mp hsigned _ hl
  obtain ⟨pre, post, he⟩ := List.append_of_mem hl
  have hreply := hrun.reply_eq he
  cases m with
  | start => cases hmakes
  | finish => cases hmakes.choose_spec
  | crash => cases hmakes
  | act t' x' =>
    obtain ⟨now, seed, rfl⟩ := act_of_mem_twoIssuances hm
    obtain ⟨e', r', heq⟩ := hmakes
    cases heq
    have hhonest := plainInput_scenario now seed e
    cases e with
    | clock =>
      rw [hreply]
      exact hhonest
    | lib c =>
      rw [hreply]
      cases c with
      | credentialSign | credentialBody => exact hhonest
      | verifyChallenge | manifestNormalize | manifestCanonicalHash | verifyManifest
      | ed25519PublicKey | ed25519Verify | readPcrSelection | evaluationTime
      | loadPemX509Certificates | verifyTpmQuote | appraise | credentialFromDict
      | holderProofFromDict | verifyHolderProof | verifyChain => trivial
    | sign =>
      cases r with
      | ok receipt => exact nofun
      | error x => cases hone
    | consumeBrokerChallenge => exact nofun
    | tokenHex | storeBrokerChallenge | storeResourceChallenge | getResourceChallenge | spend
    | recordInvocation | invocationCount | inventoryLookup => trivial

end Demo

/-- The law at a replayed issuance: it wrote nothing. -/
theorem Deployment.failed_issuance_atomic_replayed :
    ∃ tr s d, Demo.deployment.system.Run .initial tr s ∧
      Label.finish 2 (.ok (.decision d)) ∈ tr ∧ d.reason = .CHALLENGE_CONSUMED ∧
      d.result = none ∧ Unwritten .initial tr 2 := by
  obtain ⟨tr, s, hrun, hmade, -, hdenials, -, -, -, hsigned, -⟩ := Demo.exists_twoIssuances
  obtain ⟨d, hf, hdenied, hreason⟩ := finish_of_mem_denials
    (show (2, Reason.CHALLENGE_CONSUMED) ∈ Demo.deployment.denials tr by rw [hdenials]; decide)
  obtain ⟨l, hl, hmakes⟩ := exists_label_of_mem hmade (m := .start 2 (.issue 0
    (Demo.issuanceRequest (Demo.brokerToken 1000 1)) Demo.manifest Demo.evidence)) (by
      simp [Demo.twoIssuances, Demo.replayedIssuance, Deployment.alone])
  cases hmakes
  have hlaw := failed_issuance_atomic hrun hl
    (fun _ _ _ ↦ Demo.plainIssue_twoIssuances hrun hmade hsigned) hf hdenied
  have hne : d.reason ≠ .INTERNAL_ERROR := by
    rw [hreason]
    decide
  exact ⟨tr, s, d, hrun, hf, hreason, hlaw.1, hlaw.2.1 hne⟩

end Atcap
