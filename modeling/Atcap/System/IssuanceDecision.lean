import Atcap.Broker.Decision
import Atcap.System.Decision

/-!
# The decision of an issuance that runs alone

From every reachable state, an `issue` that no other call disturbs allows exactly what the
reference allows, over the database of that state and one clock value.
-/

namespace Atcap

open Base System CapabilityBroker

namespace Deployment

variable {D : Deployment} {x : (e : Op) → e.Input} {w : World} {now : Int}

/-- A working store, a working signer and a clock that stands at `now`. -/
structure BrokerSteady (D : Deployment) (b : Nat) (x : (e : Op) → e.Input) (now : Int) : Prop where
  clock : x .clock = .ok now
  time : 0 ≤ now ∧ now < 2 ^ 53
  consume : ∀ tokenHash, x (.consumeBrokerChallenge tokenHash) = (.ok now, Faults.none)
  working : (D.broker b).receiptSigner.Working D.lib
  available : ∀ payload, x (.sign (D.broker b).receiptSigner payload) = none

/-- A call that runs alone at a fixed time is answered from its occasion. -/
theorem occasion_answers {b : Nat} (hx : D.BrokerSteady b x now) :
    Occasion.Answers (occasion x w now) (Prog.Undisturbed (D.system.execWith x) w) := by
  constructor
  · intro h r hr
    exact Eq.trans hr hx.clock
  · intro h c r hr
    exact hr
  · intro h tokenHash r hq hr
    rw [Prog.Undisturbed, stateAfter_quiet hq] at hr
    change r = (Store.consumeBrokerChallenge tokenHash (x (.consumeBrokerChallenge tokenHash)).1
      (x (.consumeBrokerChallenge tokenHash)).2 w.store).1 at hr
    rw [hr, hx.consume]
    rfl

/-- A call that runs alone gets the replies that signing needs. -/
theorem BrokerSteady.signing {b : Nat} (hx : D.BrokerSteady b x now) :
    SigningReplies D.lib (D.broker b).receiptSigner
      (Prog.Undisturbed (D.system.execWith x) w) := by
  constructor
  · intro h n r hr
    exact ⟨(x (.tokenHex n)).val, (x (.tokenHex n)).property, hr⟩
  · intro h r hr
    exact ⟨now, Eq.trans hr hx.clock, hx.time⟩
  · intro h payload r hr
    change r = (D.exec (.sign (D.broker b).receiptSigner payload)
      (x (.sign (D.broker b).receiptSigner payload)) _).1 at hr
    rw [hx.available] at hr
    exact hr

/-- SQLite stores the times that JSON represents. -/
theorem bindInt_of_time (h : 0 ≤ now ∧ now < 2 ^ 53) : bindInt now = .ok () := by
  rw [bindInt, if_pos]
  omega

/-- An issuance that runs alone allows exactly what the reference allows. -/
theorem solo_issue (law : Rfc8785 D.lib) {b : Nat} {raw : RawIssuanceRequest} {manifest : Value}
    {rawEvidence : RawTpmEvidence} (hx : D.BrokerSteady b x now) (hp : Policied (D.broker b))
    (he : EncodableRequest raw) (hm : Mints (occasion x w now)) :
    (∃ d, (D.system.solo x w (.issue b raw manifest rawEvidence)).2 = .ok (.decision d) ∧
      d.allowed = true) ↔
      (D.broker b).Allows D.lib (occasion x w now) raw manifest rawEvidence := by
  have hprog : (D.system.body (.issue b raw manifest rawEvidence)).Sat
      (Prog.Undisturbed (D.system.execWith x) w) (fun _ _ ↦ True)
      (fun _ a ↦ (∃ d, a = .ok (.decision d) ∧ d.allowed = true) ↔
        (D.broker b).Allows D.lib (occasion x w now) raw manifest rawEvidence) [] := by
    apply Body.sat_prog.mpr
    apply Body.Sat.map
    apply (issue_allows law (occasion_answers hx) hx.signing hx.working hp hm he
      (bindInt_of_time hx.time)).mono
    intro h' r _ hr
    rw [← hr]
    cases r with
    | error e =>
      constructor
      · rintro ⟨d, hd, _⟩
        cases hd
      · rintro ⟨d, hd, _⟩
        cases hd
    | ok d' =>
      constructor
      · rintro ⟨d, hd, hallowed⟩
        cases hd
        exact ⟨_, rfl, hallowed⟩
      · rintro ⟨d, hd, hallowed⟩
        cases hd
        exact ⟨_, rfl, hallowed⟩
  exact hprog.solo

/-- The exact decision of `issue`. From every reachable state, an issuance that runs alone at one
clock value that a receipt can state, with a working store and signer, a policy that receipts can
name and strings with a UTF-8 encoding, allows exactly what the reference allows. The call is a part
of a run of the system. -/
theorem issue_exact (law : Rfc8785 D.lib) {tr : D.Trace}
    {s : Config Op Op.Reply World Call (Except Exn Answer)} (h : D.system.Run .initial tr s)
    {b : Nat} {raw : RawIssuanceRequest} {manifest : Value} {rawEvidence : RawTpmEvidence}
    (hx : D.BrokerSteady b x now) (hp : Policied (D.broker b)) (he : EncodableRequest raw)
    (hm : Mints (occasion x s.shared now)) :
    let call := D.system.solo x s.shared (.issue b raw manifest rawEvidence)
    ((∃ d, call.2 = .ok (.decision d) ∧ d.allowed = true) ↔
      (D.broker b).Allows D.lib (occasion x s.shared now) raw manifest rawEvidence) ∧
    ∀ t, s.thread t = .idle → ∃ s', D.system.Run .initial (tr ++
      .start t (.issue b raw manifest rawEvidence) ::
        (D.system.labels x t call.1 ++ [.finish t call.2])) s' :=
  ⟨solo_issue law hx hp he hm, fun _ ht ↦ h.solo x _ ht⟩

end Deployment

/-! ### A request that is allowed -/

namespace Demo

/-- The policy of the small broker is one that receipts can name. -/
theorem policied_broker : Policied broker := by
  constructor
  · decide
  · intro dict hdict
    obtain rfl := Except.ok.inj ((show broker.policy.publicDict = .ok _ from rfl).symm.trans hdict)
    decide +kernel

/-- The strings of the request have an encoding. -/
theorem encodableRequest_issuanceRequest (challenge : Text) (hc : challenge.encodable = true) :
    EncodableRequest (issuanceRequest challenge) := by
  intro request hrequest
  obtain rfl := Except.ok.inj ((show validateIssuanceRequestRuntime (issuanceRequest challenge) =
    .ok _ from rfl).symm.trans hrequest)
  rw [IssuanceRequest.toDict, Json.canonicalizable_dict]
  simp [IssuanceRequest.bodyMembers, Json.canonicalizable, Value.everywhere, issuanceVersion, hc]

/-- The packages of a scenario mint. -/
theorem mints_scenario (now : Int) (seed : UInt8) (w : World) :
    Mints (Deployment.occasion (scenario now seed).input w now) := by
  refine ⟨fun c _ ↦ ⟨c.credentialId, rfl⟩, fun c ↦ ⟨_, rfl⟩, ?_⟩
  intro m digest hdigest
  cases hdigest
  exact List.cons_ne_nil _ _

/-- Whether an answer is an allowed decision. -/
def isAllowed : Except Exn Answer → Bool
  | .ok (.decision d) => d.allowed
  | _ => false

/-- The call of an issuance with the first broker challenge. -/
def issueFirst : Call := .issue 0 (issuanceRequest (brokerToken 1000 1)) manifest evidence

set_option maxRecDepth 100000 in
/-- After the issue of its challenge, the request is allowed, and raises at a negative time. -/
theorem exists_issuable : ∃ tr s, deployment.system.Run .initial tr s ∧
    (isAllowed (deployment.system.solo (scenario 1001 2).input s.shared issueFirst).2 &&
      !(deployment.system.solo (scenario (-1) 2).input s.shared issueFirst).2.isOk) = true :=
  Deployment.exists_run_of_play (deployment.alone 0 (.newChallenge 0) (scenario 1000 1) 4)
    (by decide +kernel)

/-- The small broker in a scenario of its time. -/
theorem brokerSteady_scenario {now : Int} {seed : UInt8} (hnow : 0 ≤ now ∧ now < 2 ^ 53) :
    deployment.BrokerSteady 0 (scenario now seed).input now :=
  ⟨rfl, hnow, fun _ ↦ rfl, working_standIn _, fun _ ↦ rfl⟩

/-- An allowed answer carries a decision. -/
theorem decision_of_isAllowed {a : Except Exn Answer} (h : isAllowed a = true) :
    ∃ d, a = .ok (.decision d) ∧ d.allowed = true := by
  unfold isAllowed at h
  split at h
  · next d => exact ⟨d, rfl, h⟩
  · cases h

/-- What is allowed at a time was allowed before, since the packages of the scenarios do not look at
the time. -/
theorem allows_earlier {w : World} {now now' : Int} {seed : UInt8} (hle : now' ≤ now)
    (h : broker.Allows standIn (Deployment.occasion (scenario now seed).input w now)
      (issuanceRequest (brokerToken 1000 1)) manifest evidence) :
    broker.Allows standIn (Deployment.occasion (scenario now' seed).input w now')
      (issuanceRequest (brokerToken 1000 1)) manifest evidence := by
  obtain ⟨request, evidence, hrequest, hevidence, happraises, row, hrow⟩ := h
  exact ⟨request, evidence, hrequest, hevidence,
    ⟨rfl, happraises.manifest, happraises.bound, happraises.holder, happraises.endorsed,
      happraises.quote⟩, row, hrow.stored, hrow.unconsumed, lt_of_le_of_lt hle hrow.fresh⟩

end Demo

/-- The decision at a state that holds the challenge of the request: the reference allows it. -/
theorem Deployment.issue_exact_allowed : ∃ tr s, Demo.deployment.system.Run .initial tr s ∧
    Demo.broker.Allows standIn (occasion (Demo.scenario 1001 2).input s.shared 1001)
      (Demo.issuanceRequest (Demo.brokerToken 1000 1)) Demo.manifest Demo.evidence := by
  obtain ⟨tr, s, hrun, hallowed⟩ := Demo.exists_issuable
  have hencodable : EncodableRequest (Demo.issuanceRequest (Demo.brokerToken 1000 1)) :=
    Demo.encodableRequest_issuanceRequest _ (encodable_challengeToken _ _ (encodable_hex _))
  exact ⟨tr, s, hrun, (issue_exact (D := Demo.deployment) rfc8785_standIn hrun
    (Demo.brokerSteady_scenario (by decide)) Demo.policied_broker hencodable
    (Demo.mints_scenario 1001 2 s.shared)).1.mp
      (Demo.decision_of_isAllowed (Bool.and_eq_true _ _ |>.mp hallowed).1)⟩

/-- Not every clock value has an allowed issuance: at a state that holds the challenge of the
request, the reference allows it before 1970 too, but the call raises, since a receipt states no
negative time. -/
theorem Deployment.issue_raises_before_epoch : ∃ tr s, Demo.deployment.system.Run .initial tr s ∧
    Policied Demo.broker ∧ EncodableRequest (Demo.issuanceRequest (Demo.brokerToken 1000 1)) ∧
    Mints (occasion (Demo.scenario (-1) 2).input s.shared (-1)) ∧
    Demo.broker.Allows standIn (occasion (Demo.scenario (-1) 2).input s.shared (-1))
      (Demo.issuanceRequest (Demo.brokerToken 1000 1)) Demo.manifest Demo.evidence ∧
    (Demo.deployment.system.solo (Demo.scenario (-1) 2).input s.shared Demo.issueFirst).2.isOk =
      false := by
  obtain ⟨tr, s, hrun, hissuable⟩ := Demo.exists_issuable
  rw [Bool.and_eq_true, Bool.not_eq_true'] at hissuable
  have hencodable : EncodableRequest (Demo.issuanceRequest (Demo.brokerToken 1000 1)) :=
    Demo.encodableRequest_issuanceRequest _ (encodable_challengeToken _ _ (encodable_hex _))
  have hsteady : Demo.deployment.BrokerSteady 0 (Demo.scenario 1001 2).input 1001 :=
    Demo.brokerSteady_scenario (by decide)
  have hallows := (solo_issue rfc8785_standIn hsteady Demo.policied_broker hencodable
    (Demo.mints_scenario 1001 2 s.shared)).mp (Demo.decision_of_isAllowed hissuable.1)
  exact ⟨tr, s, hrun, Demo.policied_broker, hencodable, Demo.mints_scenario (-1) 2 s.shared,
    Demo.allows_earlier (by decide) hallows, hissuable.2⟩

end Atcap
