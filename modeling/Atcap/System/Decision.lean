import Atcap.Inventory.Decision
import Atcap.System.Schedule

/-!
# The decision of a redemption that runs alone

From every reachable state, a `redeem` that no other call disturbs decides as the decision table
says, over the database of that state and one clock value.
-/

namespace Atcap

open Base System InventoryApplication

namespace Deployment

variable (D : Deployment)

/-- A working store and a clock that stands at `now`. -/
structure Steady (x : (e : Op) → e.Input) (now : Int) : Prop where
  clock : x .clock = .ok now
  read : ∀ tokenHash, x (.getResourceChallenge tokenHash) = Faults.none
  spend : ∀ a, x (.spend a) = (.ok now, Faults.none)

/-- What a redemption is decided from, in a world and with what the environment decides. -/
def occasion (x : (e : Op) → e.Input) (w : World) (now : Int) : Occasion where
  answer := fun c ↦ x (.lib c)
  store := w.store
  now := now

variable {D} {x : (e : Op) → e.Input} {w : World} {now : Int}

/-- Queries leave the world as it is. -/
theorem exec_query {e : Op} (he : e.isQuery = true) (y : e.Input) (w : World) :
    (D.exec e y w).2 = w := by
  cases e with
  | clock | tokenHex | lib | getResourceChallenge | invocationCount => rfl
  | sign | storeBrokerChallenge | consumeBrokerChallenge | storeResourceChallenge | spend
  | recordInvocation | inventoryLookup => cases he

/-- A quiet history leaves the world as it is. -/
theorem stateAfter_quiet {h : History} (hq : Quiet h) :
    Prog.stateAfter (D.system.execWith x) w h = w := by
  induction h using List.reverseRecOn with
  | nil => rfl
  | append_singleton h ev ih =>
    rw [Prog.stateAfter_snoc, ih fun ev' hev ↦ hq ev' (List.mem_append_left _ hev)]
    exact exec_query (hq ev (by simp)) _ _

/-- A call that runs alone at a fixed time is answered from its occasion. -/
theorem occasion_replies (hx : Steady x now) :
    Occasion.Replies (occasion x w now) (Prog.Undisturbed (D.system.execWith x) w) := by
  constructor
  · intro h r hr
    exact Eq.trans hr hx.clock
  · intro h c r hr
    exact hr
  · intro h tokenHash r hq hr
    rw [Prog.Undisturbed, stateAfter_quiet hq] at hr
    exact Eq.trans hr (congrArg (w.store.getResourceChallenge tokenHash) (hx.read tokenHash))
  · intro h a r hq hr
    rw [Prog.Undisturbed, stateAfter_quiet hq] at hr
    change r = (Store.consumeChallengeAndSpendCredential a (x (.spend a)).1 (x (.spend a)).2
      w.store).1 at hr
    rw [hr, hx.spend]
    rfl

/-- Before an invocation the counters are as they were. -/
theorem counter_unserved {h : History} (hu : Unserved h) :
    (Prog.stateAfter (D.system.execWith x) w h).counter = w.counter := by
  induction h using List.reverseRecOn with
  | nil => rfl
  | append_singleton h ev ih =>
    rw [Prog.stateAfter_snoc, ← ih fun ev' hev ↦ hu ev' (List.mem_append_left _ hev)]
    have he := hu ev (by simp)
    rcases ev with ⟨e, r⟩
    cases e with
    | clock | tokenHex | lib | getResourceChallenge | invocationCount | spend => rfl
    | sign | storeBrokerChallenge | consumeBrokerChallenge | storeResourceChallenge
    | recordInvocation | inventoryLookup => cases he

/-- What the signing of a denial needs in a world: a working signer, a policy with canonical
strings, a clock and a counter that JSON represents, and no outage. -/
structure Signs (D : Deployment) (i : Nat) (x : (e : Op) → e.Input) (w : World) (now : Int) :
    Prop where
  working : (D.app i).receiptSigner.Working D.lib
  named : (D.app i).policy.Named
  encodable : (D.app i).policy.Encodable
  available : ∀ payload, x (.sign (D.app i).receiptSigner payload) = none
  time : 0 ≤ now ∧ now < 2 ^ 53
  counter : w.counter i < 2 ^ 53

/-- A call that runs alone gets the replies that signing needs. -/
theorem Signs.signing {i : Nat} (hs : D.Signs i x w now) (hx : Steady x now) :
    (D.app i).Signing D.lib (Prog.Undisturbed (D.system.execWith x) w) := by
  refine ⟨hs.working, hs.named, hs.encodable, ?_, ?_, ?_⟩
  · intro h n r hr
    exact ⟨(x (.tokenHex n)).val, (x (.tokenHex n)).property, hr⟩
  · intro h r hr
    exact ⟨now, Eq.trans hr hx.clock, hs.time⟩
  · intro h payload r hr
    change r = (D.exec (.sign (D.app i).receiptSigner payload)
      (x (.sign (D.app i).receiptSigner payload)) _).1 at hr
    rw [hs.available] at hr
    exact hr

/-- What is proved of the body of a redemption holds when the call runs alone. -/
theorem solo_redeem {i : Nat} {request : LookupInput} {Q : History → Except Exn Decision → Prop}
    (hsat : Body.Sat (Prog.Undisturbed (D.system.execWith x) w) (fun _ _ ↦ True)
      (fun h r _ ↦ Q h r) ((D.app i).redeem D.lib i request) [] ()) :
    ∃ r, (D.system.solo x w (.redeem i request)).2 = r.map Answer.decision ∧
      Q (D.system.solo x w (.redeem i request)).1 r := by
  have hprog : (D.system.body (.redeem i request)).Sat
      (Prog.Undisturbed (D.system.execWith x) w) (fun _ _ ↦ True)
      (fun h a ↦ ∃ r, a = r.map Answer.decision ∧ Q h r) [] := by
    change (D.body (.redeem i request)).prog.Sat _ _ _ []
    rw [Body.sat_prog]
    apply Body.Sat.map
    apply hsat.mono
    intro h r _ hq
    exact ⟨r, rfl, hq⟩
  exact hprog.solo

/-- The exact decision of `redeem`. From every reachable state, a redemption that runs alone at
one clock value over a working store enters the handler exactly when every check of the decision
table holds. Otherwise it enters nothing, every decision it returns is a denial with the reason of
the first check that fails, and with a working signer it returns that denial under a receipt that
the verifier accepts. The call is a part of a run of the system. -/
theorem redeem_exact (law : Rfc8785 D.lib) {tr : D.Trace}
    {s : Config Op Op.Reply World Call (Except Exn Answer)} (h : D.system.Run .initial tr s)
    {i : Nat} {request : LookupInput} (hx : Steady x now)
    (ho : (D.app i).Orderly request (occasion x s.shared now)) :
    let table := (D.app i).decisionTable D.lib request (occasion x s.shared now)
    let call := D.system.solo x s.shared (.redeem i request)
    ((∃ ev ∈ call.1, ev.op.entersHandler = true) ↔ ∀ c ∈ table, c.holds = true) ∧
    (∀ reason, firstFailing table = some reason →
      (∀ a, call.2 = .ok a → ∃ receipt, a = .decision ⟨false, reason, receipt, none⟩) ∧
      (D.Signs i x s.shared now →
        (∀ c, credential? request (occasion x s.shared now) = some c →
          c.credentialId.encodable = true) →
        ∃ receipt fields, call.2 = .ok (.decision ⟨false, reason, receipt, none⟩) ∧
          fields.decision = .deny ∧ fields.reason = reason ∧
          (D.app i).receiptSigner.Signed D.lib fields receipt)) ∧
    ∀ t, s.thread t = .idle → ∃ s', D.system.Run .initial
      (tr ++ .start t (.redeem i request) :: (D.system.labels x t call.1 ++ [.finish t call.2]))
        s' := by
  intro table call
  obtain ⟨digest, hd⟩ := exists_argumentsDigest law request.toInventoryArguments
  have hA : Occasion.Replies (occasion x s.shared now)
      (Prog.Undisturbed (D.system.execWith x) s.shared) := occasion_replies hx
  obtain ⟨r, hr, hpost⟩ := solo_redeem (redeem_decides hA ho (i := i) hd)
  refine ⟨?_, ?_, fun t ht ↦ h.solo x _ ht⟩
  · rw [← firstFailing_eq_none]
    cases hf : firstFailing table with
    | none =>
      rw [show firstFailing ((D.app i).decisionTable D.lib request _) = none from hf] at hpost
      exact iff_of_true hpost rfl
    | some reason =>
      rw [show firstFailing ((D.app i).decisionTable D.lib request _) = some reason from hf]
        at hpost
      refine iff_of_false ?_ nofun
      rintro ⟨ev, hev, henters⟩
      rw [hpost.1 ev hev] at henters
      cases henters
  · intro reason hf
    rw [show firstFailing ((D.app i).decisionTable D.lib request _) = some reason from hf] at hpost
    constructor
    · intro a ha
      rw [show call.2 = _ from hr] at ha
      cases r with
      | error e => cases ha
      | ok d =>
        cases ha
        obtain ⟨hallowed, hreason, hresult⟩ := hpost.2 d rfl
        cases d
        simp only at hallowed hreason hresult
        subst hallowed hreason hresult
        exact ⟨_, rfl⟩
    · intro hs he
      have hcount : ∀ h' (m : Nat), Unserved h' →
          Prog.Undisturbed (D.system.execWith x) s.shared h' ⟨.invocationCount i, m⟩ →
            m < 2 ^ 53 := by
        intro h' m hu hm
        have hm' : m = (Prog.stateAfter (D.system.execWith x) s.shared h').counter i := hm
        rw [hm', counter_unserved hu]
        exact hs.counter
      obtain ⟨r', hr', hdenied⟩ :=
        solo_redeem (redeem_denies law (hs.signing hx) hcount hA ho he hd)
      obtain ⟨receipt, fields, rfl, hdeny, hreason, hsigned⟩ := hdenied reason hf
      exact ⟨receipt, fields, hr', hdeny, hreason, hsigned⟩

end Deployment

/-! ### A redemption that is admitted -/

namespace Demo

/-- The stand-in of the packages is orderly for a request with a well-formed token. -/
theorem orderly_lookupInput (w : World) (now : Int) (hnow : bindInt now = .ok ()) :
    app.Orderly (lookupInput 1000 1) (Deployment.occasion (scenario now 2).input w now) := by
  constructor
  · intro e he
    change orRaise (StandIn.credentialOf (text "s") (.dict (lookupInput 1000 1).credential))
      Exn.invalidCredential = .error e at he
    cases ho : StandIn.credentialOf (text "s") (.dict (lookupInput 1000 1).credential) with
    | none =>
      rw [ho] at he
      cases he
      exact .inl rfl
    | some c =>
      rw [ho] at he
      cases he
  · intro c e he
    change StandIn.verifyChain [c] _ now = .error e at he
    simp only [StandIn.verifyChain, bind_eq_error, raiseIf_eq_error] at he
    obtain ⟨-, rfl⟩ | ⟨-, -, -, rfl⟩ := he
    · rfl
    · rfl
  · intro c hc
    change StandIn.verifyChain [c] _ now = .ok () at hc
    simp only [StandIn.verifyChain, bind_eq_ok, raiseIf_eq_ok, not_or] at hc
    obtain ⟨-, -, hbefore, hafter⟩ := hc
    constructor
    · intro n hn
      change n ≤ now
      simpa [hn] using hbefore
    · intro n hn
      change now ≤ n
      simpa [hn] using hafter
  · intro e he
    cases he
  · intro proof hproof
    cases hproof
    exact encodable_challengeToken _ _ (encodable_hex _)
  · intro check e he
    change raiseIf _ Exn.holderProofInvalid = .error e at he
    exact (raiseIf_eq_error.mp he).2
  · exact hnow

/-- The policy of the small deployment has a canonical form. -/
theorem encodable_resourcePolicy : resourcePolicy.Encodable := by
  unfold ResourcePolicy.Encodable
  decide

/-- The scenarios of the small deployment sign. -/
theorem signs_scenario {w : World} {now : Int} {seed : UInt8} (hnow : 0 ≤ now ∧ now < 2 ^ 53)
    (hcounter : w.counter 0 < 2 ^ 53) : deployment.Signs 0 (scenario now seed).input w now where
  working := working_standIn _
  named := ⟨nofun, nofun, nofun⟩
  encodable := encodable_resourcePolicy
  available := fun _ ↦ rfl
  time := hnow
  counter := hcounter

/-- Whether a redemption is admitted while its challenge lasts and expired one second later. -/
def admittedUntilExpiry (w : World) : Bool :=
  (app.decisionTable standIn (lookupInput 1000 1)
      (Deployment.occasion (scenario 1001 2).input w 1001)).all Check.holds &&
    decide (firstFailing (app.decisionTable standIn (lookupInput 1000 1)
      (Deployment.occasion (scenario 1061 2).input w 1061)) = some .CREDENTIAL_EXPIRED) &&
    decide (w.counter 0 < 2 ^ 53)

set_option maxRecDepth 100000 in
/-- After the issue of its challenge, every check of a redemption holds until it expires. -/
theorem exists_admissible : ∃ tr s, deployment.system.Run .initial tr s ∧
    admittedUntilExpiry s.shared = true :=
  Deployment.exists_run_of_play
    (deployment.alone 0 (.issueResourceChallenge 0 credentialId arguments recordId.val)
      (scenario 1000 1) 4) (by decide +kernel)

end Demo

/-- The decision at a state that holds the challenge of the request: at 1001 the call enters the
handler, and at 1061 it returns the signed denial of an expired credential. -/
theorem Deployment.redeem_exact_admitted : ∃ tr s, Demo.deployment.system.Run .initial tr s ∧
    (∃ ev ∈ (Demo.deployment.system.solo (Demo.scenario 1001 2).input s.shared
      (.redeem 0 (Demo.lookupInput 1000 1))).1, ev.op.entersHandler = true) ∧
    ∃ receipt fields, (Demo.deployment.system.solo (Demo.scenario 1061 2).input s.shared
        (.redeem 0 (Demo.lookupInput 1000 1))).2 =
        .ok (.decision ⟨false, .CREDENTIAL_EXPIRED, receipt, none⟩) ∧
      fields.decision = .deny ∧ fields.reason = .CREDENTIAL_EXPIRED ∧
      Demo.app.receiptSigner.Signed standIn fields receipt := by
  obtain ⟨tr, s, hrun, hchecked⟩ := Demo.exists_admissible
  simp only [Demo.admittedUntilExpiry, Bool.and_eq_true, decide_eq_true_eq] at hchecked
  obtain ⟨⟨hholds, hexpired⟩, hcounter⟩ := hchecked
  have hsteady : ∀ now, Steady (Demo.scenario now 2).input now :=
    fun _ ↦ ⟨rfl, fun _ ↦ rfl, fun _ ↦ rfl⟩
  have hentered := redeem_exact (D := Demo.deployment) rfc8785_standIn hrun (i := 0) (hsteady 1001)
    (Demo.orderly_lookupInput s.shared 1001 rfl)
  have hdenied := redeem_exact (D := Demo.deployment) rfc8785_standIn hrun (i := 0) (hsteady 1061)
    (Demo.orderly_lookupInput s.shared 1061 rfl)
  have hencodable : ∀ c, credential? (Demo.lookupInput 1000 1)
      (occasion (Demo.scenario 1061 2).input s.shared 1061) = some c →
      c.credentialId.encodable = true := by
    intro c hc
    obtain rfl := Option.some.inj hc
    exact encodable_hex _
  exact ⟨tr, s, hrun, hentered.1.mpr (List.all_eq_true.mp hholds),
    (hdenied.2.1 _ hexpired).2 (Demo.signs_scenario (by decide) hcounter) hencodable⟩

set_option maxRecDepth 100000 in
/-- Not every clock value has a decision: before 1970 the table still names a reason, and over a
working store, signer and packages the call raises, since a receipt states no negative time. -/
theorem Deployment.redeem_raises_before_epoch :
    let x := (Demo.scenario (-1) 2).input
    let request := Demo.lookupInput 1000 1
    Steady x (-1) ∧ Demo.app.Orderly request (occasion x .initial (-1)) ∧
      Demo.app.receiptSigner.Working standIn ∧
      (∀ payload, x (.sign Demo.app.receiptSigner payload) = none) ∧
      firstFailing (Demo.app.decisionTable standIn request (occasion x .initial (-1))) =
        some .CREDENTIAL_EXPIRED ∧
      (Demo.deployment.system.solo x .initial (.redeem 0 request)).2.isOk = false :=
  ⟨⟨rfl, fun _ ↦ rfl, fun _ ↦ rfl⟩, Demo.orderly_lookupInput _ (-1) rfl, working_standIn _,
    fun _ ↦ rfl, by decide +kernel, by decide +kernel⟩

end Atcap
