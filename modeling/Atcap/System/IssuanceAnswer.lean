import Atcap.Broker.Answer
import Atcap.System.Answer
import Atcap.System.IssuanceDecision

/-!
# When an issuance of a run is answered

Among any other calls, over a working signer, clock and store, an issuance returns a decision under
an accepted receipt exactly when what a denial states of its inputs has an encoding, and no package
raised a `DecisionError` with a reason of the allow path. Otherwise it raises.
-/

namespace Atcap

open Base System CapabilityBroker

/-- A step in which the clock stands in the range of exact integers, and the signer and the store
do not fail. The packages answer as they like. -/
def BrokerInput : (e : Op) → e.Input → Prop
  | .clock, reading => ∃ now, reading = .ok now ∧ 0 ≤ now ∧ now < 2 ^ 53
  | .sign .., outage => outage = none
  | .consumeBrokerChallenge _, x =>
      (∃ now, x.1 = .ok now ∧ 0 ≤ now ∧ now < 2 ^ 53) ∧ x.2 = Faults.none
  | _, _ => True

namespace Deployment

variable {D : Deployment} {w : World} {tr : D.Trace} {t b : Nat} {raw : RawIssuanceRequest}
  {manifest : Value} {rawEvidence : RawTpmEvidence}
  {s : Config Op Op.Reply World Call (Except Exn Answer)}

/-- The steps of an issuance in a working environment are those of working collaborators. -/
theorem brokerServing_of_working (h : D.system.Run w tr s)
    (hw : (D.broker b).receiptSigner.Working D.lib)
    (hworking : ∀ e x r, Label.act t e x r ∈ tr → BrokerInput e x) :
    (D.broker b).Serving D.lib (Taken tr t) := by
  have hstep : ∀ {h : History} {e : Op} {r : e.Reply}, Taken tr t h ⟨e, r⟩ →
      ∃ pre x, BrokerInput e x ∧ r = (D.exec e x (D.system.after w pre)).1 := by
    rintro h' e r ⟨pre, x, post, he, -⟩
    exact ⟨pre, x, hworking e x r (by rw [he]; simp), h.reply_eq he⟩
  refine ⟨hw, ⟨?_, ?_, ?_⟩, ?_⟩
  · intro h' n r hr
    obtain ⟨pre, x, -, rfl⟩ := hstep hr
    exact ⟨x.val, x.property, rfl⟩
  · intro h' r hr
    obtain ⟨pre, x, ⟨now, rfl, hnow⟩, rfl⟩ := hstep hr
    exact ⟨now, rfl, hnow⟩
  · intro h' payload r hr
    obtain ⟨pre, x, hx, rfl⟩ := hstep hr
    obtain rfl : x = none := hx
    rfl
  · intro h' tokenHash e hr
    obtain ⟨pre, x, ⟨⟨now, hnow, -⟩, hfaults⟩, hreply⟩ := hstep hr
    have hclock : Plain x.1 := by
      rw [hnow]
      exact plain_ok now
    have hnone : x.2.Plain := by
      rw [hfaults]
      exact nofun
    have hrefused := consumeBroker_refusal hnone hclock hreply.symm
    have hlocked : ∀ reason ∈ lockedReasons, ¬(reason = .ALLOW ∨ reason = .HANDLER_FAILED) := by
      decide
    exact decide_eq_false (hlocked _ hrefused)

/-- An answer of an issuance that carries a signed decision. -/
def SignedDecision (D : Deployment) (b : Nat) (a : Except Exn Answer) : Prop :=
  ∃ d, a = .ok (.decision d) ∧ (D.broker b).Answers D.lib d

/-- When an issuance returns a signed decision. In every run, an issuance in a working environment
returns a decision whose receipt the configured verifier accepts exactly when the scope of the
policy has an encoding, so has the manifest digest of a well-typed request under a policy with a
canonical form, and no package raised a `DecisionError` with reason `ALLOW` or `HANDLER_FAILED`
outside the clauses that catch every exception. -/
theorem issue_signed_iff (law : Rfc8785 D.lib) (h : D.system.Run w tr s)
    (hw : (D.broker b).receiptSigner.Working D.lib)
    (hc : Label.start t (.issue b raw manifest rawEvidence) ∈ tr) {a : Except Exn Answer}
    (hf : Label.finish t a ∈ tr) (hworking : ∀ e x r, Label.act t e x r ∈ tr → BrokerInput e x) :
    D.SignedDecision b a ↔ Nameable (D.broker b) raw ∧ ¬Misled (D.history t tr) := by
  have hs := brokerServing_of_working h hw hworking
  have hsat : (D.system.body (.issue b raw manifest rawEvidence)).Sat (Taken tr t)
      (fun _ _ ↦ True)
      (fun h' a' ↦ D.SignedDecision b a' ↔ Nameable (D.broker b) raw ∧ ¬Misled h') [] := by
    change ((Answer.decision <$>
      (D.broker b).issue D.lib raw manifest rawEvidence).prog).Sat _ _ _ []
    rw [Body.sat_prog]
    apply Body.Sat.map
    apply (issue_answers law hs).mono
    intro h' r _ hiff
    rw [← hiff]
    constructor
    · rintro ⟨d, hr, hanswers⟩
      cases r with
      | error e => cases hr
      | ok d' =>
        cases hr
        exact ⟨d, rfl, hanswers⟩
    · rintro ⟨d, rfl, hanswers⟩
      exact ⟨d, rfl, hanswers⟩
  exact h.result (A := fun _ ↦ Taken tr t) (G := fun _ _ _ ↦ True) (Q := fun _ h' a' ↦
    D.SignedDecision b a' ↔ Nameable (D.broker b) raw ∧ ¬Misled h') hc hsat (relies_taken tr t) hf

end Deployment

namespace Demo

/-- A scenario works at every step of an issuance. -/
theorem brokerInput_scenario {now : Int} (hnow : 0 ≤ now ∧ now < 2 ^ 53) (seed : UInt8) (e : Op) :
    BrokerInput e ((scenario now seed).input e) := by
  cases e with
  | clock => exact ⟨now, rfl, hnow⟩
  | sign => rfl
  | consumeBrokerChallenge => exact ⟨⟨now, rfl, hnow⟩, rfl⟩
  | tokenHex | lib | storeBrokerChallenge | storeResourceChallenge | getResourceChallenge | spend
  | recordInvocation | invocationCount | inventoryLookup => trivial

/-- No package misleads a played call. -/
theorem not_misled_of_made {now : Int} {seed : UInt8} {n : Nat} {c : Call} {tr : deployment.Trace}
    {s : Config Op Op.Reply World Call (Except Exn Answer)}
    (hrun : deployment.system.Run .initial tr s)
    (hmade : List.Forall₂ Move.Makes (deployment.alone 0 c (scenario now seed) n) tr) :
    ¬Misled (deployment.history 0 tr) := by
  rintro ⟨call, e, hmem, -, hm⟩
  obtain ⟨x, hact⟩ := mem_own.mp hmem
  obtain ⟨m, hm', hmakes⟩ := exists_move_of_mem hmade hact
  simp only [Deployment.alone, List.mem_cons, List.mem_append, List.mem_replicate,
    List.not_mem_nil, or_false] at hm'
  obtain rfl | ⟨-, rfl⟩ | rfl := hm'
  · cases hmakes
  · obtain ⟨e', r', heq⟩ := hmakes
    cases heq
    obtain ⟨pre, post, he⟩ := List.append_of_mem hact
    have hreply : .error e = (scenario now seed).input (.lib call) := hrun.reply_eq he
    rw [Exn.misleads_eq_false (plain_honest _ _ call e hreply.symm)] at hm
    cases hm
  · obtain ⟨a', ha'⟩ := hmakes
    cases ha'

/-- What a denial of the request states has an encoding. -/
theorem nameable_issuanceRequest (challenge : Text) :
    Nameable broker (issuanceRequest challenge) := by
  constructor
  · decide
  · intro dict request _ _ hrequest
    obtain rfl := Except.ok.inj ((show validateIssuanceRequestRuntime (issuanceRequest challenge) =
      .ok _ from rfl).symm.trans hrequest)
    exact encodable_text _

/-- A well-typed request whose manifest digest is a lone surrogate. -/
def surrogateRequest : RawIssuanceRequest :=
  .request (some (.str issuanceVersion)) (some (.str (text "b"))) (some (.str (text "c")))
    (some (.str [⟨0xD800, by decide⟩])) (some (.str (text "02")))
    (some (.str (hex (List.replicate 32 8)))) (some (.str (text "k"))) (some (.str (text "01")))
    (some (.str (text "s"))) (some (.str (text "03")))

/-- Whether a label ends the first call with an exception. -/
def raises : deployment.system.Label → Bool
  | .finish 0 (.error _) => true
  | _ => false

/-- A played issuance that starts alone is one in a working environment. -/
theorem brokerInput_of_made {now : Int} (hnow : 0 ≤ now ∧ now < 2 ^ 53) {seed : UInt8} {n : Nat}
    {c : Call} {tr : deployment.Trace}
    (hmade : List.Forall₂ Move.Makes (deployment.alone 0 c (scenario now seed) n) tr) :
    ∀ e x r, Label.act 0 e x r ∈ tr → BrokerInput e x := by
  intro e x r hact
  obtain ⟨m, hm, hmakes⟩ := exists_move_of_mem hmade hact
  simp only [Deployment.alone, List.mem_cons, List.mem_append, List.mem_replicate,
    List.not_mem_nil, or_false] at hm
  obtain rfl | ⟨-, rfl⟩ | rfl := hm
  · cases hmakes
  · obtain ⟨e', r', heq⟩ := hmakes
    cases heq
    exact brokerInput_scenario hnow seed e
  · obtain ⟨a', ha'⟩ := hmakes
    cases ha'

set_option maxRecDepth 100000 in
/-- An issuance for a request whose manifest digest is a lone surrogate raises, in a working
environment. -/
theorem unanswered_issuance : ∃ tr s e, deployment.system.Run .initial tr s ∧
    broker.receiptSigner.Working standIn ∧
    Label.start 0 (.issue 0 surrogateRequest manifest evidence) ∈ tr ∧
    Label.finish 0 (.error e) ∈ tr ∧
    (∀ op x r, Label.act 0 op x r ∈ tr → BrokerInput op x) ∧
    ¬deployment.SignedDecision 0 (.error e) := by
  obtain ⟨tr, s, hrun, hmade, hraises⟩ := Deployment.exists_made_of_play (D := deployment)
    (deployment.alone 0 (.issue 0 surrogateRequest manifest evidence) (scenario 1000 1) 3)
    (P := fun tr _ ↦ tr.any raises = true) (by decide +kernel)
  obtain ⟨l, hl, hstart⟩ := exists_label_of_mem hmade
    (m := .start 0 (.issue 0 surrogateRequest manifest evidence)) (by simp [Deployment.alone])
  obtain rfl : l = .start 0 (.issue 0 surrogateRequest manifest evidence) := hstart
  obtain ⟨l', hl', hfinish⟩ := List.any_eq_true.mp hraises
  obtain ⟨e, rfl⟩ : ∃ e, l' = .finish 0 (.error e) := by
    unfold raises at hfinish
    split at hfinish
    · exact ⟨_, rfl⟩
    · cases hfinish
  refine ⟨tr, s, e, hrun, working_standIn _, hl, hl', brokerInput_of_made (by decide) hmade, ?_⟩
  rintro ⟨d, ⟨⟩, -⟩

end Demo

set_option maxRecDepth 100000 in
/-- The law at an issuance whose challenge was not issued: its denial is signed. -/
theorem Deployment.issue_signed_iff_unissued : ∃ tr s a,
    Demo.deployment.system.Run .initial tr s ∧ Label.finish 0 a ∈ tr ∧
    Demo.deployment.SignedDecision 0 a := by
  let call : Call := .issue 0 (Demo.issuanceRequest (Demo.brokerToken 1000 1)) Demo.manifest
    Demo.evidence
  obtain ⟨tr, s, hrun, hmade, -⟩ := exists_made_of_play (D := Demo.deployment)
    (Demo.deployment.alone 0 call (Demo.scenario 1001 2) 17) (P := fun _ _ ↦ True)
    (by decide +kernel)
  obtain ⟨l, hl, hstart⟩ := exists_label_of_mem hmade (m := .start 0 call) (by simp [alone])
  obtain ⟨l', hl', a, hfinish⟩ := exists_label_of_mem hmade (m := .finish 0) (by simp [alone])
  obtain rfl : l = .start 0 call := hstart
  subst hfinish
  refine ⟨tr, s, a, hrun, hl', ?_⟩
  exact (issue_signed_iff rfc8785_standIn hrun (working_standIn _) hl hl'
    (Demo.brokerInput_of_made (by decide) hmade)).mpr
    ⟨Demo.nameable_issuanceRequest _, Demo.not_misled_of_made hrun hmade⟩

end Atcap
