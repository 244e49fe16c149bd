import Atcap.Mcp.Answer
import Atcap.System.Decision
import Atcap.System.Writes

/-!
# When a tool call of a run is answered

Among any other calls, over a working signer, clock, store and handler, a tool call returns the
challenge it issued or a decision under an accepted receipt exactly when what it canonicalises and
stores has an encoding. Otherwise it raises, or returns the state without a receipt.
-/

namespace Atcap

open Base System InventoryApplication

/-- What a released package documents of its answer: a credential is parsed to what `parse` says,
and a fresh challenge of its secret is accepted. -/
def Documented (parse : Value → Except Exn Credential) : (c : LibCall) → Except Exn c.Result → Prop
  | .credentialFromDict d, answer => answer = parse d
  | .verifyChallenge secret token now, answer => ∀ expiry randomHex,
      token = challengeToken secret expiry randomHex → now < expiry → answer = .ok ()
  | _, _ => True

/-- A step in which the clock stands in the range of exact integers, the signer and the store do
not fail, no token is drawn twice, the packages behave as documented and raise no `DecisionError`,
and the handler returns a quantity that can be written. -/
def WorkingInput (parse : Value → Except Exn Credential) : (e : Op) → e.Input → e.Reply → Prop
  | .clock, reading, _ => ∃ now, reading = .ok now ∧ 0 ≤ now ∧ now < 2 ^ 53
  | .lib c, answer, _ => Plain answer ∧ Documented parse c answer
  | .sign .., outage, _ => outage = none
  | .storeResourceChallenge .., f, r => f = Faults.none ∧ r ≠ .error .integrity
  | .getResourceChallenge _, f, _ => f = Faults.none
  | .spend _, x, _ => (∃ now, x.1 = .ok now ∧ 0 ≤ now ∧ now < 2 ^ 53) ∧ x.2 = Faults.none
  | .inventoryLookup .., _, r => ∀ members quantity, r = .ok members →
      members.lookup (text "quantity") = some (.int quantity) → (dumpsInt quantity).isSome = true
  | _, _, _ => True

/-- A value is no `DecisionError`. -/
theorem plain_ok {α : Type} (a : α) : Plain (.ok a : Except Exn α) := nofun

/-- A working step is a plain one. -/
theorem WorkingInput.plain {parse : Value → Except Exn Credential} {e : Op} {x : e.Input}
    {r : e.Reply} (hx : WorkingInput parse e x r) : PlainInput e x := by
  cases e with
  | clock =>
    obtain ⟨now, rfl, -⟩ := hx
    exact plain_ok now
  | lib c => exact hx.1
  | getResourceChallenge tokenHash =>
    obtain rfl : x = Faults.none := hx
    exact nofun
  | spend a =>
    obtain ⟨⟨now, hnow, -⟩, hfaults⟩ := hx
    refine ⟨?_, ?_⟩
    · rw [hnow]
      exact plain_ok now
    · rw [hfaults]
      exact nofun
  | tokenHex | sign | storeBrokerChallenge | consumeBrokerChallenge | storeResourceChallenge
  | recordInvocation | invocationCount | inventoryLookup => trivial

namespace Deployment

variable {D : Deployment} {w : World} {tr : D.Trace} {t i : Nat} {c : Call} {name : Text}
  {arguments : Option (List (Text × Value))}
  {s : Config Op Op.Reply World Call (Except Exn Answer)}

/-! ### The counter of a running call -/

/-- An operation never lowers a counter. -/
theorem counter_le_exec (e : Op) (x : e.Input) (w : World) (i : Nat) :
    w.counter i ≤ (D.exec e x w).2.counter i := by
  cases e with
  | recordInvocation j =>
    change w.counter i ≤ Function.update w.counter j (w.counter j + 1) i
    by_cases hij : i = j
    · subst hij
      rw [Function.update_self]
      omega
    · rw [Function.update_of_ne hij]
  | clock | tokenHex | lib | sign | storeBrokerChallenge | consumeBrokerChallenge
  | storeResourceChallenge | getResourceChallenge | spend | invocationCount
  | inventoryLookup => exact le_rfl

/-- While a call runs, the counter of its instance does not fall below a number it was handed. -/
theorem number_le_counter (h : D.system.Run w tr s) {p : Prog Op Op.Reply (Except Exn Answer)}
    (ht : s.thread t = .running c p) (ho : c.owner = .inventoryd i) {n : Nat}
    (hn : ⟨.recordInvocation i, n⟩ ∈ D.history t tr) : n ≤ s.shared.counter i := by
  induction h generalizing p with
  | nil => cases ht
  | @snoc tr s s' l hr hstep ih =>
    cases hstep with
    | @start t' c' hidle =>
      rw [history, own_append, own_start, List.append_nil] at hn
      dsimp only at ht
      by_cases htt : t = t'
      · subst htt
        have htraced := hr.traced t
        rw [hidle] at htraced
        rw [htraced.2.1] at hn
        cases hn
      · rw [Function.update_of_ne htt] at ht
        exact ih ht hn
    | @finish t' c' a hrun =>
      rw [history, own_append, own_finish, List.append_nil] at hn
      dsimp only at ht
      by_cases htt : t = t'
      · subst htt
        rw [Function.update_self] at ht
        cases ht
      · rw [Function.update_of_ne htt] at ht
        exact ih ht hn
    | crash j =>
      rw [history, own_append, own_crash, List.append_nil] at hn
      change D.system.kill j (s.thread t) = _ at ht
      cases hth : s.thread t with
      | idle =>
        rw [hth] at ht
        cases ht
      | ended c' =>
        rw [hth] at ht
        cases ht
      | running c' p' =>
        rw [hth] at ht
        simp only [kill] at ht
        split at ht
        · cases ht
        · next hj =>
          cases ht
          have hle := ih hth hn
          -- The instance of a running call has not crashed.
          have hne : Service.inventoryd i ≠ j := by
            rw [← ho]
            exact hj
          cases j with
          | broker b => exact hle
          | inventoryd j =>
            have hij : i ≠ j := fun hij ↦ hne (by rw [hij])
            change n ≤ Function.update s.shared.counter j 0 i
            rw [Function.update_of_ne hij]
            exact hle
    | @act t' c' e k x hrun =>
      have hmono := counter_le_exec (D := D) e x s.shared i
      dsimp only at ht
      by_cases htt : t = t'
      · subst htt
        rw [history, own_append, own_act_self, List.mem_append, List.mem_singleton] at hn
        rw [Function.update_self] at ht
        cases ht
        rcases hn with hn | hn
        · exact (ih hrun hn).trans hmono
        · cases e with
          | recordInvocation j =>
            cases hn
            change s.shared.counter i + 1 ≤ Function.update s.shared.counter i _ i
            rw [Function.update_self]
          | clock | tokenHex | lib | sign | storeBrokerChallenge | consumeBrokerChallenge
          | storeResourceChallenge | getResourceChallenge | spend | invocationCount
          | inventoryLookup => cases hn
      · rw [history, own_append, own_act_ne (Ne.symm htt), List.append_nil] at hn
        rw [Function.update_of_ne htt] at ht
        exact (ih ht hn).trans hmono

/-! ### The answer of a call -/

/-- The steps of a call of a run, with the histories before them. -/
def Taken (tr : D.Trace) (t : Nat) (h : History) (ev : Event Op Op.Reply) : Prop :=
  ∃ pre x post, tr = pre ++ .act t ev.op x ev.reply :: post ∧ D.history t pre = h

/-- A history of a run relies on the steps that were taken. -/
theorem relies_taken (tr : D.Trace) (t : Nat) : Prog.Relies (Taken tr t) (D.history t tr) := by
  intro pre ev post he
  obtain ⟨pre', x, post', heq, hpre, -⟩ := own_eq_append he
  exact ⟨pre', x, post', heq, hpre⟩

/-- The policy and the signer of an instance as they are meant to be configured. -/
structure Configured (D : Deployment) (i : Nat) : Prop where
  working : (D.app i).receiptSigner.Working D.lib
  named : (D.app i).policy.Named

/-- The steps of a call in a working environment are those of working collaborators. -/
theorem serving_of_working (h : D.system.Run w tr s) {parse : Value → Except Exn Credential}
    (hconfigured : D.Configured i) (hc : Label.start t c ∈ tr) (ho : c.owner = .inventoryd i)
    (hworking : ∀ e x r, Label.act t e x r ∈ tr → WorkingInput parse e x r) :
    (D.app i).Serving D.lib i parse (Taken tr t) := by
  have hstep : ∀ {h : History} {e : Op} {r : e.Reply}, Taken tr t h ⟨e, r⟩ →
      ∃ pre x, WorkingInput parse e x r ∧ r = (D.exec e x (D.system.after w pre)).1 := by
    rintro h' e r ⟨pre, x, post, he, -⟩
    exact ⟨pre, x, hworking e x r (by rw [he]; simp), h.reply_eq he⟩
  constructor
  · exact hconfigured.working
  · exact hconfigured.named
  · constructor
    · intro h' n r hr
      obtain ⟨pre, x, -, rfl⟩ := hstep hr
      exact ⟨x.val, x.property, rfl⟩
    · intro h' r hr
      obtain ⟨pre, x, ⟨now, rfl, hnow⟩, rfl⟩ := hstep hr
      exact ⟨now, rfl, hnow⟩
    · intro h' payload r hr
      obtain ⟨pre, x, hx, rfl⟩ := hstep hr
      obtain rfl : x = none := hx
      rfl
  · intro h' ev hr
    obtain ⟨e, r⟩ := ev
    obtain ⟨pre, x, hx, rfl⟩ := hstep hr
    exact plainReply_of_plainInput hx.plain h'
  · intro h' d r hr
    obtain ⟨pre, x, hx, rfl⟩ := hstep hr
    exact hx.2
  · intro h' secret expiry randomHex now r hlt hr
    obtain ⟨pre, x, hx, rfl⟩ := hstep hr
    exact hx.2 expiry randomHex rfl hlt
  · intro h' tokenHash context issuedAt expiresAt r hr
    obtain ⟨pre, x, ⟨hx, hintegrity⟩, hreply⟩ := hstep hr
    subst hx
    rcases storeResourceChallenge_bindable tokenHash context issuedAt expiresAt
      (D.system.after w pre).store hreply with ⟨hb, hok | htaken⟩ | hraised
    · exact .inl ⟨hb, hok⟩
    · exact absurd htaken hintegrity
    · exact .inr hraised
  · intro h' a e hr
    obtain ⟨pre, x, hx, hreply⟩ := hstep hr
    obtain ⟨hclock, hfaults⟩ : Plain x.1 ∧ x.2.Plain := hx.plain
    have hlocked : ∀ reason ∈ lockedReasons, reason ≠ .ALLOW ∧ reason ≠ .HANDLER_FAILED := by decide
    rcases spend_error hfaults hclock hreply.symm with ⟨-, hreason⟩ | ⟨hreason, -⟩
    · exact hlocked _ hreason
    · rw [hreason]
      exact ⟨nofun, nofun⟩
  · intro h' n hr
    obtain ⟨pre, x, -, rfl⟩ := hstep hr
    change 1 ≤ (D.system.after w pre).counter i + 1
    omega
  · intro h' n m hn hr
    obtain ⟨pre, x, post, he, rfl⟩ := hr
    obtain ⟨s₁, s₂, hpre, hact⟩ := h.split he
    have hm : m = (D.system.after w pre).counter i := h.reply_eq he
    rw [hm, ← hpre.shared_eq]
    cases hact with
    | @act _ c' _ k _ hrun =>
      have htraced := hpre.traced t
      rw [hrun] at htraced
      have hc' : Label.start t c' ∈ tr := by
        rw [he]
        exact List.mem_append_left _ ((htraced.1 c').mpr rfl)
      obtain rfl := h.start_unique hc hc'
      exact number_le_counter hpre hrun ho hn
  · intro h' sku members quantity hr hquantity
    obtain ⟨pre, x, hx, -⟩ := hstep hr
    exact hx members quantity rfl hquantity

/-- An answer of a tool call that carries a signed outcome. -/
def SignedOutcome (D : Deployment) (i : Nat) (h : History) (a : Except Exn Answer) : Prop :=
  ∃ result, a = .ok (.tool result) ∧ (D.app i).Answers D.lib h result

/-- When a tool call returns a signed outcome. In every run, a tool call in a working environment
returns the challenge it issued, or a decision whose receipt the configured verifier accepts,
exactly when it is answerable: for an issued challenge, SQLite can bind the policy's texts and the
expiry; otherwise the policy and the counter have a canonical encoding, and so has the credential
id that a redemption parses, or the raw arguments of a call that is denied without one. -/
theorem callTool_signed_iff (law : Rfc8785 D.lib) (h : D.system.Run w tr s)
    {parse : Value → Except Exn Credential} (hconfigured : D.Configured i)
    (hk : (Value.dict (arguments.getD [])).distinctKeys = true)
    (hc : Label.start t (.callTool i name arguments) ∈ tr) {a : Except Exn Answer}
    (hf : Label.finish t a ∈ tr)
    (hworking : ∀ e x r, Label.act t e x r ∈ tr → WorkingInput parse e x r) :
    D.SignedOutcome i (D.history t tr) a ↔
      (D.app i).Answerable i parse name (arguments.getD []) (D.history t tr) := by
  have hs := serving_of_working h hconfigured hc rfl hworking
  have hsat : (D.system.body (.callTool i name arguments)).Sat (Taken tr t) (fun _ _ ↦ True)
      (fun h' a' ↦ D.SignedOutcome i h' a' ↔
        (D.app i).Answerable i parse name (arguments.getD []) h') [] := by
    change ((Answer.tool <$> (D.app i).callTool D.lib i name arguments).prog).Sat _ _ _ []
    rw [Body.sat_prog]
    apply Body.Sat.map
    apply (callTool_answers law hs hk).mono
    intro h' r _ hiff
    rw [← hiff]
    constructor
    · rintro ⟨result, hr, hanswers⟩
      cases r with
      | error e => cases hr
      | ok result' =>
        cases hr
        exact ⟨result, rfl, hanswers⟩
    · rintro ⟨result, rfl, hanswers⟩
      exact ⟨result, rfl, hanswers⟩
  exact h.result (A := fun _ ↦ Taken tr t) (G := fun _ _ _ ↦ True) (Q := fun _ h' a' ↦
    D.SignedOutcome i h' a' ↔ (D.app i).Answerable i parse name (arguments.getD []) h')
    hc hsat (relies_taken tr t) hf

end Deployment

namespace Demo

/-- The credential parser of the scenarios. -/
def parse (d : Value) : Except Exn Credential :=
  orRaise (StandIn.credentialOf (text "s") d) .invalidCredential

/-- A step that neither stores a challenge nor enters the handler, and reads a counter in range. -/
def plainStep : deployment.system.Label → Bool
  | .act _ (.invocationCount _) _ m => decide (m < 2 ^ 53)
  | .act _ e _ _ => !e.writesStore && !e.entersHandler
  | _ => true

/-- A scenario works at every such step. -/
theorem workingInput_scenario {now : Int} (hnow : 0 ≤ now ∧ now < 2 ^ 53) {seed : UInt8} {t : Nat}
    {e : Op} {r : e.Reply}
    (hplain : plainStep (.act t e ((scenario now seed).input e) r) = true) :
    WorkingInput parse e ((scenario now seed).input e) r := by
  cases e with
  | clock => exact ⟨now, rfl, hnow⟩
  | lib c =>
    refine ⟨plain_honest _ _ c, ?_⟩
    cases c with
    | credentialFromDict d => rfl
    | verifyChallenge secret token at_ =>
      intro expiry randomHex _ _
      rfl
    | verifyChain | holderProofFromDict | verifyHolderProof | credentialSign | credentialBody
    | manifestNormalize | manifestCanonicalHash | verifyManifest | ed25519PublicKey
    | ed25519Verify | readPcrSelection | evaluationTime | loadPemX509Certificates
    | verifyTpmQuote | appraise => trivial
  | spend a => exact ⟨⟨now, rfl, hnow⟩, rfl⟩
  | sign | getResourceChallenge => rfl
  | storeResourceChallenge | inventoryLookup => cases hplain
  | tokenHex | storeBrokerChallenge | consumeBrokerChallenge | recordInvocation
  | invocationCount => trivial

/-- The signer and the policy of the small deployment. -/
theorem configured (i : Nat) : deployment.Configured i :=
  ⟨working_standIn app.receiptSigner, ⟨nofun, nofun, nofun⟩⟩

/-- A call of a tool that the server does not have. -/
def unknownTool (arguments : Option (List (Text × Value))) : Call :=
  .callTool 0 (text "x") arguments

/-- Whether a step ends a call with an exception. -/
def endsInError : deployment.system.Label → Bool
  | .finish _ (.error _) => true
  | _ => false

/-- The arguments with the least positive integer that has no canonical form. -/
def inexact : List (Text × Value) := [(text "n", .int (2 ^ 53))]

set_option maxRecDepth 100000 in
/-- A call of an unknown tool whose arguments have no canonical form raises, in a working
environment. -/
theorem unanswered_unknownTool : ∃ tr s e, deployment.system.Run .initial tr s ∧
    deployment.Configured 0 ∧ resourcePolicy.Encodable ∧
    (Value.dict inexact).distinctKeys = true ∧
    Label.start 0 (unknownTool (some inexact)) ∈ tr ∧ Label.finish 0 (.error e) ∈ tr ∧
    (∀ op x r, Label.act 0 op x r ∈ tr → WorkingInput parse op x r) ∧
    ¬deployment.SignedOutcome 0 (deployment.history 0 tr) (.error e) := by
  obtain ⟨tr, s, hrun, hmade, hfails⟩ := Deployment.exists_made_of_play (D := deployment)
    (deployment.alone 0 (unknownTool (some inexact)) (scenario 1000 1) 0)
    (P := fun tr _ ↦ tr.any endsInError = true)
    (by decide +kernel)
  change List.Forall₂ Move.Makes [.start 0 _, .finish 0] tr at hmade
  obtain ⟨l, l', rfl, rfl, a, rfl⟩ : ∃ l l', tr = [l, l'] ∧
      l = .start 0 (unknownTool (some inexact)) ∧ ∃ a, l' = .finish 0 a := by
    cases hmade with
    | cons hstart hrest =>
      cases hrest with
      | cons hfinish hrest =>
        cases hrest
        exact ⟨_, _, rfl, hstart, hfinish⟩
  cases a with
  | ok answer => cases hfails
  | error e =>
    refine ⟨_, s, e, hrun, configured 0, encodable_resourcePolicy, by decide, by simp,
      by simp, ?_, ?_⟩
    · intro op x r hact
      simp at hact
    · rintro ⟨result, ⟨⟩, -⟩

end Demo

set_option maxRecDepth 100000 in
/-- The law at a call of an unknown tool without arguments: its denial is signed. -/
theorem Deployment.callTool_signed_iff_unknownTool : ∃ tr s a,
    Demo.deployment.system.Run .initial tr s ∧ Label.finish 0 a ∈ tr ∧
    Demo.deployment.SignedOutcome 0 (Demo.deployment.history 0 tr) a := by
  obtain ⟨tr, s, hrun, hmade, hplain⟩ := exists_made_of_play (D := Demo.deployment)
    (Demo.deployment.alone 0 (Demo.unknownTool none) (Demo.scenario 1000 1) 4)
    (P := fun tr _ ↦ tr.all Demo.plainStep = true) (by decide +kernel)
  have hstep := List.all_eq_true.mp hplain
  obtain ⟨l, hl, hstart⟩ := exists_label_of_mem hmade (m := .start 0 (Demo.unknownTool none))
    (by simp [alone])
  obtain ⟨l', hl', a, hfinish⟩ := exists_label_of_mem hmade (m := .finish 0) (by simp [alone])
  obtain rfl : l = .start 0 (Demo.unknownTool none) := hstart
  subst hfinish
  have hworking : ∀ e x r, Label.act 0 e x r ∈ tr → WorkingInput Demo.parse e x r := by
    intro e x r hact
    obtain ⟨m, hm, hmakes⟩ := exists_move_of_mem hmade hact
    have hplain := hstep _ hact
    simp only [alone, List.mem_cons, List.mem_append, List.mem_replicate, List.not_mem_nil,
      or_false] at hm
    obtain rfl | ⟨-, rfl⟩ | rfl := hm
    · cases hmakes
    · obtain ⟨e', r', heq⟩ := hmakes
      cases heq
      exact Demo.workingInput_scenario (by decide) hplain
    · obtain ⟨a', ha'⟩ := hmakes
      cases ha'
  refine ⟨tr, s, a, hrun, hl', ?_⟩
  refine (callTool_signed_iff rfc8785_standIn hrun (Demo.configured 0) rfl hl hl' hworking).mpr ?_
  refine ⟨⟨Demo.encodable_resourcePolicy, ?_⟩, rfl⟩
  intro m hm
  obtain ⟨x, hact⟩ := mem_own.mp hm
  exact of_decide_eq_true (hstep _ hact)

end Atcap
