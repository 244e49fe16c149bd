import Atcap.Lab.Exclusive
import Atcap.System.Insertions

/-!
# Denial cases are never spent

The pre-appraisal of `finalize_cases` and the holder-proof check of `redeem` are two call sites of
`verify_holder_proof`. They put the same question: whatever a worker returned, a proof that was
refused before cannot be accepted later, so the credential of a denial case is never redeemed.
-/

namespace Atcap.Lab

open Base Base.Clients TrustedController

variable {D : Deployment} {keys : OkpKeys} {w : World}
  {tr pre post : List (laboratory D keys).Label} {s : (laboratory D keys).Config} {p t : Nat}
  {ctrl : TrustedController}

/-! ### Library answers along a run -/

/-- The library call that a step of a process or of a thread was answered. -/
def libAnswer? (D : Deployment) (keys : OkpKeys) :
    (laboratory D keys).Label → Option (Event Op Op.Reply)
  | .act _ (.ask (.lib c)) r => some ⟨.lib c, r⟩
  | .thread (.act _ (.lib c) _ r) => some ⟨.lib c, r⟩
  | _ => none

/-- A library answered in a run. -/
def Answered (tr : List (laboratory D keys).Label) (c : LibCall) (r : Except Exn c.Result) : Prop :=
  ∃ l ∈ tr, libAnswer? D keys l = some ⟨.lib c, r⟩

/-- What a process was told was answered. -/
theorem answered_of_told {c : LibCall} {r : Except Exn c.Result}
    (ht : Told ((laboratory D keys).history p tr) c r) : Answered tr c r :=
  ⟨_, mem_history.mp ht, rfl⟩

/-- What a thread was told was answered. -/
theorem answered_of_mem {c : LibCall} {r : Except Exn c.Result}
    (hm : (⟨.lib c, r⟩ : Event Op Op.Reply) ∈ D.history t ((laboratory D keys).threads tr)) :
    Answered tr c r := by
  obtain ⟨x, hx⟩ := System.mem_own.mp hm
  exact ⟨_, mem_threads_act.mp hx, rfl⟩

/-- What the released library promises of the answers of a run: the two parsers are functions of
their argument, a dumped credential parses to itself, and `verify_holder_proof` is pure in its
inputs except that, as time passes, it may turn from accepting to refusing. -/
structure LibraryLaws (parse : Value → Except Exn Credential)
    (parseProof : Value → Except Exn HolderProof) (tr : List (laboratory D keys).Label) : Prop where
  credential : ∀ d r, Answered tr (.credentialFromDict d) r → r = parse d
  proof : ∀ d r, Answered tr (.holderProofFromDict d) r → r = parseProof d
  dumped : ∀ c body, Answered tr (.credentialBody c) (.ok body) →
    parse (.dict (Value.setMember body (text "signature") (.str c.signature))) = .ok c
  refused : ∀ pre post, tr = pre ++ post → ∀ x e, Answered pre (.verifyHolderProof x) (.error e) →
    refusesProof (.raised e) = true → ¬ Answered post (.verifyHolderProof x) (.ok ())

/-! ### The same question twice -/

/-- `redeem` asks of a pair what the pre-appraisal asked of it. -/
theorem holderProofCheck_lookupOf {request : WorkerRequest} {response : WorkerResponse}
    (haudience : request.audience.val = (ctrl.inventory D).policy.audience)
    (hscope : request.qualifiedScope.val = (ctrl.inventory D).policy.qualifiedScope)
    (credential : Credential) (proof : HolderProof) (data : Bytes) :
    (D.app ctrl.number).holderProofCheck (lookupOf request response) credential proof data =
      (ProofContext.original request response credential).check D ctrl proof data := by
  have heq : (ProofContext.original request response credential).check D ctrl proof data =
      { proof, credential, audience := request.audience.val
        challengeSecret := (ctrl.inventory D).challengeSecret
        requestedCapability := request.qualifiedScope.val, recordId := request.recordId.val
        sealedPayload := data, callerChannelKey := none, parentRecordHash := none } := rfl
  rw [heq, haudience, hscope]
  rfl

section Vetted

variable {parse : Value → Except Exn Credential} {parseProof : Value → Except Exn HolderProof}
  {request : WorkerRequest} {response : WorkerResponse}

/-- A pair of a denial case never passes the checks of `redeem`: what its thread would have to be
told was already refused to the process. -/
theorem not_checked_of_vetted (h : (laboratory D keys).Run w tr s)
    (law : LibraryLaws parse parseProof tr)
    (he : tr = pre ++ .act p (.submit (.redeem ctrl.number (lookupOf request response))) t :: post)
    (hv : Vetted D ctrl ((laboratory D keys).history p pre) request response)
    (hallows : request.variant.allows = false)
    (haudience : request.audience.val = (ctrl.inventory D).policy.audience)
    (hscope : request.qualifiedScope.val = (ctrl.inventory D).policy.qualifiedScope)
    {x : InventoryApplication.Presentation} :
    ¬ x.Checked D.lib (D.app ctrl.number) (lookupOf request response)
      (D.history t ((laboratory D keys).threads tr)) := by
  intro hx
  have hpre : (laboratory D keys).history p pre <+: (laboratory D keys).history p tr := by
    rw [he, history_append]
    exact List.prefix_append _ _
  obtain ⟨credential, hcredential, happraised⟩ := hv.appraised
  rw [hallows] at happraised
  -- Both parsed the same credential and the same proof.
  have hsame : credential = x.credential := Except.ok.inj
    ((law.credential _ _ (answered_of_told (hcredential.mono hpre))).trans
      (law.credential _ _ (answered_of_mem hx.credential.parsed)).symm)
  subst hsame
  have hparsed := law.proof _ _ (answered_of_mem hx.challenge.parsed)
  rcases happraised with ⟨e, hrefused, -⟩ | ⟨proof, hproof, hrefused⟩
  · have herror := law.proof _ _ (answered_of_told (hrefused.mono hpre))
    cases herror.trans hparsed.symm
  · obtain rfl := Except.ok.inj
      ((law.proof _ _ (answered_of_told (hproof.mono hpre))).trans hparsed.symm)
    obtain ⟨data, hdata, hverified⟩ := hx.holder
    obtain ⟨e, htold, hrefuses⟩ := hrefused data hdata
    rw [holderProofCheck_lookupOf haudience hscope] at hverified
    obtain ⟨y, hy⟩ := System.mem_own.mp hverified
    have hafter := h.after_submit he (mem_threads_act.mp hy)
    exact law.refused pre _ he _ e (answered_of_told htold) hrefuses
      ⟨_, List.mem_cons_of_mem _ hafter, rfl⟩

end Vetted

/-! ### Prepared bundles -/

/-- A pair of a bundle belongs to one of its validated cases. -/
theorem mem_pairing {h : LabHistory} {inputs : List (PreparedCase × List WorkerResponse)}
    {validated : List ValidatedCase} (hv : List.Forall₂ (Validates D ctrl h) inputs validated)
    {q : WorkerRequest × WorkerResponse} (hq : q ∈ pairing validated) :
    ∃ input ∈ inputs, q.1 ∈ input.1.val.requests ∧ Vetted D ctrl h q.1 q.2 := by
  obtain ⟨v, hmem, hpair⟩ := List.mem_flatMap.mp hq
  obtain ⟨input, hinput, hvalidates⟩ := exists_of_forall₂ hv hmem
  refine ⟨input, hinput, ?_, hvalidates.vetted q hpair⟩
  rw [← hvalidates.prepared]
  exact (List.of_mem_zip hpair).1

/-- A bundle of cases that a process `prepare` returned for these grants and specifications. -/
structure PreparedBundle (tr : List (laboratory D keys).Label) (policy : ResourcePolicy)
    (inputs : List (CapabilityGrant × CaseSpec)) (cases : List PreparedCase) : Prop where
  returned : ∃ q ctrl grants specs holder payload, inputs = grants.zip specs ∧
    (ctrl.inventory D).policy = policy ∧
    Label.start q (.prepare ctrl grants specs holder) ∈ tr ∧
    Label.finish q (.ok (.prepared cases payload)) ∈ tr
  /-- One independently issued capability for each case. -/
  distinct : (inputs.map fun x ↦ x.1.credential.credentialId).Nodup

/-- What a request of a prepared bundle carries. -/
theorem PreparedBundle.requested (h : (laboratory D keys).Run w tr s) {policy : ResourcePolicy}
    {inputs : List (CapabilityGrant × CaseSpec)} {cases : List PreparedCase}
    (hb : PreparedBundle tr policy inputs cases) {k : PreparedCase} (hk : k ∈ cases)
    {request : WorkerRequest} (hr : request ∈ k.val.requests) :
    ∃ x ∈ inputs, request.variant = x.2.val.variant ∧ request.audience.val = policy.audience ∧
      request.qualifiedScope.val = policy.qualifiedScope ∧
      ∃ q, Dumped ((laboratory D keys).history q tr) x.1.credential request.credential := by
  obtain ⟨q, ctrl, grants, specs, holder, payload, rfl, rfl, hstart, hfinish⟩ := hb.returned
  obtain ⟨cases', payload', heq, -, hprepares⟩ := outcome_finish h hstart hfinish
  cases heq
  obtain ⟨x, hx, hone⟩ := exists_of_forall₂ hprepares hk
  obtain ⟨index, -, hrequested⟩ := exists_of_forall₂ hone.requests hr
  exact ⟨x, hx, hrequested.variant, hrequested.audience, hrequested.qualifiedScope, q,
    hrequested.credential⟩

/-! ### No denial case is spent -/

/-- Whoever inserts a redemption of a prepared credential in the name of `finalize_cases` does so
for an allow case. -/
theorem allows_of_insertion (h : (laboratory D keys).Run w tr s)
    {parse : Value → Except Exn Credential} {parseProof : Value → Except Exn HolderProof}
    (law : LibraryLaws parse parseProof tr) {inputs : List (CapabilityGrant × CaseSpec)}
    {bundle : List (PreparedCase × List WorkerResponse)}
    (hb : PreparedBundle tr (ctrl.inventory D).policy inputs (bundle.map Prod.fst))
    (hp : Label.start p (.finalizeCases ctrl bundle) ∈ tr) {row : RedemptionRow}
    (hm : (t, row) ∈ D.insertions w ((laboratory D keys).threads tr))
    (hsubmit : Submitted p t tr) :
    ∃ x ∈ inputs, x.1.credential.credentialId = row.credentialId ∧
      x.2.val.variant.allows = true := by
  obtain ⟨c, i, request, y, hc, hr, hchecked, hid, -⟩ := Deployment.checked_of_insertion h.inner hm
  obtain ⟨c', hc'⟩ := hsubmit
  obtain rfl := h.inner.start_unique hc (start_of_submit hc')
  obtain ⟨pre, post, he⟩ := List.append_of_mem hc'
  obtain ⟨validated, hvalidates, q, hq, rfl⟩ := pledge_submit h hp he
  cases hr
  obtain ⟨input, hinput, hrequest, hvetted⟩ := mem_pairing hvalidates hq
  obtain ⟨x, hx, hvariant, haudience, hscope, q', hdumped⟩ :=
    hb.requested h (List.mem_map.mpr ⟨input, hinput, rfl⟩) hrequest
  refine ⟨x, hx, ?_, ?_⟩
  · obtain ⟨body, hbody, hmembers⟩ := hdumped
    have hparse := law.dumped _ _ (answered_of_told hbody)
    rw [← hmembers] at hparse
    have hparsed := law.credential _ _ (answered_of_mem hchecked.credential.parsed)
    rw [← hid, ← Except.ok.inj (hparse.symm.trans hparsed.symm)]
  · rw [← hvariant]
    by_contra hdenies
    rw [Bool.not_eq_true] at hdenies
    exact not_checked_of_vetted h law he hvetted hdenies haudience hscope hchecked

/-- No worker behaviour can spend a denial case. Let `finalize_cases` run on cases that `prepare`
made from distinct, unspent grants which nobody else redeems, with any responses whatsoever, and
look at any moment, whether it returned, raised or is still running: the credential of a denial case
has no redemption and caused no handler entry, and that of an allow case has at most one. -/
theorem denial_never_spent (h : (laboratory D keys).Run w tr s)
    {parse : Value → Except Exn Credential} {parseProof : Value → Except Exn HolderProof}
    (law : LibraryLaws parse parseProof tr) {inputs : List (CapabilityGrant × CaseSpec)}
    {bundle : List (PreparedCase × List WorkerResponse)}
    (hb : PreparedBundle tr (ctrl.inventory D).policy inputs (bundle.map Prod.fst))
    (hp : Label.start p (.finalizeCases ctrl bundle) ∈ tr)
    (hunspent : ∀ x ∈ inputs, w.store.redemptionCount x.1.credential.credentialId = 0)
    (halone : ∀ x ∈ inputs, ∀ t, carried (D.history t ((laboratory D keys).threads tr)) =
      some x.1.credential.credentialId → Submitted p t tr) :
    ∀ x ∈ inputs,
      (x.2.val.variant.allows = false →
        s.inner.shared.store.redemptionCount x.1.credential.credentialId = 0 ∧
        ∀ t ∈ D.entries ((laboratory D keys).threads tr),
          carried (D.history t ((laboratory D keys).threads tr)) ≠
            some x.1.credential.credentialId) ∧
      s.inner.shared.store.redemptionCount x.1.credential.credentialId ≤ 1 := by
  intro x hx
  have hnone : x.2.val.variant.allows = false → ∀ t row,
      (t, row) ∈ D.insertions w ((laboratory D keys).threads tr) →
        row.credentialId ≠ x.1.credential.credentialId := by
    intro hdenies t row hm hid
    obtain ⟨_, _, _, _, -, -, -, -, hcarried⟩ := Deployment.checked_of_insertion h.inner hm
    rw [hid] at hcarried
    obtain ⟨y, hy, hid', hallows⟩ := allows_of_insertion h law hb hp hm (halone x hx t hcarried)
    obtain rfl := List.inj_on_of_nodup_map hb.distinct hy hx (hid'.trans hid)
    rw [hdenies] at hallows
    cases hallows
  refine ⟨fun hdenies ↦ ⟨?_, ?_⟩, ?_⟩
  · rw [h.inner.shared_eq, Store.redemptionCount, Deployment.rows_after, List.countP_append]
    have hbefore := hunspent x hx
    rw [Store.redemptionCount] at hbefore
    rw [hbefore, Nat.zero_add, List.countP_eq_zero]
    intro row hrow
    obtain ⟨⟨t, row'⟩, hm, rfl⟩ := List.mem_map.mp hrow
    rw [decide_eq_true_eq]
    exact hnone hdenies t row' hm
  · intro t ht hcarried
    obtain ⟨_, i, request, y, -, -, hentered⟩ := Deployment.entered_of_mem h.inner ht
    obtain ⟨row, now, rfl, hm⟩ := hentered.inserted
    have hid := Option.some.inj (hentered.carried.symm.trans hcarried)
    exact hnone hdenies t _ hm hid
  · have hunique := s.inner.shared.store.credentialRedemptions.unique
    apply countP_le_one (hunique.of_map _)
    intro row hrow row' hrow' hid hid'
    exact List.inj_on_of_nodup_map hunique hrow hrow'
      ((of_decide_eq_true hid).trans (of_decide_eq_true hid').symm)

/-! ### A denied experiment -/

namespace Bench

/-- A `wrong-holder` case is validated and redeemed. -/
def denying : List bench.Move :=
  .start 1 (.finalizeCases controller (bundle .wrongHolder 1)) ::
    (asks 1 8 ++ call 1 1 11 1003 4)

/-- Whether a step raised nothing, dumped only the capability, parsed a credential only in the
redemption, and allowed nothing. -/
def isDenying (l : bench.Label) : Bool :=
  match l with
  | .finish _ (.error _) => false
  | .act _ (.ask (.lib (.credentialBody c))) _ => decide (c = credential)
  | .thread (.act t (.lib (.credentialFromDict _)) _ _) => decide (t = 1)
  | .thread (.act _ (.lib (.credentialBody _)) _ _) => false
  | .thread (.finish 1 (.ok (.decision d))) => !d.allowed
  | .thread (.finish 1 _) => false
  | _ => true

set_option maxRecDepth 100000 in
/-- The case can be played. -/
theorem play_denying :
    (stage .wrongHolder 1 denying).any (fun r ↦ r.1.all isDenying) = true := by
  decide +kernel

/-- The case has a run. -/
theorem exists_denying : ∃ tr s, Experiment .wrongHolder 1 denying isDenying tr s := by
  apply exists_experiment play_denying
  · intro m hm
    simp only [denying, List.mem_cons, List.mem_append] at hm
    rcases hm with rfl | hm | hm
    · exact .start _ _
    · exact scheduled_asks hm
    · exact scheduled_call hm
  · exact fun _ ↦ rfl

namespace Experiment

variable {tr : List bench.Label} {s : bench.Config}
  (x : Experiment .wrongHolder 1 denying isDenying tr s)

include x

/-- A library answered processes and threads alike. -/
theorem answered {c : LibCall} {r : Except Exn c.Result} (ha : Answered tr c r) :
    r = packages c := by
  obtain ⟨l, hl, heq⟩ := ha
  unfold libAnswer? at heq
  split at heq
  · cases heq
    exact x.reply_process hl
  · cases heq
    exact x.reply_thread hl
  · cases heq

/-- Only the capability was dumped. -/
theorem eq_credential {c : Credential} {r : Except Exn (List (Text × Value))}
    (ha : Answered tr (.credentialBody c) r) : c = credential := by
  obtain ⟨l, hl, heq⟩ := ha
  have hcheck := x.checked l hl
  unfold libAnswer? at heq
  split at heq
  · cases heq
    exact of_decide_eq_true hcheck
  · cases heq
    cases hcheck
  · cases heq

/-- The packages keep the laws. -/
theorem laws : LibraryLaws (fun d ↦ packages (.credentialFromDict d))
    (fun d ↦ packages (.holderProofFromDict d)) tr where
  credential _ _ ha := x.answered ha
  proof _ _ ha := x.answered ha
  dumped c body ha := by
    have hbody := x.answered ha
    obtain rfl := x.eq_credential ha
    cases hbody
    rfl
  refused pre post he c e ha _ ha' := by
    obtain ⟨l, hl, heq⟩ := ha
    obtain ⟨l', hl', heq'⟩ := ha'
    have herror := x.answered ⟨l, by rw [he]; exact List.mem_append_left _ hl, heq⟩
    cases herror.trans (x.answered ⟨l', by rw [he]; exact List.mem_append_right _ hl', heq'⟩).symm

/-- The finalising process submitted every call that parsed a credential. -/
theorem submitted_of_carried {t : Nat} {credentialId : Text}
    (hc : carried (Demo.deployment.history t (bench.threads tr)) = some credentialId) :
    Submitted 1 t tr := by
  obtain ⟨ev, hev, heq⟩ := List.exists_of_findSome?_eq_some hc
  split at heq
  · obtain ⟨y, hy⟩ := System.mem_own.mp hev
    have hcheck := x.checked _ (mem_threads_act.mp hy)
    obtain rfl := of_decide_eq_true hcheck
    exact x.submitted (by simp [denying, call])
  · cases heq

/-- The bundle is prepared. -/
theorem preparedBundle : PreparedBundle tr (controller.inventory Demo.deployment).policy
    ([grant].zip (specs .wrongHolder 1)) ((bundle .wrongHolder 1).map Prod.fst) where
  returned := by
    obtain ⟨hstart, payload, hfinish⟩ := x.prepare
    rw [map_fst_bundle]
    exact ⟨0, controller, [grant], _, holderKey, payload, rfl, rfl, hstart, hfinish⟩
  distinct := by decide

/-- The redemption is denied. -/
theorem denied : ∃ d : Decision, Label.thread (.finish 1 (.ok (.decision d))) ∈ tr ∧
    d.allowed = false := by
  obtain ⟨l, hl, l', ⟨a, rfl⟩, rfl⟩ :=
    x.exists_label (m := .thread (.finish 1)) (by simp [denying, call])
  have hcheck := x.checked _ hl
  cases a with
  | error e => cases hcheck
  | ok a =>
    cases a with
    | decision d => exact ⟨d, hl, by simpa [isDenying] using hcheck⟩
    | token | challenge | tool => cases hcheck

end Experiment

end Bench

/-- The redemption of a `wrong-holder` case is denied, and nothing is spent. -/
theorem denial_never_spent_experiment : ∃ tr s d, Bench.bench.Run .initial tr s ∧
    Label.thread (.finish 1 (.ok (.decision d))) ∈ tr ∧ d.allowed = false ∧
    s.inner.shared.store.redemptionCount Bench.credential.credentialId = 0 := by
  obtain ⟨tr, s, x⟩ := Bench.exists_denying
  obtain ⟨d, hd, hdenied⟩ := x.denied
  have hnever := denial_never_spent x.run x.laws x.preparedBundle (x.start List.mem_cons_self)
    (fun _ _ ↦ rfl) fun _ _ _ ↦ x.submitted_of_carried
  refine ⟨tr, s, d, x.run, hd, hdenied, ?_⟩
  have hmap : (Bench.specs .wrongHolder 1).map (fun spec ↦ spec.val.variant) = [.wrongHolder] := by
    decide
  obtain ⟨spec, hspecs, hvariant⟩ := List.map_eq_singleton_iff.mp hmap
  have hmem : (Bench.grant, spec) ∈ [Bench.grant].zip (Bench.specs .wrongHolder 1) := by
    rw [hspecs]
    exact List.mem_cons_self
  exact ((hnever _ hmem).1 (by rw [hvariant]; rfl)).1

end Atcap.Lab
