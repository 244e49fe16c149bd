import Mathlib.Algebra.BigOperators.Group.List.Basic
import Mathlib.Data.Fintype.Card
import Atcap.Lab.RecordSpec
import Atcap.Lab.Restore
import Atcap.Receipt.Format

/-!
# What an accepted record proves

The cases of an accepted record together with their verified receipts. The validators of the
models fix the matrix and the outcome of each case, the loop over the receipts fixes what they
bind, and both together leave one redemption for each of the three cases that allow one.
-/

namespace Atcap.Lab

open Base

/-! ### Verified cases -/

/-- An attempt with its verified receipt. -/
structure VerifiedAttempt (lib : Libraries) (v : Verifiers) (observedAt : Int)
    (broker : BrokerBinding) (variant : Variant) where
  attempt : AttemptObservation
  receipt : DecisionReceiptPayload
  binding : ResourceBinding
  verified : v.resource.verify lib ⟨attempt.val.receiptJws.val⟩ = .ok receipt
  claims : ResourceClaims observedAt broker variant attempt.val receipt.toReceiptFields binding

/-- A case with its verified receipts. -/
structure VerifiedCase (lib : Libraries) (v : Verifiers) (observedAt : Int) where
  observation : CaseObservation
  receipt : DecisionReceiptPayload
  binding : BrokerBinding
  attempts : List (VerifiedAttempt lib v observedAt binding observation.val.variant)
  attempts_eq : attempts.map VerifiedAttempt.attempt = observation.val.attempts
  jws : binding.jws = observation.val.brokerReceiptJws.val
  verified : v.broker.verify lib ⟨observation.val.brokerReceiptJws.val⟩ = .ok receipt
  claims : BrokerClaims observedAt receipt.toReceiptFields binding
  checked : checkCaseReceipts observation.val (attempts.map VerifiedAttempt.binding) = .ok ()

section Exists

variable {lib : Libraries} {v : Verifiers} {observedAt : Int}

/-- Attempts that bind something have verified receipts. -/
theorem exists_verifiedAttempts {broker : BrokerBinding} {variant : Variant}
    {attempts : List AttemptObservation} {own : List ResourceBinding}
    (h : List.Forall₂ (AttemptBinds lib v observedAt broker variant) attempts own) :
    ∃ vs : List (VerifiedAttempt lib v observedAt broker variant),
      vs.map VerifiedAttempt.attempt = attempts ∧ vs.map VerifiedAttempt.binding = own := by
  induction h with
  | nil => exact ⟨[], rfl, rfl⟩
  | cons ha _ ih =>
    obtain ⟨receipt, hreceipt, hclaims⟩ := ha
    obtain ⟨vs, rfl, rfl⟩ := ih
    exact ⟨⟨_, receipt, _, hreceipt, hclaims⟩ :: vs, rfl, rfl⟩

/-- Cases that bind something have verified receipts. -/
theorem exists_verifiedCases {cases : List CaseObservation} {bs : List CaseBinding}
    (h : List.Forall₂ (CaseBinds lib v observedAt) cases bs) :
    ∃ vs : List (VerifiedCase lib v observedAt), vs.map VerifiedCase.observation = cases ∧
      vs.map (fun c ↦ (c.binding, c.attempts.map VerifiedAttempt.binding)) = bs := by
  induction h with
  | nil => exact ⟨[], rfl, rfl⟩
  | cons hc _ ih =>
    obtain ⟨hjws, ⟨receipt, hreceipt, hclaims⟩, hattempts, hchecked⟩ := hc
    obtain ⟨vs, rfl, rfl⟩ := ih
    obtain ⟨attempts, hattempts, hown⟩ := exists_verifiedAttempts hattempts
    rw [← hown] at hchecked
    refine ⟨⟨_, receipt, _, attempts, hattempts, hjws, hreceipt, hclaims, hchecked⟩ :: vs, rfl, ?_⟩
    rw [List.map_cons, hown]

end Exists

/-! ### What the validators leave of a case -/

/-- The outcomes of a case are those its variant prescribes. -/
theorem CaseObservation.outcomes (c : CaseObservation) :
    observedOutcomes c.val.variant c.val.attempts =
      expectedOutcomes (c.val.attempts.length - 1) c.val.variant ∧
    c.val.invocationDelta.val = (if c.val.variant.allows then 1 else 0) ∧
    c.val.credentialRedemptionCount.val = (if c.val.variant.allows then 1 else 0) := by
  have h := c.property
  simp only [CaseFields.check, bind_eq_ok, raiseIf_eq_ok, not_or, ne_eq, not_not] at h
  obtain ⟨_, -, _, -, _, -, houtcomes⟩ := h
  exact houtcomes

/-- The number of allowed attempts is the number of allowed outcomes. -/
theorem countP_allowed (variant : Variant) (attempts : List AttemptObservation) :
    attempts.countP (fun a ↦ a.val.allowed) =
      (observedOutcomes variant attempts).countP Prod.fst := by
  unfold observedOutcomes
  simp only
  split
  · rw [(List.mergeSort_perm _ _).countP_eq, List.countP_map]
    rfl
  · rw [List.countP_map]
    rfl

/-- One attempt of a case is allowed if its variant allows one, otherwise none. -/
theorem CaseObservation.countP_allowed (c : CaseObservation) :
    c.val.attempts.countP (fun a ↦ a.val.allowed) = if c.val.variant.allows then 1 else 0 := by
  rw [Lab.countP_allowed c.val.variant, c.outcomes.1]
  cases c.val.variant <;> simp [expectedOutcomes, Variant.allows, List.countP_replicate]

/-- The replay case has two attempts. -/
theorem CaseObservation.length_of_replay (c : CaseObservation) (h : c.val.variant = .replay) :
    c.val.attempts.length = 2 := by
  have houtcomes := congrArg List.length c.outcomes.1
  simpa [h, observedOutcomes, expectedOutcomes] using houtcomes

/-- The order of outcomes as an order of pairs. -/
theorem outcomeLe_iff {a b : Outcome} :
    outcomeLe a b = true ↔ b.1 < a.1 ∨ a.1 = b.1 ∧ a.2.value ≤ b.2.value := by
  rcases a with ⟨_ | _, a⟩ <;> rcases b with ⟨_ | _, b⟩ <;> simp [outcomeLe]

/-- Outcomes that are before each other are equal. -/
theorem outcomeLe_antisymm {a b : Outcome} (hab : outcomeLe a b = true)
    (hba : outcomeLe b a = true) : a = b := by
  rw [outcomeLe_iff] at hab hba
  obtain hlt | ⟨hallowed, hle⟩ := hab
  · obtain hlt' | ⟨heq, -⟩ := hba
    · exact absurd hlt (lt_asymm hlt')
    · exact absurd heq hlt.ne
  · obtain hlt | ⟨-, hge⟩ := hba
    · exact absurd hallowed hlt.ne
    · have hreason := congrArg Reason.ofValue? (le_antisymm hle hge)
      rw [Reason.ofValue?_value, Reason.ofValue?_value, Option.some.injEq] at hreason
      exact Prod.ext hallowed hreason

/-- The sorted outcomes of a race do not depend on who won it. -/
theorem observedOutcomes_of_perm {losers : Nat} {attempts : List AttemptObservation}
    (h : (attempts.map fun a ↦ (a.val.allowed, a.val.reason)).Perm
      (expectedOutcomes losers .concurrent)) :
    observedOutcomes .concurrent attempts = expectedOutcomes losers .concurrent := by
  have htrans : ∀ a b c : Outcome, outcomeLe a b → outcomeLe b c → outcomeLe a c := by
    simp only [outcomeLe_iff]
    rintro a b c (hab | ⟨hab, hab'⟩) (hbc | ⟨hbc, hbc'⟩)
    · exact .inl (hbc.trans hab)
    · exact .inl (hbc ▸ hab)
    · exact .inl (hab ▸ hbc)
    · exact .inr ⟨hab.trans hbc, hab'.trans hbc'⟩
  have htotal : ∀ a b : Outcome, outcomeLe a b || outcomeLe b a := by
    intro a b
    rw [Bool.or_eq_true, outcomeLe_iff, outcomeLe_iff]
    rcases lt_trichotomy a.1 b.1 with hlt | heq | hlt
    · exact .inr (.inl hlt)
    · rcases le_total a.2.value b.2.value with hle | hle
      · exact .inl (.inr ⟨heq, hle⟩)
      · exact .inr (.inr ⟨heq.symm, hle⟩)
    · exact .inl (.inl hlt)
  have hsorted :
      (expectedOutcomes losers .concurrent).Pairwise (fun a b ↦ outcomeLe a b = true) := by
    simp only [expectedOutcomes, List.pairwise_cons, List.mem_replicate]
    refine ⟨?_, List.pairwise_replicate.mpr (.inr (by decide))⟩
    rintro b ⟨-, rfl⟩
    decide
  unfold observedOutcomes
  simp only [if_true]
  exact ((List.mergeSort_perm _ _).trans h).eq_of_pairwise
    (fun a b _ _ hab hba ↦ outcomeLe_antisymm hab hba)
    (List.pairwise_mergeSort htrans htotal _) hsorted

/-- The outcomes a variant prescribes, in the order of the attempts. -/
theorem observedOutcomes_of_eq {losers : Nat} {variant : Variant}
    {attempts : List AttemptObservation}
    (h : (attempts.map fun a ↦ (a.val.allowed, a.val.reason)) = expectedOutcomes losers variant) :
    observedOutcomes variant attempts = expectedOutcomes losers variant := by
  by_cases hrace : variant = .concurrent
  · subst hrace
    exact observedOutcomes_of_perm (.of_eq h)
  · rw [observedOutcomes, if_neg hrace]
    exact h

/-! ### The receipts of a verified case -/

/-- Whether a receipt allows. -/
def allows (r : ReceiptFields) : Bool := decide (r.decision = .allow)

/-- A receipt allows exactly when the attempt is recorded as allowed. -/
theorem VerifiedAttempt.allows_receipt {lib : Libraries} {v : Verifiers} {observedAt : Int}
    {broker : BrokerBinding} {variant : Variant}
    (a : VerifiedAttempt lib v observedAt broker variant) :
    allows a.receipt.toReceiptFields = a.attempt.val.allowed := by
  rw [allows, a.claims.decision, AttemptFields.expectedDecision]
  cases a.attempt.val.allowed <;> rfl

namespace VerifiedCase

variable {lib : Libraries} {v : Verifiers} {observedAt : Int} (c : VerifiedCase lib v observedAt)

/-- The resource receipts of a case. -/
def receipts : List DecisionReceiptPayload := c.attempts.map VerifiedAttempt.receipt

/-- One receipt of a case allows if its variant allows one, otherwise none. -/
theorem countP_allows : c.receipts.countP (fun r ↦ allows r.toReceiptFields) =
    if c.observation.val.variant.allows then 1 else 0 := by
  rw [← c.observation.countP_allowed, ← c.attempts_eq, receipts, List.countP_map, List.countP_map]
  congr 1
  funext a
  exact a.allows_receipt

/-- The checks that follow the receipts of a case. -/
theorem checks : (c.observation.val.variant = .replay →
      checkReplayReceipts (c.attempts.map VerifiedAttempt.binding) = .ok ()) ∧
    ∀ n, expectedInvocationId c.observation.val.variant = some n →
      c.observation.val.allowedInvocationIds = [some n] := by
  have h := c.checked
  simp only [checkCaseReceipts, bind_eq_ok, raiseIf_eq_ok] at h
  obtain ⟨_, hvariant, hinvocation⟩ := h
  constructor
  · intro hreplay
    generalize c.attempts.map VerifiedAttempt.binding = own at hvariant ⊢
    rw [hreplay] at hvariant
    exact hvariant
  · intro n hn
    simpa [hn] using hinvocation

/-- The invocation ids of the receipts that allow are the one the variant expects. -/
theorem invocationIds_allows :
    (c.receipts.filter fun r ↦ allows r.toReceiptFields).map (fun r ↦ r.invocationId) =
      (expectedInvocationId c.observation.val.variant).toList.map some := by
  cases hexpected : expectedInvocationId c.observation.val.variant with
  | none =>
    -- A variant without an invocation allows nothing.
    have hcount := c.countP_allows
    have hnone : c.observation.val.variant.allows = false := by
      cases hvariant : c.observation.val.variant <;> rw [hvariant] at hexpected <;>
        first | rfl | cases hexpected
    rw [hnone, List.countP_eq_length_filter] at hcount
    rw [List.eq_nil_of_length_eq_zero hcount]
    rfl
  | some n =>
    rw [Option.toList_some, List.map_singleton, ← c.checks.2 n hexpected,
      CaseFields.allowedInvocationIds, ← c.attempts_eq, receipts, List.filter_map, List.filter_map,
      List.map_map, List.map_map]
    have hfilter : c.attempts.filter ((fun r ↦ allows r.toReceiptFields) ∘
        VerifiedAttempt.receipt) =
        c.attempts.filter ((fun a ↦ a.val.allowed) ∘ VerifiedAttempt.attempt) := by
      congr 1
      funext a
      exact a.allows_receipt
    rw [hfilter]
    exact List.map_congr_left fun a _ ↦ a.claims.invocationId

private theorem eq_of_card_pair {α : Type} [DecidableEq α] {x y : α}
    (h : [x, y].toFinset.card = 1) : x = y := by
  by_contra hne
  have hcard : [x, y].toFinset.card = 2 := List.toFinset_card_of_nodup (by simp [hne])
  omega

/-- The two attempts of the replay case have one call context. -/
theorem attempts_of_replay (hvariant : c.observation.val.variant = .replay) {replayed : Text}
    (hhead : (c.attempts.map VerifiedAttempt.binding).head?.bind
      ResourceBinding.challengeTokenHash = some replayed) :
    ∃ a b, c.attempts = [a, b] ∧ a.binding.challengeTokenHash = some replayed ∧
      b.binding.challengeTokenHash = some replayed ∧ a.binding.recordId = b.binding.recordId ∧
      a.binding.argumentsDigest = b.binding.argumentsDigest := by
  have hlength : c.attempts.length = 2 := by
    rw [← c.observation.length_of_replay hvariant, ← c.attempts_eq, List.length_map]
  have hreplay := c.checks.1 hvariant
  obtain ⟨a, b, hattempts⟩ := List.length_eq_two.mp hlength
  rw [hattempts] at hhead hreplay
  simp only [checkReplayReceipts, bind_eq_ok, raiseIf_eq_ok, not_or, ne_eq, not_not,
    List.map_cons, List.map_nil] at hreplay
  obtain ⟨_, ⟨hchallenge, hrecord, harguments⟩, -⟩ := hreplay
  have ha : a.binding.challengeTokenHash = some replayed := hhead
  exact ⟨a, b, hattempts, ha, (eq_of_card_pair hchallenge).symm.trans ha, eq_of_card_pair hrecord,
    eq_of_card_pair harguments⟩

end VerifiedCase

/-! ### What the validators leave of a record -/

/-- A list with as many distinct elements as elements has none twice. -/
theorem nodup_of_card {α : Type} [DecidableEq α] {l : List α} (h : l.toFinset.card = l.length) :
    l.Nodup :=
  Multiset.coe_nodup.mp (Multiset.toFinset_card_eq_card_iff_nodup.mp h)

namespace ExperimentRecordPayload

variable (p : ExperimentRecordPayload)

/-- Each variant occurs once. -/
theorem variants_perm : (p.val.cases.map fun c ↦ c.val.variant).Perm Variant.all := by
  have h := p.property
  simp only [ExperimentRecordFields.check, ExperimentRecordFields.checkMatrix, bind_eq_ok,
    raiseIf_eq_ok, not_or, ne_eq, not_not] at h
  obtain ⟨_, -, _, -, _, ⟨_, -, _, ⟨hlength, hset⟩, -⟩, -⟩ := h
  have hall : Variant.all.Nodup := by decide
  have hnodup : (p.val.cases.map fun c ↦ c.val.variant).Nodup := by
    apply nodup_of_card
    rw [hset, List.toFinset_card_of_nodup hall, List.length_map, hlength]
  exact List.perm_of_nodup_nodup_toFinset_eq hnodup hall hset

/-- A sum over the cases of something that depends on the variant alone. -/
theorem sum_variants (f : Variant → Int) :
    (p.val.cases.map fun c ↦ f c.val.variant).sum = (Variant.all.map f).sum := by
  have h := (p.variants_perm.map f).sum_eq
  rw [List.map_map] at h
  exact h

/-- The declared counts are those of the cases. -/
theorem declared_eq : p.val.declared = p.val.observed := by
  have h := p.property
  simp only [ExperimentRecordFields.check, bind_eq_ok, raiseIf_eq_ok, ne_eq, not_not] at h
  obtain ⟨_, -, _, -, _, -, _, -, hdeclared⟩ := h
  exact hdeclared

/-- Three invocations and three redemptions are declared. -/
theorem counts_eq : p.val.handlerInvocationCount.val = 3 ∧
    p.val.credentialRedemptionCount.val = 3 := by
  have h := p.declared_eq
  simp only [ExperimentRecordFields.declared, ExperimentRecordFields.observed, List.cons.injEq] at h
  obtain ⟨-, -, -, -, hinvocations, hredemptions, -⟩ := h
  have hthree : (Variant.all.map fun w ↦ if w.allows then (1 : Int) else 0).sum = 3 := by decide
  rw [hinvocations, hredemptions, ← hthree, ← p.sum_variants]
  constructor
  · congr 1
    exact List.map_congr_left fun c _ ↦ c.outcomes.2.1
  · congr 1
    exact List.map_congr_left fun c _ ↦ c.outcomes.2.2

end ExperimentRecordPayload

/-! ### The trace of a record -/

/-- The verified cases of a record, with what the checks over all of them found. -/
structure RecordTrace (lib : Libraries) (importKey : ImportKey) (p : ExperimentRecordPayload) where
  verifiers : Verifiers
  brokerKey : p.val.brokerReceiptVerifier.val.receiptVerifier importKey = .ok verifiers.broker
  resourceKey : p.val.resourceReceiptVerifier.val.receiptVerifier importKey = .ok verifiers.resource
  cases : List (VerifiedCase lib verifiers p.val.observedAt.val)
  cases_eq : cases.map VerifiedCase.observation = p.val.cases
  brokers : FreshBrokers [] (cases.map VerifiedCase.binding)
  resources : FreshResources [] (cases.flatMap fun c ↦ c.attempts.map VerifiedAttempt.binding)
  seen : Seen
  seen_eq : seen = ⟨cases.map VerifiedCase.binding,
    cases.flatMap fun c ↦ c.attempts.map VerifiedAttempt.binding,
    replayHashes none (cases.map VerifiedCase.observation)
      (cases.map fun c ↦ (c.binding, c.attempts.map VerifiedAttempt.binding))⟩
  issuances : seen.checkIssuances p.val = .ok ()
  snapshots : seen.checkSnapshots p.val = .ok ()
  challenges : seen.checkChallenges = .ok ()

/-- A record whose receipts are accepted has a trace. -/
theorem exists_recordTrace {lib : Libraries} {importKey : ImportKey} {p : ExperimentRecordPayload}
    (h : verifyEmbeddedReceipts lib importKey p.val = .ok ()) :
    Nonempty (RecordTrace lib importKey p) := by
  simp only [verifyEmbeddedReceipts, bind_eq_ok, verifyCases_eq_ok, List.nil_append] at h
  obtain ⟨broker, hbroker, resource, hresource, _, ⟨bs, hbs, hbrokers, hresources, rfl⟩, _, -, _,
    hissuances, _, hsnapshots, hchallenges⟩ := h
  obtain ⟨cases, hcases, rfl⟩ := exists_verifiedCases hbs
  rw [List.map_map] at hbrokers
  rw [List.flatMap_map] at hresources
  exact ⟨{
    verifiers := ⟨broker, resource⟩
    brokerKey := hbroker
    resourceKey := hresource
    cases := cases
    cases_eq := hcases
    brokers := hbrokers
    resources := hresources
    seen := _
    seen_eq := by rw [List.map_map, List.flatMap_map, hcases]; rfl
    issuances := hissuances
    snapshots := hsnapshots
    challenges := hchallenges }⟩

namespace RecordTrace

variable {lib : Libraries} {importKey : ImportKey} {p : ExperimentRecordPayload}
  (t : RecordTrace lib importKey p)

/-- The resource receipts of a record, in order. -/
def receipts : List DecisionReceiptPayload :=
  t.cases.flatMap fun c ↦ c.attempts.map VerifiedAttempt.receipt

/-- The challenge hashes of the resource receipts, in order. -/
def challengeHashes : List Text := t.receipts.filterMap fun r ↦ r.challengeTokenHash

/-- The variants of the cases. -/
theorem variants_perm : (t.cases.map fun c ↦ c.observation.val.variant).Perm Variant.all := by
  have h := p.variants_perm
  rw [← t.cases_eq, List.map_map] at h
  exact h

/-- Two cases of one variant are one case. -/
theorem eq_of_variant {c d : VerifiedCase lib t.verifiers p.val.observedAt.val}
    (hc : c ∈ t.cases) (hd : d ∈ t.cases)
    (h : c.observation.val.variant = d.observation.val.variant) : c = d := by
  have hnodup : (t.cases.map fun c ↦ c.observation.val.variant).Nodup := by
    rw [t.variants_perm.nodup_iff]
    decide
  exact List.inj_on_of_nodup_map hnodup hc hd h

/-- All receipts of a record, counted case by case. -/
theorem countP_receipts (f : DecisionReceiptPayload → Bool) :
    t.receipts.countP f = (t.cases.map fun c ↦ c.receipts.countP f).sum := by
  rw [receipts, List.countP_flatMap]
  rfl

/-- Three receipts allow. -/
theorem countP_allows : t.receipts.countP (fun r ↦ allows r.toReceiptFields) = 3 := by
  have hsum := (t.variants_perm.map fun w ↦ if w.allows then 1 else 0).sum_eq
  have hthree : (Variant.all.map fun w ↦ if w.allows then 1 else 0).sum = 3 := by decide
  rw [countP_receipts, ← hthree, ← hsum, List.map_map]
  congr 1
  exact List.map_congr_left fun c _ ↦ c.countP_allows

private theorem sum_le_one {α κ : Type} {key : α → κ} {k : κ} {g : α → Nat} {l : List α}
    (hn : (l.map key).Nodup) (hone : ∀ a ∈ l, g a ≤ 1) (hkey : ∀ a ∈ l, g a ≠ 0 → key a = k) :
    (l.map g).sum ≤ 1 := by
  induction l with
  | nil => simp
  | cons a l ih =>
    rw [List.map_cons, List.nodup_cons] at hn
    rw [List.forall_mem_cons] at hone hkey
    have hrest := ih hn.2 hone.2 hkey.2
    rw [List.map_cons, List.sum_cons]
    by_cases ha : g a = 0
    · omega
    · -- The key is used up, so the others contribute nothing.
      have hzero : ∀ b ∈ l, g b = 0 := by
        intro b hb
        by_contra hne
        apply hn.1
        rw [hkey.1 ha, ← hkey.2 b hb hne]
        exact List.mem_map_of_mem hb
      have hsum : (l.map g).sum = 0 := by
        apply List.sum_eq_zero
        rw [List.forall_mem_map]
        exact hzero
      have hle := hone.1
      omega

/-- One credential is allowed at most once. -/
theorem countP_credential (credentialId : Text) :
    t.receipts.countP (fun r ↦ allows r.toReceiptFields &&
      decide (r.credentialId = some credentialId)) ≤ 1 := by
  rw [countP_receipts]
  have hnodup := t.brokers.credentialId
  rw [fresh_of_nil, List.map_map] at hnodup
  apply sum_le_one (k := credentialId) hnodup
  · intro c _
    calc c.receipts.countP _ ≤ c.receipts.countP (fun r ↦ allows r.toReceiptFields) :=
          List.countP_mono_left fun r _ hr ↦ (Bool.and_eq_true_iff.mp hr).1
      _ ≤ 1 := by
          rw [c.countP_allows]
          split <;> omega
  · intro c _ hne
    obtain ⟨r, hr, hcredential⟩ := List.countP_pos_iff.mp (Nat.pos_of_ne_zero hne)
    obtain ⟨a, -, rfl⟩ := List.mem_map.mp hr
    have hsame := decide_eq_true_eq.mp (Bool.and_eq_true_iff.mp hcredential).2
    rw [a.claims.credentialId] at hsame
    exact Option.some.inj hsame

/-- The challenge hashes that the loop collects are those of the receipts. -/
theorem resourceChallengeHashes_eq : t.seen.resourceChallengeHashes = t.challengeHashes := by
  rw [t.seen_eq, Seen.resourceChallengeHashes, challengeHashes, receipts, List.filterMap_flatMap,
    List.filterMap_flatMap]
  congr 1
  funext c
  rw [List.filterMap_map, List.filterMap_map]
  apply List.filterMap_congr
  intro a _
  exact a.claims.challengeTokenHash.symm

/-- The replayed hash that the loop leaves is the first of the replay case. -/
theorem replayHashes_some {v : Verifiers} {observedAt : Int} {hash : Option Text} {replayed : Text}
    {cases : List (VerifiedCase lib v observedAt)}
    (h : replayHashes hash (cases.map VerifiedCase.observation)
      (cases.map fun c ↦ (c.binding, c.attempts.map VerifiedAttempt.binding)) = some replayed) :
    hash = some replayed ∨ ∃ c ∈ cases, c.observation.val.variant = .replay ∧
      (c.attempts.map VerifiedAttempt.binding).head?.bind ResourceBinding.challengeTokenHash =
        some replayed := by
  induction cases generalizing hash with
  | nil => exact .inl h
  | cons c cases ih =>
    rcases ih h with hfirst | ⟨d, hd, hreplay⟩
    · rw [replayHash] at hfirst
      split at hfirst
      · next hvariant => exact .inr ⟨c, List.mem_cons_self, hvariant, hfirst⟩
      · exact .inl hfirst
    · exact .inr ⟨d, List.mem_cons_of_mem _ hd, hreplay⟩

/-- The replayed challenge: the one that two receipts have, both of the replay case. -/
theorem exists_replayed : ∃ replayed, t.challengeHashes.count replayed = 2 ∧
    (∀ hash ∈ t.challengeHashes, hash ≠ replayed → t.challengeHashes.count hash = 1) ∧
    ∀ c ∈ t.cases, c.observation.val.variant = .replay → ∃ first second,
      c.receipts = [first, second] ∧ first.challengeTokenHash = some replayed ∧
      second.challengeTokenHash = some replayed ∧ first.recordId = second.recordId ∧
      first.argumentsDigest = second.argumentsDigest := by
  have h := t.challenges
  simp only [Seen.checkChallenges, bind_eq_ok, orRaise_eq_ok, raiseIf_eq_ok, not_or, ne_eq,
    not_not, not_exists, not_and, t.resourceChallengeHashes_eq] at h
  obtain ⟨replayed, hreplayed, htwice, hcounts⟩ := h
  refine ⟨replayed, htwice, ?_, ?_⟩
  · intro hash hmem hne
    rw [hcounts hash hmem, if_neg hne]
  · intro c hc hvariant
    rw [t.seen_eq] at hreplayed
    rcases replayHashes_some hreplayed with hnone | ⟨d, hd, hreplay, hhead⟩
    · cases hnone
    · obtain rfl := t.eq_of_variant hc hd (hvariant.trans hreplay.symm)
      obtain ⟨a, b, hattempts, ha, hb, hrecord, harguments⟩ := c.attempts_of_replay hvariant hhead
      refine ⟨a.receipt, b.receipt, by rw [VerifiedCase.receipts, hattempts]; rfl, ?_, ?_, ?_, ?_⟩
      · rw [a.claims.challengeTokenHash, ha]
      · rw [b.claims.challengeTokenHash, hb]
      · rw [a.claims.recordId, b.claims.recordId, hrecord]
      · rw [a.claims.argumentsDigest, b.claims.argumentsDigest, harguments]

/-- Each variant has one case. -/
theorem countP_variant (w : Variant) :
    t.cases.countP (fun c ↦ decide (c.observation.val.variant = w)) = 1 := by
  have h := t.variants_perm.count_eq w
  have hone : Variant.all.count w = 1 := by cases w <;> decide
  rw [hone, List.count, List.countP_map] at h
  rw [← h]
  congr 1

/-- The broker receipts have distinct identifiers, credentials, challenges and issuance requests. -/
structure DistinctBrokers : Prop where
  receiptId : (t.cases.map fun c ↦ c.receipt.receiptId).Nodup
  credentialId : (t.cases.map fun c ↦ c.receipt.credentialId).Nodup
  challengeTokenHash : (t.cases.map fun c ↦ c.receipt.challengeTokenHash).Nodup
  issuanceRequest : (t.cases.map fun c ↦
    c.receipt.artifactHashes[text "issuance_request_sha256"]?).Nodup
  jws : (p.val.cases.map fun c ↦ c.val.brokerReceiptJws.val).Nodup

private theorem nodup_of_binding {α β : Type} {cases : List α} {f : α → β} {g : α → Text}
    {h : Text → β} (hinj : Function.Injective h) (hfg : ∀ c ∈ cases, f c = h (g c))
    (hn : (cases.map g).Nodup) : (cases.map f).Nodup := by
  have heq : cases.map f = (cases.map g).map h := by
    rw [List.map_map]
    exact List.map_congr_left hfg
  rw [heq]
  exact hn.map hinj

/-- The broker receipts of a verified record are distinct. -/
theorem distinctBrokers : t.DistinctBrokers := by
  have hb := t.brokers
  obtain ⟨hjws, hid, hcredential, hchallenge⟩ := hb
  rw [fresh_of_nil, List.map_map] at hjws hid hcredential hchallenge
  constructor
  · exact nodup_of_binding Function.injective_id (fun c _ ↦ c.claims.receiptId) hid
  · exact nodup_of_binding (Option.some_injective _) (fun c _ ↦ c.claims.credentialId) hcredential
  · exact nodup_of_binding (Option.some_injective _) (fun c _ ↦ c.claims.challengeTokenHash)
      hchallenge
  · apply nodup_of_binding (Option.some_injective _) (fun c _ ↦ c.claims.issuanceRequestSha256)
    have h := t.issuances
    simp only [Seen.checkIssuances, bind_eq_ok, raiseIf_eq_ok, ne_eq, not_not] at h
    obtain ⟨_, hcount, -⟩ := h
    rw [t.seen_eq, Seen.brokerCount, ← t.cases_eq, List.length_map, List.map_map] at hcount
    apply nodup_of_card
    rw [List.length_map]
    exact hcount
  · rw [← t.cases_eq, List.map_map]
    exact nodup_of_binding Function.injective_id (fun c _ ↦ c.jws.symm) hjws

/-- The attempts of the record, with their receipts. -/
theorem attempts_eq : p.val.attempts =
    t.cases.flatMap fun c ↦ c.attempts.map VerifiedAttempt.attempt := by
  rw [ExperimentRecordFields.attempts, ← t.cases_eq, List.flatMap_map]
  congr 1
  funext c
  exact c.attempts_eq.symm

/-- Something of each receipt that is something of its attempt. -/
theorem map_receipts {β : Type} {f : DecisionReceiptPayload → β} {g : AttemptObservation → β}
    (h : ∀ c ∈ t.cases, ∀ a ∈ c.attempts, f a.receipt = g a.attempt) :
    t.receipts.map f = p.val.attempts.map g := by
  rw [t.attempts_eq, receipts, List.map_flatMap, List.map_flatMap]
  apply List.flatMap_congr
  intro c hc
  rw [List.map_map, List.map_map]
  exact List.map_congr_left (h c hc)

/-- No resource receipt is used twice. -/
theorem distinctResources : (t.receipts.map fun r ↦ r.receiptId).Nodup ∧
    (p.val.attempts.map fun a ↦ a.val.receiptJws.val).Nodup := by
  obtain ⟨hjws, hid⟩ := t.resources
  rw [fresh_of_nil, List.map_flatMap] at hjws hid
  constructor
  · rw [receipts, List.map_flatMap]
    convert hid using 2
    funext c
    rw [List.map_map, List.map_map]
    exact List.map_congr_left fun a _ ↦ a.claims.receiptId
  · rw [t.attempts_eq, List.map_flatMap]
    convert hjws using 2
    funext c
    rw [List.map_map, List.map_map]
    exact List.map_congr_left fun a _ ↦ a.claims.jws.symm

/-- The declared totals are those of the receipts. -/
structure Totals : Prop where
  broker : p.val.brokerReceiptCount.val = t.cases.length
  resource : p.val.resourceReceiptCount.val = t.receipts.length
  allowed : p.val.allowedAttemptCount.val =
    t.receipts.countP fun r ↦ allows r.toReceiptFields
  denied : p.val.deniedAttemptCount.val =
    t.receipts.countP fun r ↦ !allows r.toReceiptFields
  handler : p.val.handlerInvocationCount.val = 3
  redemption : p.val.credentialRedemptionCount.val = 3
  snapshot : (t.receipts.map fun r ↦ r.handlerCountSnapshot).max? =
    some p.val.handlerInvocationCount.val

/-- The totals of a verified record are those of its cases. -/
theorem totals : t.Totals := by
  have h := p.declared_eq
  simp only [ExperimentRecordFields.declared, ExperimentRecordFields.observed, List.cons.injEq,
    and_true] at h
  obtain ⟨hbroker, hresource, hallowed, hdenied, -⟩ := h
  have hmap : t.receipts.map (fun r ↦ allows r.toReceiptFields) =
      p.val.attempts.map fun a ↦ a.val.allowed :=
    t.map_receipts fun c _ a _ ↦ a.allows_receipt
  have hcount : ∀ f : Bool → Bool, t.receipts.countP (fun r ↦ f (allows r.toReceiptFields)) =
      p.val.attempts.countP fun a ↦ f a.val.allowed := by
    intro f
    have heq := congrArg (List.countP f) hmap
    rw [List.countP_map, List.countP_map] at heq
    exact heq
  constructor
  · rw [hbroker, ← t.cases_eq, List.length_map]
  · have hlength := congrArg List.length hmap
    rw [List.length_map, List.length_map] at hlength
    rw [hresource, hlength]
  · rw [hallowed]
    exact congrArg Nat.cast (hcount id).symm
  · rw [hdenied]
    exact congrArg Nat.cast (hcount not).symm
  · exact p.counts_eq.1
  · exact p.counts_eq.2
  · have hs := t.snapshots
    simp only [Seen.checkSnapshots, raiseIf_eq_ok, not_or, ne_eq, not_not] at hs
    rw [← hs.2.2, t.seen_eq, receipts, List.map_flatMap, List.map_flatMap]
    congr 2
    funext c
    rw [List.map_map, List.map_map]
    exact List.map_congr_left fun a _ ↦ a.claims.handlerCountSnapshot

end RecordTrace

/-- What an accepted record proves: seven cases, one for each variant; seven broker receipts that
allow, with nothing in common; resource receipts for the credential and the scope of their own
case; one receipt that allows for each of the valid, the replay and the concurrent case, and no
other; no challenge used twice but the replayed one; no receipt used twice; and the declared
totals. -/
theorem verify_proves {lib : Libraries} {importKey : ImportKey} {r : ExperimentRecordVerifier}
    {signed : SignedExperimentRecord} {p : ExperimentRecordPayload}
    (h : r.verify lib importKey signed = .ok p) :
    ∃ t : RecordTrace lib importKey p,
      (t.cases.length = 7 ∧
        ∀ w, t.cases.countP (fun c ↦ decide (c.observation.val.variant = w)) = 1) ∧
      (∀ c ∈ t.cases, c.receipt.decidingService = .broker ∧ c.receipt.decision = .allow ∧
        c.receipt.reason = .ALLOW ∧ c.receipt.credentialId.isSome = true ∧
        c.receipt.qualifiedScope.isSome = true) ∧
      t.DistinctBrokers ∧
      (∀ c ∈ t.cases, ∀ q ∈ c.receipts, q.decidingService = .inventoryd ∧
        q.credentialId = c.receipt.credentialId ∧ q.qualifiedScope = c.receipt.qualifiedScope) ∧
      (∀ credentialId, t.receipts.countP (fun q ↦ allows q.toReceiptFields &&
        decide (q.credentialId = some credentialId)) ≤ 1) ∧
      t.receipts.countP (fun q ↦ allows q.toReceiptFields) = 3 ∧
      (∀ c ∈ t.cases,
        (c.receipts.filter fun q ↦ allows q.toReceiptFields).map (fun q ↦ q.invocationId) =
          (expectedInvocationId c.observation.val.variant).toList.map some) ∧
      (∃ replayed, t.challengeHashes.count replayed = 2 ∧
        (∀ hash ∈ t.challengeHashes, hash ≠ replayed → t.challengeHashes.count hash = 1) ∧
        ∀ c ∈ t.cases, c.observation.val.variant = .replay → ∃ first second,
          c.receipts = [first, second] ∧ first.challengeTokenHash = some replayed ∧
          second.challengeTokenHash = some replayed ∧ first.recordId = second.recordId ∧
          first.argumentsDigest = second.argumentsDigest) ∧
      ((t.receipts.map fun q ↦ q.receiptId).Nodup ∧
        (p.val.attempts.map fun a ↦ a.val.receiptJws.val).Nodup) ∧
      t.Totals := by
  obtain ⟨header, payload, -, -, hembedded⟩ := ExperimentRecordVerifier.verify_eq_ok h
  obtain ⟨t⟩ := exists_recordTrace hembedded
  refine ⟨t, ⟨?_, t.countP_variant⟩, ?_, t.distinctBrokers, ?_, t.countP_credential,
    t.countP_allows, fun c _ ↦ c.invocationIds_allows, t.exists_replayed, t.distinctResources,
    t.totals⟩
  · have hlength := t.variants_perm.length_eq
    rw [List.length_map] at hlength
    exact hlength
  · intro c _
    refine ⟨c.claims.decidingService, c.claims.decision, c.claims.reason, ?_, ?_⟩
    · rw [c.claims.credentialId, Option.isSome_some]
    · rw [c.claims.qualifiedScope, Option.isSome_some]
  · intro c _ q hq
    obtain ⟨a, -, rfl⟩ := List.mem_map.mp hq
    refine ⟨a.claims.decidingService, ?_, ?_⟩
    · rw [a.claims.credentialId, c.claims.credentialId]
    · rw [a.claims.qualifiedScope, c.claims.qualifiedScope]

/-! ### A record of the stand-in -/

/-- A call that returns nothing has returned. -/
theorem ok_of_isOk {x : Except Exn Unit} (h : x.isOk = true) : x = .ok () := by
  cases x with
  | ok => rfl
  | error => cases h

namespace Demo

/-- A digest of one digit, apart from its last one. -/
def digest (digit last : Fin 10) : Hex32 :=
  ⟨List.replicate 63 (decimalDigit digit) ++ [decimalDigit last], by
    revert digit last
    decide +kernel⟩

private theorem isNonempty_compact (header : Value) (payload key : Bytes) :
    isNonempty (hex ((Json.canonicalText header).elim [] utf8) ++ codePoint '.' ::
      (hex payload ++ codePoint '.' :: hex key)) = true := by
  have hdot : ∀ t : Text, t.encodable = true →
      Text.encodable (codePoint '.' :: t) = true := by
    intro t ht
    rw [← List.singleton_append, encodable_append, ht]
    rfl
  rw [isNonempty, Bool.and_eq_true, decide_eq_true_eq, encodable_append, encodable_hex,
    Bool.true_and, List.length_append, List.length_cons]
  refine ⟨by omega, hdot _ ?_⟩
  rw [encodable_append, encodable_hex, Bool.true_and]
  exact hdot _ (encodable_hex _)

/-- What the stand-in signs, with the key as the signature. -/
def compact (header : Value) (payload key : Bytes) : NonemptyText :=
  ⟨hex ((Json.canonicalText header).elim [] utf8) ++ codePoint '.' ::
    (hex payload ++ codePoint '.' :: hex key), isNonempty_compact header payload key⟩

/-- The canonical bytes of a dump. -/
def encoded (dump : Value) : Bytes := (Json.canonicalText dump).elim [] utf8

/-- The stand-in encodes a dump that has a canonical form. -/
theorem canonicalJson_encoded {dump : Value} (hk : dump.distinctKeys = true)
    (hf : Json.floatFree dump = true) (hc : Json.canonicalizable dump = true) :
    canonicalJson standIn dump = .ok (encoded dump) := by
  obtain ⟨t, ht⟩ := Json.exists_canonicalText hc hf
  rw [(rfc8785_standIn.canonicalJson_eq_ok hk hf), encoded, ht]
  exact ⟨hc, t, rfl, rfl⟩

/-- A header of the stand-in with its members in order. -/
theorem deserialize_compact {m : List (Text × Value)} (hk : (Value.dict m).distinctKeys = true)
    (hs : Json.sorted (.dict m) = .dict m) {t : Text} (ht : Json.canonicalText (.dict m) = some t)
    (payload key : Bytes) :
    standIn.jwsDeserializeCompact (compact (.dict m) payload key).val key =
      .ok (.dict m, payload) := by
  have h : standIn.jwsSerializeCompact (.dict m) payload key =
      .ok (compact (.dict m) payload key).val := by
    simp only [standIn, StandIn.serialize, compact, ht, Option.elim_some]
  exact deserialize_serialize_dict hk hs h

/-- The receipts of the stand-in are verified to their claims. -/
theorem verify_compact (key : Bytes) (keyId : Text) (p : DecisionReceiptPayload)
    (hc : Json.canonicalizable p.modelDump = true) :
    ReceiptVerifier.verify standIn ⟨key, keyId⟩
      ⟨(compact (protectedHeader keyId) (encoded p.modelDump) key).val⟩ = .ok p := by
  have hpayload : canonicalJson standIn p.modelDump = .ok (encoded p.modelDump) :=
    canonicalJson_encoded p.distinctKeys_modelDump p.floatFree_modelDump hc
  generalize encoded p.modelDump = payload at hpayload ⊢
  have hsigned : standIn.jwsDeserializeCompact (compact (protectedHeader keyId) payload key).val
      key = .ok (protectedHeader keyId, payload) := by
    obtain ⟨t, ht⟩ : ∃ t, Json.canonicalText (protectedHeader keyId) = some t := ⟨_, rfl⟩
    exact deserialize_compact rfl rfl ht payload key
  generalize (compact (protectedHeader keyId) payload key).val = t at hsigned ⊢
  exact (verify_eq_ok_iff rfc8785_standIn hsigned (isTexts_protectedHeader ⟨key, keyId⟩)).mpr
    hpayload

/-- An allow of the broker for one case. -/
def brokerReceipt (n : Fin 10) : ReceiptFields where
  receiptId := List.replicate 32 (decimalDigit n)
  decidingService := .broker
  decision := .allow
  reason := .ALLOW
  decidedAt := 1000
  credentialId := some (digest 1 n).val
  qualifiedScope := some expectedQualifiedScope
  challengeTokenHash := some (digest 2 n).val
  manifestDigest := some (text "sha256:" ++ (digest 3 0).val)
  method := none
  audience := none
  argumentsDigest := none
  recordId := none
  invocationId := none
  handlerCountSnapshot := 0
  handlerInvoked := false
  businessResult := .notApplicable
  artifactHashes := Std.ExtTreeMap.ofList [(text "broker_policy_sha256", (digest 4 0).val),
    (text "issuance_request_sha256", (digest 5 n).val),
    (text "tpm_ak_chain_sha256", (digest 6 0).val), (text "tpm_attest_sha256", (digest 6 1).val),
    (text "tpm_signature_sha256", (digest 6 2).val)]

/-- What it binds. -/
def brokerBinding (n : Fin 10) : BrokerBinding where
  jws := (compact (protectedHeader (text "1")) (encoded (brokerReceipt n).modelDump) [1]).val
  receiptId := List.replicate 32 (decimalDigit n)
  decidedAt := 1000
  credentialId := (digest 1 n).val
  qualifiedScope := expectedQualifiedScope
  challengeTokenHash := (digest 2 n).val
  manifestDigest := text "sha256:" ++ (digest 3 0).val
  brokerPolicySha256 := (digest 4 0).val
  issuanceRequestSha256 := (digest 5 n).val
  tpmAkChainSha256 := (digest 6 0).val
  tpmAttestSha256 := (digest 6 1).val
  tpmSignatureSha256 := (digest 6 2).val

/-- The broker receipt of a demo case states its binding. -/
theorem brokerClaims (n : Fin 10) : BrokerClaims 1002 (brokerReceipt n) (brokerBinding n) where
  receiptId := rfl
  decidedAt := rfl
  decidingService := rfl
  decision := rfl
  reason := rfl
  credentialId := rfl
  qualifiedScope := rfl
  challengeTokenHash := rfl
  manifestDigest := rfl
  observed := show (1000 : Int) ≤ 1002 by decide
  artifactNames := by
    revert n
    decide +kernel
  lowerHex := by
    revert n
    decide +kernel
  manifest := by
    revert n
    decide +kernel
  unbound := ⟨rfl, rfl, rfl, rfl⟩
  brokerPolicySha256 := rfl
  issuanceRequestSha256 := rfl
  tpmAkChainSha256 := rfl
  tpmAttestSha256 := rfl
  tpmSignatureSha256 := rfl

/-- One redemption of a case: its worker request, its place in the case, the reason of the decision
and the count of the invocations before the last one. -/
structure Redemption where
  case : Fin 10
  run : Fin 10
  second : Bool
  reason : Reason
  earlier : Nat

namespace Redemption

variable (r : Redemption)

/-- Whether the attempt is allowed. -/
def allowed : Bool := decide (r.reason = .ALLOW)

/-- The receipt of the attempt. -/
def receipt : ReceiptFields where
  receiptId := List.replicate 32 (decimalDigit r.run) ++ decimalNat r.second.toNat
  decidingService := .inventoryd
  decision := if r.allowed then .allow else .deny
  reason := r.reason
  decidedAt := 1001
  credentialId := some (digest 1 r.case).val
  qualifiedScope := some expectedQualifiedScope
  challengeTokenHash := if r.case = 7 then none else some (digest 7 r.run).val
  manifestDigest := none
  method := some expectedMethod
  audience := some expectedAudience
  argumentsDigest := some (digest 8 r.case).val
  recordId := some [decimalDigit r.run]
  invocationId := if r.allowed then some (r.earlier + 1) else none
  handlerCountSnapshot := r.earlier + 1
  handlerInvoked := r.allowed
  businessResult := if r.allowed then .completed else .notInvoked
  artifactHashes := Std.ExtTreeMap.ofList [(text "resource_policy_sha256", (digest 9 0).val)]

/-- What it binds. -/
def binding : ResourceBinding where
  jws := (compact (protectedHeader (text "2")) (encoded r.receipt.modelDump) [2]).val
  receiptId := List.replicate 32 (decimalDigit r.run) ++ decimalNat r.second.toNat
  decidedAt := 1001
  challengeTokenHash := if r.case = 7 then none else some (digest 7 r.run).val
  method := expectedMethod
  audience := expectedAudience
  argumentsDigest := (digest 8 r.case).val
  recordId := [decimalDigit r.run]
  handlerCountSnapshot := r.earlier + 1
  resourcePolicySha256 := (digest 9 0).val

/-- The observation of the attempt. -/
def fields : AttemptFields where
  runId := ⟨[decimalDigit r.run], by
    generalize r.run = n
    revert n
    decide⟩
  redemptionSequence := if r.second then ⟨2, rfl⟩ else ⟨1, rfl⟩
  requestSha256 := digest 1 r.run
  workerResponseSha256 := digest 2 r.run
  holderProofSha256 := digest 3 r.run
  allowed := r.allowed
  reason := r.reason
  receiptJws := compact (protectedHeader (text "2")) (encoded r.receipt.modelDump) [2]
  handlerInvoked := r.allowed
  businessResult := if r.allowed then ⟨.completed, rfl⟩ else ⟨.notInvoked, rfl⟩
  invocationId := if r.allowed then some ⟨r.earlier + 1, by simp⟩ else none

/-- The attempt that made it. -/
def attempt : AttemptObservation :=
  ⟨r.fields, by
    unfold AttemptFields.check fields allowed
    by_cases h : r.reason = .ALLOW <;> simp [h, raiseIf]⟩

/-- The receipt of a demo attempt states its binding. -/
theorem claims {variant : Variant} (hv : variant = .malformed ↔ r.case = 7) :
    ResourceClaims 1002 (brokerBinding r.case) variant r.fields r.receipt r.binding where
  jws := rfl
  receiptId := rfl
  decidedAt := rfl
  challengeTokenHash := rfl
  handlerCountSnapshot := rfl
  decidingService := rfl
  decision := rfl
  reason := rfl
  credentialId := rfl
  qualifiedScope := rfl
  method := rfl
  audience := rfl
  argumentsDigest := rfl
  recordId := rfl
  manifestDigest := rfl
  ordered := show (1000 : Int) ≤ 1001 ∧ (1001 : Int) ≤ 1002 by decide
  handlerInvoked := rfl
  businessResult := by
    simp only [receipt, fields]
    split <;> rfl
  invocationId := by
    simp only [receipt, fields]
    split <;> rfl
  artifactNames := show artifactNames (Std.ExtTreeMap.ofList
      [(text "resource_policy_sha256", (digest 9 0).val)]) = {text "resource_policy_sha256"} by
    decide +kernel
  resourcePolicySha256 := rfl
  lowerHex := ⟨(digest 9 0).property, (digest 8 r.case).property⟩
  malformed := fun h ↦ if_pos (hv.mp h)
  challenged := fun h ↦ by
    rw [binding, if_neg fun hcase ↦ h (hv.mpr hcase)]
    exact (digest 7 r.run).property

end Redemption

/-- The two receipt verifiers. -/
def verifiers : Verifiers := ⟨⟨[1], text "1"⟩, ⟨[2], text "2"⟩⟩

/-- The image of the worker. -/
def image : Image := ⟨text "r/w@sha256:" ++ (digest 0 0).val, by decide +kernel⟩

/-- A response of the malformed case. -/
def response : WorkerResponse where
  caseId := ⟨text "c", by decide⟩
  runId := ⟨text "c", by decide⟩
  requestSha256 := digest 1 0
  workerPublicKey := digest 2 0
  proofSubject := digest 2 0
  workerImage := image
  workerCodeDigest := digest 3 0
  holderProof := ⟨⟨text "token", by decide⟩, .seven⟩
  runpodMetadata := {}
  holderSignature := ⟨(digest 4 0).val ++ (digest 5 0).val, by decide +kernel⟩

/-- A case with its redemptions. -/
def observation (n : Fin 10) (variant : Variant) (rs : List Redemption) : CaseFields where
  caseId := ⟨[decimalDigit n], by
    revert n
    decide⟩
  variant := variant
  brokerReceiptJws := compact (protectedHeader (text "1")) (encoded (brokerReceipt n).modelDump) [1]
  workerPublicKey := digest 0 1
  workerImage := image
  workerCodeDigest := digest 0 2
  runpodMetadata := if variant = .concurrent then rs.map fun _ ↦ {} else [{}]
  attempts := rs.map Redemption.attempt
  invocationDelta := if variant.allows then ⟨1, rfl⟩ else ⟨0, rfl⟩
  credentialRedemptionCount := if variant.allows then ⟨1, rfl⟩ else ⟨0, rfl⟩

/-- The cases of the record. -/
def table : List (Fin 10 × Variant × List Redemption) :=
  [(1, .valid, [⟨1, 1, false, .ALLOW, 0⟩]),
    (2, .replay, [⟨2, 2, false, .ALLOW, 1⟩, ⟨2, 2, true, .CHALLENGE_CONSUMED, 1⟩]),
    (4, .argumentSubstitution, [⟨4, 4, false, .HOLDER_PROOF_INVALID, 1⟩]),
    (5, .recordSubstitution, [⟨5, 5, false, .HOLDER_PROOF_INVALID, 1⟩]),
    (6, .wrongHolder, [⟨6, 6, false, .HOLDER_PROOF_INVALID, 1⟩]),
    (7, .malformed, [⟨7, 7, false, .HOLDER_PROOF_INVALID, 1⟩]),
    (3, .concurrent, [⟨3, 3, false, .ALLOW, 2⟩, ⟨3, 8, false, .CREDENTIAL_SPENT, 2⟩])]

/-- The receipts of the table are valid and can be encoded. -/
theorem receipts_valid : ∀ c ∈ table,
    (brokerReceipt c.1).check.isOk = true ∧
      Json.canonicalizable (brokerReceipt c.1).modelDump = true ∧
      ∀ r ∈ c.2.2, r.case = c.1 ∧ (c.2.1 = .malformed ↔ r.case = 7) ∧
        r.receipt.check.isOk = true ∧ Json.canonicalizable r.receipt.modelDump = true := by
  decide +kernel

/-- Every case of the table passes its validator. -/
theorem check_observation : ∀ c ∈ table, (observation c.1 c.2.1 c.2.2).check = .ok () := by
  -- The sorted outcomes of the race are not evaluated.
  have hshape : ∀ c ∈ table, (observation c.1 c.2.1 c.2.2).checkShape.isOk = true ∧
      (1 ≤ c.2.2.length ∧ c.2.2.length ≤ 2) ∧
      (c.2.2.map fun r ↦ (r.allowed, r.reason)) =
        expectedOutcomes (c.2.2.length - 1) c.2.1 := by
    decide +kernel
  intro c hc
  obtain ⟨hchecked, hlength, houtcomes⟩ := hshape c hc
  have hattempts : (observation c.1 c.2.1 c.2.2).attempts.length = c.2.2.length := List.length_map _
  have hmetadata : (observation c.1 c.2.1 c.2.2).runpodMetadata.length =
      if c.2.1 = .concurrent then c.2.2.length else 1 := by
    simp only [observation]
    split <;> simp
  simp only [CaseFields.check, bind_eq_ok, raiseIf_eq_ok, not_or, ne_eq, not_not]
  refine ⟨(), ?_, (), ok_of_isOk hchecked, (), ?_, ?_, ?_, ?_⟩
  · rw [hmetadata, hattempts]
    split <;> omega
  · rw [hmetadata, hattempts]
    rfl
  · rw [hattempts]
    refine observedOutcomes_of_eq (Eq.trans ?_ houtcomes)
    simp only [observation, List.map_map]
    rfl
  · cases hallows : c.2.1.allows <;> simp [observation, hallows]
  · cases hallows : c.2.1.allows <;> simp [observation, hallows]

/-- The cases of the record. -/
def cases : List CaseObservation :=
  table.attach.map fun c ↦
    ⟨observation c.val.1 c.val.2.1 c.val.2.2, check_observation c.val c.property⟩

/-- What the receipts of the cases bind. -/
def bindings : List CaseBinding :=
  table.map fun c ↦ (brokerBinding c.1, c.2.2.map Redemption.binding)

/-- The receipts of a case are verified, and bind the case. -/
theorem caseBinds {c : Fin 10 × Variant × List Redemption} (hc : c ∈ table) :
    CaseBinds standIn verifiers 1002 ⟨observation c.1 c.2.1 c.2.2, check_observation c hc⟩
      (brokerBinding c.1, c.2.2.map Redemption.binding) := by
  obtain ⟨hvalid, hencodable, hreceipts⟩ := receipts_valid c hc
  have hchecked : ∀ c ∈ table, (checkCaseReceipts (observation c.1 c.2.1 c.2.2)
      (c.2.2.map Redemption.binding)).isOk = true := by
    decide +kernel
  constructor
  · rfl
  · exact ⟨⟨_, ok_of_isOk hvalid⟩, verify_compact _ _ ⟨_, ok_of_isOk hvalid⟩ hencodable,
      brokerClaims c.1⟩
  · change List.Forall₂ _ (c.2.2.map Redemption.attempt) (c.2.2.map Redemption.binding)
    rw [List.forall₂_map_left_iff, List.forall₂_map_right_iff, List.forall₂_same]
    intro r hr
    obtain ⟨hcase, hmalformed, hvalid, hencodable⟩ := hreceipts r hr
    refine ⟨⟨_, ok_of_isOk hvalid⟩, verify_compact _ _ ⟨_, ok_of_isOk hvalid⟩ hencodable, ?_⟩
    rw [← hcase]
    exact r.claims hmalformed
  · exact ok_of_isOk (hchecked c hc)

/-- A published receipt key. -/
def receiptKey (name : Fin 10) : PublicReceiptVerifier :=
  ⟨{  keyId := ⟨[decimalDigit name], by
        revert name
        decide⟩
      publicJwk := {
        x := ⟨List.replicate 43 (decimalDigit name), by
          revert name
          decide +kernel⟩
        kid := ⟨[decimalDigit name], by
          revert name
          decide⟩ } }, by
    simp [PublicReceiptVerifierFields.check, raiseIf]⟩

/-- The record. -/
def record : ExperimentRecordFields where
  experimentId := ⟨text "e", by decide⟩
  observedAt := ⟨1002, rfl⟩
  commitSha := ⟨List.replicate 40 (codePoint 'c'), by decide +kernel⟩
  uvLockSha256 := digest 0 3
  tpmMode := .testDouble
  tpmEvidenceVerified := false
  tpmAssuranceIncluded := false
  workerPublicKey := digest 0 1
  workerImage := image
  workerCodeDigest := digest 0 2
  brokerReceiptVerifier := receiptKey 1
  resourceReceiptVerifier := receiptKey 2
  runpodObservation := ⟨digest 0 4, digest 0 5, none, image, none, none⟩
  brokerReceiptCount := ⟨7, rfl⟩
  resourceReceiptCount := ⟨9, rfl⟩
  allowedAttemptCount := ⟨3, rfl⟩
  deniedAttemptCount := ⟨6, rfl⟩
  handlerInvocationCount := ⟨3, rfl⟩
  credentialRedemptionCount := ⟨3, rfl⟩
  cases := cases

set_option maxRecDepth 100000 in
/-- The demo record passes the checks of its model. -/
theorem check_record : record.check = .ok () := ok_of_isOk (by decide +kernel)

/-- The receipts bind the cases. -/
theorem recordBinds : RecordBinds standIn verifiers record bindings where
  cases := by
    rw [bindings, ← List.attach_map_val]
    simp only [record, cases, List.forall₂_map_left_iff, List.forall₂_map_right_iff,
      List.forall₂_same]
    exact fun c _ ↦ caseBinds c.property
  brokerIds := by decide +kernel
  credentialIds := by decide +kernel
  challengeTokenHashes := by decide +kernel
  resourceIds := by decide +kernel
  checked := by
    rintro s rfl
    exact ⟨ok_of_isOk (by decide +kernel), ok_of_isOk (by decide +kernel),
      ok_of_isOk (by decide +kernel), ok_of_isOk (by decide +kernel)⟩

/-- A key is named by its key id. -/
def importKey : ImportKey := fun jwk ↦
  match jwk.get? (text "kid") with
  | some (.str [c]) => .ok [UInt8.ofNat (c.val - 48)]
  | _ => .error .other

/-- The verifier of the record. -/
def verifier : ExperimentRecordVerifier := ⟨[3], text "3"⟩

/-- The signed record. -/
def signed : SignedExperimentRecord :=
  ⟨compact (recordHeader (text "3")) (encoded record.modelDump) [3]⟩

/-- The signed demo record is verified. -/
theorem verify_signed : verifier.verify standIn importKey signed = .ok ⟨record, check_record⟩ := by
  have hrestores := ExperimentRecordFields.restores_modelValidate
  have hraw : canonicalJson standIn record.modelDump = .ok (encoded record.modelDump) :=
    canonicalJson_encoded (hrestores.distinctKeys ⟨record, check_record⟩)
      (hrestores.floatFree ⟨record, check_record⟩)
      (ExperimentRecordPayload.canonicalizable_modelDump ⟨record, check_record⟩ rfl)
  have hembedded : verifyEmbeddedReceipts standIn importKey record = .ok () :=
    recordBinds.verifyEmbeddedReceipts rfl rfl
  obtain ⟨t, ht⟩ : ∃ t, Json.canonicalText (recordHeader (text "3")) = some t := ⟨_, rfl⟩
  have hsigned := fun raw ↦ deserialize_compact rfl rfl ht raw [3]
  unfold signed
  generalize encoded record.modelDump = raw at hraw ⊢
  exact ExperimentRecordVerifier.verify_of_dump rfc8785_standIn (hsigned raw) rfl hraw hembedded

end Demo

/-- The record of the stand-in is accepted, and has three receipts that allow. -/
theorem verify_proves_record :
    Demo.verifier.verify standIn Demo.importKey Demo.signed =
      .ok ⟨Demo.record, Demo.check_record⟩ ∧
    ∃ t : RecordTrace standIn Demo.importKey ⟨Demo.record, Demo.check_record⟩,
      t.receipts.countP (fun q ↦ allows q.toReceiptFields) = 3 := by
  obtain ⟨t, -, -, -, -, -, hallows, -⟩ := verify_proves Demo.verify_signed
  exact ⟨Demo.verify_signed, t, hallows⟩

end Atcap.Lab
