import Mathlib.Data.List.Perm.Subperm
import Atcap.Lab.Validation

/-!
# The bundle of responses

The run-id set of the whole bundle, the split by claimed case id and the run-id dictionary of each
case are three partial checks. Together they pair the responses with the prepared requests one to
one, whatever the worker returned and in whatever order.
-/

namespace Atcap.Lab

open Base

/-! ### Groups of a list by a key -/

section Groups

variable {α κ : Type} [DecidableEq κ] (key : α → κ)

/-- The groups of distinct keys, one after the other, are the elements with one of these keys. -/
theorem flatMap_filter_perm {ks : List κ} (hk : ks.Nodup) (xs : List α) :
    (ks.flatMap fun k ↦ xs.filter fun x ↦ decide (key x = k)).Perm
      (xs.filter fun x ↦ decide (key x ∈ ks)) := by
  induction ks with
  | nil => simp
  | cons k ks ih =>
    rw [List.nodup_cons] at hk
    rw [List.flatMap_cons]
    have hsplit := List.filter_append_perm (fun x ↦ decide (key x = k))
      (xs.filter fun x ↦ decide (key x ∈ k :: ks))
    rw [List.filter_filter, List.filter_filter] at hsplit
    refine (List.Perm.append (List.Perm.of_eq ?_) ((ih hk.2).trans (List.Perm.of_eq ?_))).trans
      hsplit
    · apply List.filter_congr
      intro x _
      simp only [List.mem_cons, Bool.decide_or]
      by_cases hx : key x = k
      · simp [hx]
      · simp [hx]
    · apply List.filter_congr
      intro x _
      by_cases hx : key x = k
      · simp [hx, hk.1]
      · simp [hx]

/-- Groups of distinct keys with as many elements as the list are the whole list. -/
theorem flatMap_filter_perm_of_length {ks : List κ} (hk : ks.Nodup) {xs : List α}
    (hl : xs.length ≤ (ks.flatMap fun k ↦ xs.filter fun x ↦ decide (key x = k)).length) :
    (ks.flatMap fun k ↦ xs.filter fun x ↦ decide (key x = k)).Perm xs := by
  have hp := flatMap_filter_perm key hk xs
  rw [hp.length_eq] at hl
  exact hp.trans (List.Perm.of_eq (List.filter_sublist.eq_of_length_le hl))

end Groups

/-! ### One case -/

namespace TrustedController

variable {requests : List WorkerRequest} {responses responses' ordered : List WorkerResponse}

/-- Among distinct run ids, the dictionary finds the one response. -/
theorem byRunId_eq_some (hn : (responses.map WorkerResponse.runId).Nodup) {runId : RunId}
    {r : WorkerResponse} :
    byRunId responses runId = some r ↔ r ∈ responses ∧ r.runId = runId := by
  unfold byRunId
  constructor
  · intro hf
    exact ⟨List.mem_reverse.mp (List.mem_of_find?_eq_some hf), by simpa using List.find?_some hf⟩
  · rintro ⟨hmem, hid⟩
    have hsome : (responses.reverse.find? fun r ↦ decide (r.runId = runId)).isSome := by
      rw [List.find?_isSome]
      exact ⟨r, List.mem_reverse.mpr hmem, by simpa using hid⟩
    obtain ⟨r', hr'⟩ := Option.isSome_iff_exists.mp hsome
    have hmem' := List.mem_reverse.mp (List.mem_of_find?_eq_some hr')
    have hid' : r'.runId = runId := by simpa using List.find?_some hr'
    rw [hr', List.inj_on_of_nodup_map hn hmem' hmem (hid'.trans hid.symm)]

/-- The number of distinct run ids is the number of responses just when none is repeated. -/
theorem card_runIds : (responses.map WorkerResponse.runId).toFinset.card = responses.length ↔
    (responses.map WorkerResponse.runId).Nodup := by
  have hlength : (responses.map WorkerResponse.runId).length = responses.length := List.length_map _
  rw [List.card_toFinset, ← hlength]
  constructor
  · intro hl
    rw [← List.dedup_eq_self]
    exact (List.dedup_sublist _).eq_of_length hl
  · intro hn
    rw [hn.dedup]

/-- What the order of a case's responses is. -/
theorem orderResponses_ok (h : orderResponses requests responses = .ok ordered) :
    (responses.map WorkerResponse.runId).Nodup ∧ responses.length = requests.length ∧
      List.Forall₂ (fun q r ↦ r ∈ responses ∧ r.runId = q.runId) requests ordered := by
  simp only [orderResponses, bind_eq_ok, raiseIf_eq_ok, ne_eq, not_not] at h
  obtain ⟨_, hlength, _, hcard, _, -, hmap⟩ := h
  have hn := card_runIds.mp hcard
  refine ⟨hn, hlength, ?_⟩
  clear hlength
  induction requests generalizing ordered with
  | nil =>
    cases hmap
    exact .nil
  | cons q requests ih =>
    simp only [List.mapM_cons, bind_eq_ok, orRaise_eq_ok, pure, Except.pure, Except.ok.injEq]
      at hmap
    obtain ⟨r, hr, rest, hrest, rfl⟩ := hmap
    exact .cons ((byRunId_eq_some hn).mp hr) (ih hrest)

/-- The ordered responses have the run ids of the requests. -/
theorem map_runId_ordered (h : orderResponses requests responses = .ok ordered) :
    ordered.map WorkerResponse.runId = requests.map WorkerRequest.runId := by
  obtain ⟨-, -, hall⟩ := orderResponses_ok h
  clear h
  induction hall with
  | nil => rfl
  | cons hr _ ih =>
    rw [List.map_cons, List.map_cons, hr.2]
    exact congrArg _ ih

/-- The ordered responses are the responses of the case. -/
theorem ordered_perm (h : orderResponses requests responses = .ok ordered)
    (hn : (requests.map WorkerRequest.runId).Nodup) : ordered.Perm responses := by
  obtain ⟨-, hlength, hall⟩ := orderResponses_ok h
  have hids := map_runId_ordered h
  have hordered : ordered.Nodup := by
    rw [← hids] at hn
    exact hn.of_map _
  have hsub : ordered ⊆ responses := by
    clear h hn hlength hids hordered
    induction hall with
    | nil => exact List.nil_subset _
    | cons hr _ ih => exact List.cons_subset.mpr ⟨hr.1, ih⟩
  apply (hordered.subperm hsub).perm_of_length_le
  rw [hlength, hall.length_eq]

/-- The order in which the worker listed its responses does not matter. -/
theorem orderResponses_perm (hp : responses.Perm responses') :
    orderResponses requests responses = orderResponses requests responses' := by
  have hset : (responses.map WorkerResponse.runId).toFinset =
      (responses'.map WorkerResponse.runId).toFinset :=
    List.toFinset_eq_of_perm _ _ (hp.map _)
  unfold orderResponses
  rw [hp.length_eq, hset]
  by_cases hn : (responses'.map WorkerResponse.runId).toFinset.card = responses'.length
  · have hnodup' := card_runIds.mp hn
    have hnodup : (responses.map WorkerResponse.runId).Nodup := (hp.map _).nodup_iff.mpr hnodup'
    have hfind : byRunId responses = byRunId responses' := by
      funext runId
      apply Option.ext
      intro r
      rw [byRunId_eq_some hnodup, byRunId_eq_some hnodup', hp.mem_iff]
    rw [hfind]
  · have hraise : raiseIf ((responses'.map WorkerResponse.runId).toFinset.card ≠ responses'.length)
        (LabExn.protocol "worker returned duplicate run IDs") =
        .error (LabExn.protocol "worker returned duplicate run IDs") :=
      raiseIf_eq_error.mpr ⟨hn, rfl⟩
    rw [hraise]
    rfl

/-! ### All cases -/

/-- The requests of a validated case with their responses. -/
def ValidatedCase.pairs (v : ValidatedCase) : List (WorkerRequest × WorkerResponse) :=
  v.prepared.val.requests.zip v.orderedResponses

/-- The requests of all validated cases with their responses. -/
def pairing (validated : List ValidatedCase) : List (WorkerRequest × WorkerResponse) :=
  validated.flatMap ValidatedCase.pairs

/-- What a process was shown of a case before it redeems. -/
structure Validates (D : Deployment) (ctrl : TrustedController) (h : LabHistory)
    (input : PreparedCase × List WorkerResponse) (v : ValidatedCase) : Prop where
  prepared : v.prepared = input.1
  parsed : Told h (.credentialFromDict (.dict input.1.val.grant.credential))
    (.ok v.grant.credential)
  granted : ctrl.verifyGrant D v.grant = .ok ()
  ordered : orderResponses input.1.val.requests input.2 = .ok v.orderedResponses
  vetted : ∀ p ∈ v.pairs, Vetted D ctrl h p.1 p.2

variable {L : Type} {A : LabHistory → Event LabOp LabOp.Reply → Prop}
  {G : LabHistory → LabOp → Prop} {h : LabHistory} {l : L} {D : Deployment}
  {ctrl : TrustedController}

/-- A longer history keeps what it shows of a case. -/
theorem Validates.mono {h' : LabHistory} {input : PreparedCase × List WorkerResponse}
    {v : ValidatedCase} (hv : Validates D ctrl h input v) (hs : h <+: h') :
    Validates D ctrl h' input v :=
  { hv with
    parsed := hv.parsed.mono hs
    vetted := fun p hp ↦ (hv.vetted p hp).mono hs }

/-- A longer history keeps what it shows of all cases. -/
theorem validates_mono {h' : LabHistory} {inputs : List (PreparedCase × List WorkerResponse)}
    {validated : List ValidatedCase} (hv : List.Forall₂ (Validates D ctrl h) inputs validated)
    (hs : h <+: h') : List.Forall₂ (Validates D ctrl h') inputs validated :=
  hv.imp fun _ _ hone ↦ hone.mono hs

/-- A grant read back has the credential that the parser returned. -/
theorem fromWire_returns (hask : Asking G) (g : CapabilityGrantWire) :
    Body.Returns A G (fun h' grant ↦
        Told h' (.credentialFromDict (.dict g.credential)) (.ok grant.credential))
      (CapabilityGrant.fromWire g : Script L _) h l := by
  unfold CapabilityGrant.fromWire
  apply returns_askLibExcept hask
  intro credential
  exact Body.Returns.pure (told_last _ _ _)

/-- `_validate_case_inputs` returns a validated case. -/
theorem validateCaseInputs_returns (hask : Asking G) (prepared : PreparedCase)
    (responses : List WorkerResponse) :
    Body.Returns A G (fun h' r ↦ Validates D ctrl h' (prepared, responses) ⟨prepared, r.1, r.2⟩)
      (ctrl.validateCaseInputs D prepared responses) h l := by
  unfold validateCaseInputs
  apply Body.Returns.bind (fromWire_returns hask _)
  intro h₁ grant _ _ hparsed
  apply Body.Returns.ofExcept
  intro _ hgranted
  apply Body.Returns.ofExcept
  intro ordered hordered
  apply Body.Returns.bind (validatePairs_returns hask _)
  intro h₂ _ _ hs hvetted
  exact Body.Returns.pure ⟨rfl, hparsed.mono hs, hgranted, hordered, hvetted⟩

/-- The first loop of `finalize_cases` returns every case validated. -/
theorem validateCases_returns (hask : Asking G)
    (inputs : List (PreparedCase × List WorkerResponse)) :
    Body.Returns A G (fun h' validated ↦ List.Forall₂ (Validates D ctrl h') inputs validated)
      (ctrl.validateCases D inputs) h l := by
  induction inputs generalizing h l with
  | nil => exact Body.Returns.pure .nil
  | cons input inputs ih =>
    apply Body.Returns.bind (validateCaseInputs_returns hask input.1 input.2)
    intro h₁ r _ _ hone
    apply Body.Returns.bind ih
    intro h₂ validated _ hs hrest
    exact Body.Returns.pure (.cons (hone.mono hs) hrest)

/-- Validation depends on which responses a case has, not on their order. -/
theorem validateCases_perm {inputs inputs' : List (PreparedCase × List WorkerResponse)}
    (hp : List.Forall₂ (fun i i' ↦ i.1 = i'.1 ∧ i.2.Perm i'.2) inputs inputs') :
    (ctrl.validateCases D inputs : Script L _) = ctrl.validateCases D inputs' := by
  induction hp with
  | nil => rfl
  | @cons i i' inputs inputs' hone _ ih =>
    obtain ⟨prepared, responses⟩ := i
    obtain ⟨prepared', responses'⟩ := i'
    obtain ⟨rfl, hperm⟩ := hone
    simp only [validateCases, validateCaseInputs, orderResponses_perm hperm, ih]

end TrustedController

/-! ### The whole bundle -/

/-- The run ids of a prepared case are distinct. -/
theorem PreparedCase.nodup_runIds (k : PreparedCase) :
    (k.val.requests.map WorkerRequest.runId).Nodup := by
  have hk := k.property
  simp only [PreparedCaseFields.check, bind_eq_ok, raiseIf_eq_ok, not_not] at hk
  obtain ⟨_, -, _, -, _, -, _, -, hnodup⟩ := hk
  exact hnodup

/-- The case ids and the run ids of a trusted state are distinct. -/
theorem TrustedLabState.nodup_ids (state : TrustedLabState) :
    (state.val.preparedCases.map fun k ↦ k.val.spec.val.caseId).Nodup ∧
      ((preparedRequests state.val.preparedCases).map WorkerRequest.runId).Nodup := by
  have hs := state.property
  simp only [TrustedLabStateFields.check, bind_eq_ok, raiseIf_eq_ok, not_not] at hs
  obtain ⟨_, -, _, hcases, _, hruns, -⟩ := hs
  exact ⟨hcases, hruns⟩

section Pairing

open TrustedController

variable {D : Deployment} {ctrl : TrustedController} {h : LabHistory}
  {inputs : List (PreparedCase × List WorkerResponse)} {validated : List ValidatedCase}

/-- The ordered responses of a case are its responses. -/
theorem TrustedController.Validates.perm {input : PreparedCase × List WorkerResponse}
    {v : ValidatedCase} (hv : Validates D ctrl h input v) : v.orderedResponses.Perm input.2 :=
  ordered_perm hv.ordered input.1.nodup_runIds

/-- A case has as many ordered responses as requests. -/
theorem TrustedController.Validates.length_eq {input : PreparedCase × List WorkerResponse}
    {v : ValidatedCase} (hv : Validates D ctrl h input v) :
    v.orderedResponses.length = input.1.val.requests.length := by
  have hids := congrArg List.length (map_runId_ordered hv.ordered)
  rwa [List.length_map, List.length_map] at hids

/-- The pairing lists the prepared requests in order. -/
theorem map_fst_pairing (hv : List.Forall₂ (Validates D ctrl h) inputs validated) :
    (pairing validated).map Prod.fst = preparedRequests (inputs.map Prod.fst) := by
  induction hv with
  | nil => rfl
  | @cons input v inputs validated hone _ ih =>
    have hfst : v.pairs.map Prod.fst = input.1.val.requests := by
      rw [ValidatedCase.pairs, hone.prepared, List.map_fst_zip hone.length_eq.ge]
    rw [pairing, List.flatMap_cons, List.map_append, hfst, List.map_cons, preparedRequests,
      List.flatMap_cons]
    exact congrArg _ ih

/-- The pairing uses up the responses of the cases. -/
theorem map_snd_pairing (hv : List.Forall₂ (Validates D ctrl h) inputs validated) :
    ((pairing validated).map Prod.snd).Perm (inputs.flatMap Prod.snd) := by
  induction hv with
  | nil => exact .refl _
  | @cons input v inputs validated hone _ ih =>
    have hsnd : v.pairs.map Prod.snd = v.orderedResponses := by
      rw [ValidatedCase.pairs, hone.prepared, List.map_snd_zip hone.length_eq.le]
    rw [pairing, List.flatMap_cons, List.map_append, hsnd, List.flatMap_cons]
    exact hone.perm.append ih

/-- A bundle with the prepared run ids, each once, is used up by the cases it is split into. -/
theorem pairing_perm {state : TrustedLabState} {responses : List WorkerResponse}
    (hn : (responses.map WorkerResponse.runId).Nodup)
    (hset : (responses.map WorkerResponse.runId).toFinset =
      ((preparedRequests state.val.preparedCases).map WorkerRequest.runId).toFinset)
    (hv : List.Forall₂ (Validates D ctrl h) (caseInputs state.val.preparedCases responses)
      validated) :
    ((pairing validated).map Prod.snd).Perm responses := by
  obtain ⟨hcases, hruns⟩ := state.nodup_ids
  have hperm := map_snd_pairing hv
  have hgroups : (caseInputs state.val.preparedCases responses).flatMap Prod.snd =
      (state.val.preparedCases.map fun k ↦ k.val.spec.val.caseId).flatMap fun caseId ↦
        responses.filter fun r ↦ decide (r.caseId = caseId) := by
    rw [caseInputs, List.flatMap_map, List.flatMap_map]
  rw [hgroups] at hperm
  refine hperm.trans (flatMap_filter_perm_of_length WorkerResponse.caseId hcases ?_)
  -- As many responses as requests: both have the same distinct run ids.
  have hfst := congrArg List.length (map_fst_pairing hv)
  rw [List.length_map, caseInputs, List.map_map] at hfst
  have hcard := congrArg Finset.card hset
  rw [List.toFinset_card_of_nodup hn, List.toFinset_card_of_nodup hruns, List.length_map,
    List.length_map] at hcard
  rw [← hperm.length_eq, List.length_map, hfst, hcard]
  exact (congrArg (fun ks ↦ (preparedRequests ks).length) (List.map_id _).symm).le

end Pairing
end Atcap.Lab
