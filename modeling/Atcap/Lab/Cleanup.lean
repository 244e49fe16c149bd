import Atcap.Lab.ProviderReadback

/-!
# Resource cleanup

`scripts/run-live.sh`: `snapshot_resource`, `delete_resource` and `cleanup_resource`. The provider,
the clock and the local commands are the environment, one `Poll` for each pass of the loop. What
the shell does is the list of its events, in order. A shell variable that holds no identifier is
the empty text.
-/

namespace Atcap.Cleanup

open Base Readback

/-! ### The shell functions -/

/-- `CLEANUP_LIST_ATTEMPTS`. -/
def CLEANUP_LIST_ATTEMPTS : Nat := 12

/-- `CLEANUP_ABSENCE_SNAPSHOTS`. -/
def CLEANUP_ABSENCE_SNAPSHOTS : Nat := 3

/-- `CLEANUP_UNVERIFIED_ABSENCE_SNAPSHOTS`. -/
def CLEANUP_UNVERIFIED_ABSENCE_SNAPSHOTS : Nat := 8

/-- `CLEANUP_DELETE_ATTEMPTS`. -/
def CLEANUP_DELETE_ATTEMPTS : Nat := 2

/-- One listing as the provider and the local commands leave it. -/
structure Listing where
  /-- Whether `capture_bounded` of the listing command succeeded. -/
  captured : Bool
  /-- The captured file, if it can be read. -/
  file : Option Bytes
  /-- Whether the observation could be written and read back. -/
  recorded : Bool

/-- What happens around one pass of the loop. -/
structure Poll where
  /-- `SECONDS` at the start of the pass. -/
  seconds : Int
  listing : Listing
  /-- Whether a delete command succeeds. -/
  deleted : Bool

/-- What the shell reads and does, in order. -/
inductive Event where
  | clock (seconds : Int)
  | listed (listing : Listing)
  | deleted (id : Text) (succeeded : Bool)

/-- `snapshot_resource`: `snapshot_exact_name_id` and `snapshot_id_present`, or the status 1. -/
def snapshotResource (decimal : Text → Bool) (resourceName resourceId : Text) (l : Listing) :
    Option (Text × Bool) :=
  if l.captured = false then none
  else
    match inspectResourceListing decimal l.file resourceName
      (if resourceId = [] then none else some resourceId) with
    | .error _ => none
    | .ok o =>
      if l.recorded = false then none else some (o.exactNameId.getD [], o.requestedIdPresent)

/-- The local variables of `cleanup_resource`. -/
structure Progress where
  consecutiveAbsent : Nat
  deleteAttempts : Nat
  requiredAbsent : Nat

variable (decimal : Text → Bool) (resourceName verifiedId : Text) (deadline : Int)

/-- `target_id`: the identifier under the exact name, else the verified one if it is present. -/
def target (verifiedId : Text) (snapshot : Text × Bool) : Text :=
  if snapshot.1 ≠ [] then snapshot.1
  else if verifiedId ≠ [] ∧ snapshot.2 = true then verifiedId
  else []

/-- The pass of the loop after its snapshot: the variables, what was done, and the status if the
function returns. -/
def afterSnapshot (p : Progress) (snapshot : Text × Bool) (deleted : Bool) :
    Progress × List Event × Option Bool :=
  if verifiedId ≠ [] ∧ snapshot.1 ≠ [] ∧ snapshot.1 ≠ verifiedId then (p, [], some false)
  else if target verifiedId snapshot ≠ [] then
    let p := { p with consecutiveAbsent := 0, requiredAbsent := CLEANUP_ABSENCE_SNAPSHOTS }
    if CLEANUP_DELETE_ATTEMPTS ≤ p.deleteAttempts then (p, [], some false)
    else
      ({ p with deleteAttempts := p.deleteAttempts + 1 },
        [.deleted (target verifiedId snapshot) deleted], none)
  else
    let p := { p with consecutiveAbsent := p.consecutiveAbsent + 1 }
    (p, [], if p.requiredAbsent ≤ p.consecutiveAbsent then some true else none)

/-- One pass of the loop. -/
def pass (p : Progress) (poll : Poll) : Progress × List Event × Option Bool :=
  if deadline ≤ poll.seconds then (p, [.clock poll.seconds], some false)
  else
    match snapshotResource decimal resourceName verifiedId poll.listing with
    | none => (p, [.clock poll.seconds, .listed poll.listing], some false)
    | some snapshot =>
      match afterSnapshot verifiedId p snapshot poll.deleted with
      | (p, events, status) =>
        (p, [.clock poll.seconds, .listed poll.listing] ++ events, status)

/-- The `for` loop, with the passes left. The status is 1 when they are used up. -/
def passes (polls : Nat → Poll) : (left iteration : Nat) → Progress → List Event × Bool
  | 0, _, _ => ([], false)
  | left + 1, iteration, p =>
    match pass decimal resourceName verifiedId deadline p (polls iteration) with
    | (_, events, some status) => (events, status)
    | (p, events, none) =>
      match passes polls left (iteration + 1) p with
      | (later, status) => (events ++ later, status)

/-- `cleanup_resource`: the events, and whether the status is 0. -/
def cleanupResource (createAttempted : Bool) (polls : Nat → Poll) : List Event × Bool :=
  if createAttempted = false then ([], true)
  else
    passes decimal resourceName verifiedId deadline polls CLEANUP_LIST_ATTEMPTS 1
      { consecutiveAbsent := 0
        deleteAttempts := 0
        requiredAbsent :=
          if verifiedId = [] then CLEANUP_UNVERIFIED_ABSENCE_SNAPSHOTS
          else CLEANUP_ABSENCE_SNAPSHOTS }

/-! ### What the listings show -/

/-- The listings of a run. -/
def listings (events : List Event) : List Listing :=
  events.filterMap fun
    | .listed l => some l
    | _ => none

/-- The identifiers a run deleted. -/
def deletes (events : List Event) : List Text :=
  events.filterMap fun
    | .deleted id _ => some id
    | _ => none

/-- The items of a listing that was captured whole. -/
def Listing.items (l : Listing) : Option (List Item) :=
  if l.captured = false then none
  else
    match completeItems decimal l.file with
    | .error _ => none
    | .ok items => some items

/-- A complete listing with the exact name. -/
def ShowsName (l : Listing) : Prop :=
  ∃ items, l.items decimal = some items ∧ ∃ item ∈ items, item.name = resourceName

/-- A complete listing with neither the exact name nor the verified identifier. -/
def ShowsAbsence (l : Listing) : Prop :=
  ∃ items, l.items decimal = some items ∧ (∀ item ∈ items, item.name ≠ resourceName) ∧
    (verifiedId ≠ [] → ∀ item ∈ items, item.id ≠ verifiedId)

/-- A complete listing shows an identifier as one to delete: under the exact name, or as the
verified one. -/
def ShowsTarget (id : Text) (l : Listing) : Prop :=
  ∃ items, l.items decimal = some items ∧
    (⟨id, resourceName⟩ ∈ items ∨
      (verifiedId ≠ [] ∧ id = verifiedId ∧ ∃ item ∈ items, item.id = verifiedId))

/-- A listing that must fail the cleanup: incomplete or malformed, not recorded, two items under
the exact name, or another identifier than the verified one under it. -/
def Unusable (l : Listing) : Prop :=
  l.recorded = false ∨
    ∀ items, l.items decimal = some items →
      1 < (named resourceName items).length ∨
        (verifiedId ≠ [] ∧ ∃ item ∈ items, item.name = resourceName ∧ item.id ≠ verifiedId)

/-- What a successful snapshot says of its listing. -/
structure Snapshot (l : Listing) (items : List Item) (snapshot : Text × Bool) : Prop where
  complete : l.items decimal = some items
  recorded : l.recorded = true
  unique : (named resourceName items).length ≤ 1
  absent : snapshot.1 = [] ↔ ∀ item ∈ items, item.name ≠ resourceName
  exactName : snapshot.1 ≠ [] → ⟨snapshot.1, resourceName⟩ ∈ items
  exactId : ∀ item ∈ items, item.name = resourceName → snapshot.1 = item.id
  present : verifiedId ≠ [] → (snapshot.2 = true ↔ ∃ item ∈ items, item.id = verifiedId)

variable {decimal resourceName verifiedId deadline}

/-- The identifier that the shell reads is empty exactly when no item has the name. -/
theorem getD_eq_nil_iff {resourceId : Option Text} {file : Option Bytes} {items : List Item}
    {o : Observation} (hitems : completeItems decimal file = .ok items)
    (ho : Observes resourceName resourceId items o) :
    o.exactNameId.getD [] = [] ↔ ∀ item ∈ items, item.name ≠ resourceName := by
  constructor
  · intro hnil item hitem hname
    subst hname
    have hsome : o.exactNameId = some item.id := (ho.exactName item.id).mpr hitem
    rw [hsome, Option.getD_some] at hnil
    exact ne_nil_of_isResourceId (isResourceId_of_mem hitems hitem) hnil
  · intro habsent
    cases hid : o.exactNameId with
    | none => rfl
    | some id => exact absurd rfl (habsent _ ((ho.exactName id).mp hid))

/-- A snapshot succeeds on a complete listing only. -/
theorem snapshotResource_some {l : Listing} {snapshot : Text × Bool}
    (h : snapshotResource decimal resourceName verifiedId l = some snapshot) :
    ∃ items, Snapshot decimal resourceName verifiedId l items snapshot := by
  unfold snapshotResource at h
  split at h
  · cases h
  · next hcaptured =>
    split at h
    · cases h
    · next o hinspect =>
      split at h
      · cases h
      · next hrecorded =>
        cases h
        obtain ⟨items, hitems, ho⟩ := inspectResourceListing_observes hinspect
        refine ⟨items, ?_, by simpa using hrecorded, ho.unique, getD_eq_nil_iff hitems ho, ?_, ?_,
          ?_⟩
        · rw [Listing.items, if_neg hcaptured, hitems]
        · intro hne
          apply (ho.exactName _).mp
          cases hid : o.exactNameId with
          | none =>
            rw [hid] at hne
            exact absurd rfl hne
          | some id => rfl
        · intro item hitem hname
          subst hname
          rw [(ho.exactName item.id).mpr hitem, Option.getD_some]
        · intro hverified
          rw [ho.requestedId, if_neg hverified]
          simp

/-- Without a target the listing shows absence. -/
theorem Snapshot.showsAbsence {l : Listing} {items : List Item} {snapshot : Text × Bool}
    (h : Snapshot decimal resourceName verifiedId l items snapshot)
    (htarget : target verifiedId snapshot = []) :
    ShowsAbsence decimal resourceName verifiedId l := by
  unfold target at htarget
  split at htarget
  · next hne => exact absurd htarget hne
  · next hnil =>
    refine ⟨items, h.complete, h.absent.mp (not_not.mp hnil), ?_⟩
    intro hverified item hitem hid
    rw [if_pos ⟨hverified, (h.present hverified).mpr ⟨item, hitem, hid⟩⟩] at htarget
    exact hverified htarget

/-- A target is shown by the listing, and is the verified identifier if there is one. -/
theorem Snapshot.showsTarget {l : Listing} {items : List Item} {snapshot : Text × Bool}
    (h : Snapshot decimal resourceName verifiedId l items snapshot)
    (hagree : ¬(verifiedId ≠ [] ∧ snapshot.1 ≠ [] ∧ snapshot.1 ≠ verifiedId))
    (htarget : target verifiedId snapshot ≠ []) :
    ShowsTarget decimal resourceName verifiedId (target verifiedId snapshot) l ∧
      (verifiedId ≠ [] → target verifiedId snapshot = verifiedId) := by
  unfold target at htarget ⊢
  split
  · next hne =>
    refine ⟨⟨items, h.complete, .inl (h.exactName hne)⟩, ?_⟩
    intro hverified
    by_contra hother
    exact hagree ⟨hverified, hne, hother⟩
  · next hnil =>
    rw [if_neg hnil] at htarget
    split at htarget
    · next hpresent =>
      rw [if_pos hpresent]
      exact ⟨⟨items, h.complete, .inr ⟨hpresent.1, rfl, (h.present hpresent.1).mp hpresent.2⟩⟩,
        fun _ ↦ rfl⟩
    · exact absurd rfl htarget

/-- A snapshot that agrees with the verified identifier is usable. -/
theorem Snapshot.usable {l : Listing} {items : List Item} {snapshot : Text × Bool}
    (h : Snapshot decimal resourceName verifiedId l items snapshot)
    (hagree : ¬(verifiedId ≠ [] ∧ snapshot.1 ≠ [] ∧ snapshot.1 ≠ verifiedId)) :
    ¬Unusable decimal resourceName verifiedId l := by
  rintro (hrecorded | hitems)
  · rw [h.recorded] at hrecorded
    cases hrecorded
  rcases hitems items h.complete with htwo | ⟨hverified, item, hitem, hname, hid⟩
  · have hunique := h.unique
    omega
  · apply hagree
    refine ⟨hverified, fun hnil ↦ h.absent.mp hnil item hitem hname, ?_⟩
    rw [h.exactId item hitem hname]
    exact hid

/-! ### What holds along a run -/

variable (decimal resourceName verifiedId deadline)

/-- Every delete follows at once a listing that shows its identifier, and no identifier but a
verified one is deleted. -/
def Justified (events : List Event) : Prop :=
  ∀ before id succeeded after, events = before ++ .deleted id succeeded :: after →
    (∃ earlier l, before = earlier ++ [.listed l] ∧
      ShowsTarget decimal resourceName verifiedId id l) ∧
    (verifiedId ≠ [] → id = verifiedId)

/-- No listing that must fail the cleanup, and no reading of the clock at the deadline. -/
def Usable (events : List Event) : Prop :=
  (∀ l ∈ listings events, ¬Unusable decimal resourceName verifiedId l) ∧
    ∀ seconds, .clock seconds ∈ events → seconds < deadline

/-- The number of consecutive absences that the listings so far require. -/
def Required (events : List Event) (k : Nat) : Prop :=
  (verifiedId = [] ∧ (∀ l ∈ listings events, ¬ShowsName decimal resourceName l) ∧ k = 8) ∨
    ((verifiedId ≠ [] ∨ ∃ l ∈ listings events, ShowsName decimal resourceName l) ∧ k = 3)

/-- The last `k` listings show absence. -/
def AbsentLast (events : List Event) (k : Nat) : Prop :=
  ∃ earlier last, listings events = earlier ++ last ∧ last.length = k ∧
    ∀ l ∈ last, ShowsAbsence decimal resourceName verifiedId l

/-- What holds before each pass of the loop. -/
structure Tracked (events : List Event) (p : Progress) : Prop where
  absent : AbsentLast decimal resourceName verifiedId events p.consecutiveAbsent
  required : Required decimal resourceName verifiedId events p.requiredAbsent
  short : p.consecutiveAbsent < p.requiredAbsent
  attempts : (deletes events).length = p.deleteAttempts
  few : p.deleteAttempts ≤ CLEANUP_DELETE_ATTEMPTS
  justified : Justified decimal resourceName verifiedId events
  usable : Usable decimal resourceName verifiedId deadline events

/-- What holds of the events of a run that returned a status. -/
structure Returned (events : List Event) (status : Bool) : Prop where
  few : (deletes events).length ≤ CLEANUP_DELETE_ATTEMPTS
  justified : Justified decimal resourceName verifiedId events
  usable : status = true → Usable decimal resourceName verifiedId deadline events
  absent : status = true → ∃ k, Required decimal resourceName verifiedId events k ∧
    AbsentLast decimal resourceName verifiedId events k

variable {decimal resourceName verifiedId deadline}

private theorem snoc_split {events before after : List Event} {e x : Event}
    (h : events ++ [e] = before ++ x :: after) :
    (before = events ∧ x = e) ∨ ∃ rest, events = before ++ x :: rest := by
  rcases List.eq_nil_or_concat after with rfl | ⟨rest, last, rfl⟩
  · have hlast := List.append_inj_right' h rfl
    exact .inl ⟨(List.append_inj_left' h rfl).symm, (List.cons.inj hlast).1.symm⟩
  · rw [List.concat_eq_append, ← List.cons_append, ← List.append_assoc] at h
    exact .inr ⟨rest, List.append_inj_left' h rfl⟩

/-- An event that is no delete needs no justification. -/
theorem Justified.snoc {events : List Event} {e : Event}
    (h : Justified decimal resourceName verifiedId events)
    (he : ∀ id succeeded, e ≠ .deleted id succeeded) :
    Justified decimal resourceName verifiedId (events ++ [e]) := by
  intro before id succeeded after heq
  rcases snoc_split heq with ⟨-, hlast⟩ | ⟨rest, hrest⟩
  · exact absurd hlast.symm (he id succeeded)
  · exact h before id succeeded rest hrest

/-- A delete after a listing that shows its target. -/
theorem Justified.snoc_deleted {events : List Event} {l : Listing} {id : Text} {succeeded : Bool}
    (h : Justified decimal resourceName verifiedId (events ++ [.listed l]))
    (hshown : ShowsTarget decimal resourceName verifiedId id l)
    (hid : verifiedId ≠ [] → id = verifiedId) :
    Justified decimal resourceName verifiedId
      (events ++ [.listed l] ++ [.deleted id succeeded]) := by
  intro before id' succeeded' after heq
  rcases snoc_split heq with ⟨hbefore, hlast⟩ | ⟨rest, hrest⟩
  · cases hlast
    exact ⟨⟨events, l, hbefore, hshown⟩, hid⟩
  · exact h before id' succeeded' rest hrest

/-- The events of a pass up to its listing. -/
def heard (events : List Event) (poll : Poll) : List Event :=
  events ++ [.clock poll.seconds] ++ [.listed poll.listing]

/-- A poll adds its listing. -/
@[simp] theorem listings_heard (events : List Event) (poll : Poll) :
    listings (heard events poll) = listings events ++ [poll.listing] := by
  simp [heard, listings]

/-- A poll deletes nothing. -/
@[simp] theorem deletes_heard (events : List Event) (poll : Poll) :
    deletes (heard events poll) = deletes events := by
  simp [heard, deletes]

/-- A deletion lists nothing. -/
@[simp] theorem listings_snoc_deleted (events : List Event) (id : Text) (succeeded : Bool) :
    listings (events ++ [.deleted id succeeded]) = listings events := by
  simp [listings]

/-- A deletion adds its id. -/
@[simp] theorem deletes_snoc_deleted (events : List Event) (id : Text) (succeeded : Bool) :
    deletes (events ++ [.deleted id succeeded]) = deletes events ++ [id] := by
  simp [deletes]

variable {events : List Event} {p : Progress} {poll : Poll}

/-- Neither the clock nor a listing needs a justification. -/
theorem Tracked.justified_heard (h : Tracked decimal resourceName verifiedId deadline events p)
    (poll : Poll) : Justified decimal resourceName verifiedId (heard events poll) := by
  apply Justified.snoc
  · apply h.justified.snoc
    intro id succeeded heq
    cases heq
  · intro id succeeded heq
    cases heq

/-- A pass whose snapshot agrees keeps the run usable. -/
theorem Tracked.usable_heard (h : Tracked decimal resourceName verifiedId deadline events p)
    (hclock : poll.seconds < deadline)
    (hlisting : ¬Unusable decimal resourceName verifiedId poll.listing) :
    Usable decimal resourceName verifiedId deadline (heard events poll) := by
  constructor
  · rw [listings_heard, List.forall_mem_append, List.forall_mem_singleton]
    exact ⟨h.usable.1, hlisting⟩
  · intro seconds hmem
    simp only [heard, List.mem_append, List.mem_singleton, Event.clock.injEq, reduceCtorEq,
      or_false] at hmem
    rcases hmem with hmem | rfl
    · exact h.usable.2 seconds hmem
    · exact hclock

/-- A status that is not 0 leaves nothing to show about the listings. -/
theorem Tracked.returned_false (h : Tracked decimal resourceName verifiedId deadline events p)
    {events' : List Event} (hdeletes : deletes events' = deletes events)
    (hjustified : Justified decimal resourceName verifiedId events') :
    Returned decimal resourceName verifiedId deadline events' false := by
  refine ⟨?_, hjustified, by simp, by simp⟩
  rw [hdeletes, h.attempts]
  exact h.few

/-- What a pass leaves behind: the invariant, or the status of the run. -/
def Passed (decimal : Text → Bool) (resourceName verifiedId : Text) (deadline : Int)
    (events : List Event) (p : Progress) : Option Bool → Prop
  | none => Tracked decimal resourceName verifiedId deadline events p
  | some status => Returned decimal resourceName verifiedId deadline events status

/-- A listing without the name changes nothing about the horizon. -/
theorem Required.heard_absent {k : Nat} (h : Required decimal resourceName verifiedId events k)
    (hl : ShowsAbsence decimal resourceName verifiedId poll.listing) :
    Required decimal resourceName verifiedId (heard events poll) k := by
  rcases h with ⟨hid, hnone, hk⟩ | ⟨hseen, hk⟩
  · refine .inl ⟨hid, ?_, hk⟩
    rw [listings_heard, List.forall_mem_append, List.forall_mem_singleton]
    refine ⟨hnone, ?_⟩
    rintro ⟨items, hitems, item, hitem, hname⟩
    obtain ⟨items', hitems', habsent, -⟩ := hl
    cases hitems.symm.trans hitems'
    exact habsent item hitem hname
  · refine .inr ⟨hseen.imp id ?_, hk⟩
    rintro ⟨l, hmem, hl⟩
    exact ⟨l, by simp [hmem], hl⟩

/-- A target shortens the horizon: the identifier is verified or the name was seen. -/
theorem Required.heard_target (events : List Event) {id : Text}
    (htarget : ShowsTarget decimal resourceName verifiedId id poll.listing) :
    Required decimal resourceName verifiedId (heard events poll) 3 := by
  refine .inr ⟨?_, rfl⟩
  obtain ⟨items, hitems, hnamed | ⟨hverified, -⟩⟩ := htarget
  · exact .inr ⟨poll.listing, by simp, items, hitems, _, hnamed, rfl⟩
  · exact .inl hverified

/-- One more absence. -/
theorem AbsentLast.heard {k : Nat} (h : AbsentLast decimal resourceName verifiedId events k)
    (hl : ShowsAbsence decimal resourceName verifiedId poll.listing) :
    AbsentLast decimal resourceName verifiedId (heard events poll) (k + 1) := by
  obtain ⟨earlier, last, heq, hlength, hlast⟩ := h
  refine ⟨earlier, last ++ [poll.listing], ?_, ?_, ?_⟩
  · rw [listings_heard, heq, List.append_assoc]
  · rw [List.length_append, hlength, List.length_singleton]
  · rw [List.forall_mem_append, List.forall_mem_singleton]
    exact ⟨hlast, hl⟩

/-- The pass after its snapshot keeps the invariant, or returns a status. -/
theorem afterSnapshot_passed {items : List Item} {snapshot : Text × Bool}
    (h : Tracked decimal resourceName verifiedId deadline events p)
    (hclock : poll.seconds < deadline)
    (hs : Snapshot decimal resourceName verifiedId poll.listing items snapshot) (deleted : Bool) :
    Passed decimal resourceName verifiedId deadline
      (heard events poll ++ (afterSnapshot verifiedId p snapshot deleted).2.1)
      (afterSnapshot verifiedId p snapshot deleted).1
      (afterSnapshot verifiedId p snapshot deleted).2.2 := by
  have hjustified := h.justified_heard poll
  unfold afterSnapshot
  split
  · rw [List.append_nil]
    exact h.returned_false (deletes_heard events poll) hjustified
  · next hagree =>
    have husable := h.usable_heard hclock (hs.usable hagree)
    split
    · next htarget =>
      obtain ⟨hshown, hverified⟩ := hs.showsTarget hagree htarget
      simp only
      split
      · rw [List.append_nil]
        exact h.returned_false (deletes_heard events poll) hjustified
      · next hleft =>
        -- The delete: the streak starts again, with the short horizon.
        constructor
        · refine ⟨listings (heard events poll), [], ?_, rfl, by simp⟩
          rw [listings_snoc_deleted, List.append_nil]
        · have hrequired := Required.heard_target events hshown
          unfold Required at hrequired ⊢
          rw [listings_snoc_deleted]
          exact hrequired
        · show 0 < CLEANUP_ABSENCE_SNAPSHOTS
          decide
        · rw [deletes_snoc_deleted, deletes_heard, List.length_append, h.attempts]
          rfl
        · exact Nat.lt_of_not_le hleft
        · exact hjustified.snoc_deleted hshown hverified
        · constructor
          · rw [listings_snoc_deleted]
            exact husable.1
          · intro seconds hmem
            simp only [List.mem_append, List.mem_singleton, reduceCtorEq, or_false] at hmem
            exact husable.2 seconds hmem
    · next htarget =>
      have habsence := hs.showsAbsence (not_not.mp htarget)
      have habsent := h.absent.heard habsence
      have hrequired := h.required.heard_absent habsence
      simp only [List.append_nil]
      split
      · next hreached =>
        have hexact : p.requiredAbsent = p.consecutiveAbsent + 1 := by
          have hshort := h.short
          omega
        refine ⟨?_, hjustified, fun _ ↦ husable, fun _ ↦ ⟨p.requiredAbsent, hrequired, ?_⟩⟩
        · rw [deletes_heard, h.attempts]
          exact h.few
        · rw [hexact]
          exact habsent
      · next hshort =>
        refine ⟨habsent, hrequired, Nat.lt_of_not_le hshort, ?_, h.few, hjustified, husable⟩
        rw [deletes_heard]
        exact h.attempts

/-- One pass keeps the invariant, or returns a status. -/
theorem pass_passed (h : Tracked decimal resourceName verifiedId deadline events p) (poll : Poll) :
    Passed decimal resourceName verifiedId deadline
      (events ++ (pass decimal resourceName verifiedId deadline p poll).2.1)
      (pass decimal resourceName verifiedId deadline p poll).1
      (pass decimal resourceName verifiedId deadline p poll).2.2 := by
  unfold pass
  split
  · apply h.returned_false
    · simp [deletes]
    · apply h.justified.snoc
      intro id succeeded heq
      cases heq
  · next hclock =>
    have hheard : events ++ [.clock poll.seconds, .listed poll.listing] = heard events poll := by
      simp [heard]
    split
    · rw [hheard]
      exact h.returned_false (deletes_heard events poll) (h.justified_heard poll)
    · next snapshot hsnapshot =>
      obtain ⟨items, hs⟩ := snapshotResource_some hsnapshot
      simp only [← List.append_assoc, hheard]
      exact afterSnapshot_passed h (Int.lt_of_not_ge hclock) hs poll.deleted

/-- The whole loop returns a status that its events bear out. -/
theorem passes_returned (polls : Nat → Poll) (left iteration : Nat)
    (h : Tracked decimal resourceName verifiedId deadline events p) :
    Returned decimal resourceName verifiedId deadline
      (events ++ (passes decimal resourceName verifiedId deadline polls left iteration p).1)
      (passes decimal resourceName verifiedId deadline polls left iteration p).2 := by
  induction left generalizing events iteration p with
  | zero =>
    rw [passes, List.append_nil]
    exact h.returned_false rfl h.justified
  | succ left ih =>
    have hpassed := pass_passed h (polls iteration)
    rw [passes]
    split
    · next heq =>
      rw [heq] at hpassed
      exact hpassed
    · next heq =>
      rw [heq] at hpassed
      simp only [← List.append_assoc]
      exact ih (iteration + 1) hpassed

/-- Before the first pass. -/
theorem tracked_nil : Tracked decimal resourceName verifiedId deadline []
    { consecutiveAbsent := 0
      deleteAttempts := 0
      requiredAbsent :=
        if verifiedId = [] then CLEANUP_UNVERIFIED_ABSENCE_SNAPSHOTS
        else CLEANUP_ABSENCE_SNAPSHOTS } := by
  refine ⟨⟨[], [], rfl, rfl, by simp⟩, ?_, ?_, rfl, Nat.zero_le _, ?_, by simp [listings], by simp⟩
  · by_cases hid : verifiedId = []
    · exact .inl ⟨hid, by simp [listings], by rw [if_pos hid]; rfl⟩
    · exact .inr ⟨.inl hid, by rw [if_neg hid]; rfl⟩
  · split <;> decide
  · intro before id succeeded after heq
    simp at heq

/-- The events of a cleanup bear out its status. -/
theorem cleanupResource_returned {polls : Nat → Poll} {status : Bool}
    (h : cleanupResource decimal resourceName verifiedId deadline true polls = (events, status)) :
    Returned decimal resourceName verifiedId deadline events status := by
  have hreturned := passes_returned polls CLEANUP_LIST_ATTEMPTS 1
    (@tracked_nil decimal resourceName verifiedId deadline)
  rw [cleanupResource, if_neg (by decide)] at h
  rw [h] at hreturned
  exact hreturned

/-- Cleanup of an attempted create. It succeeds only after as many consecutive absences as the
horizon requires; it deletes at most twice, and only what the listing just before showed under the
exact name or as the verified identifier; and no listing that is incomplete, ambiguous or in
disagreement, and no passed deadline, is followed by success. What a listing shows is read off its
complete item list. -/
theorem cleanupResource_law {polls : Nat → Poll} {status : Bool}
    (h : cleanupResource decimal resourceName verifiedId deadline true polls = (events, status)) :
    (status = true → ∃ k, Required decimal resourceName verifiedId events k ∧
      AbsentLast decimal resourceName verifiedId events k) ∧
    (deletes events).length ≤ 2 ∧
    Justified decimal resourceName verifiedId events ∧
    ((∃ l ∈ listings events, Unusable decimal resourceName verifiedId l) ∨
      (∃ seconds, .clock seconds ∈ events ∧ deadline ≤ seconds) → status = false) ∧
    ∀ file name requested o, inspectResourceListing decimal file name requested = .ok o →
      ∃ items, completeItems decimal file = .ok items ∧ Observes name requested items o := by
  have hreturned := cleanupResource_returned h
  refine ⟨hreturned.absent, hreturned.few, hreturned.justified, ?_, ?_⟩
  · intro hfails
    by_contra hstatus
    have husable := hreturned.usable (eq_true_of_ne_false hstatus)
    rcases hfails with ⟨l, hl, hunusable⟩ | ⟨seconds, hmem, hpassed⟩
    · exact husable.1 l hl hunusable
    · have hbefore := husable.2 seconds hmem
      omega
  · intro file name requested o ho
    exact inspectResourceListing_observes ho

namespace Demo

/-- The resource is listed once, deleted, and gone from the next listing on. -/
def polls (iteration : Nat) : Poll where
  seconds := iteration
  listing :=
    { captured := true
      file := some (utf8 (if iteration = 1 then text "[\x7b\"id\":\"e1\",\"name\":\"lab\"\x7d]"
        else text "null"))
      recorded := true }
  deleted := true

set_option maxRecDepth 100000 in
/-- One delete, and three listings without the resource. -/
theorem cleanupResource_law_deleted : ∃ events,
    cleanupResource (fun _ ↦ true) (text "lab") [] 75 true polls = (events, true) ∧
      deletes events = [text "e1"] ∧
      ∃ k, Required (fun _ ↦ true) (text "lab") [] events k ∧
        AbsentLast (fun _ ↦ true) (text "lab") [] events k := by
  obtain ⟨hstatus, hdeletes⟩ :
      (cleanupResource (fun _ ↦ true) (text "lab") [] 75 true polls).2 = true ∧
      deletes (cleanupResource (fun _ ↦ true) (text "lab") [] 75 true polls).1 = [text "e1"] := by
    decide +kernel
  generalize hrun : cleanupResource (fun _ ↦ true) (text "lab") [] 75 true polls = run
    at hstatus hdeletes
  obtain ⟨events, status⟩ := run
  subst hstatus
  exact ⟨events, rfl, hdeletes, (cleanupResource_law hrun).1 rfl⟩

end Demo

end Atcap.Cleanup
