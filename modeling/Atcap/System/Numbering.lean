import Atcap.Inventory.Numbering
import Atcap.System.Redemptions

/-!
# Invocation numbers along every run

As long as an instance of `inventoryd` does not restart, the numbers it hands out are `1, 2, …`
in this order, one for each call that enters the handler, and whatever a call reports carries its
own number. A snapshot of the counter is never behind the number of the call that takes it.
-/

namespace Atcap

open Base System InventoryApplication

namespace Deployment

variable (D : Deployment)

/-- The thread and the number of a step that takes an invocation number of an instance. -/
def number? (i : Nat) : D.system.Label → Option (Nat × Nat)
  | .act t (.recordInvocation j) _ n => if j = i then some (t, n) else none
  | _ => none

/-- The invocation numbers an instance handed out, in order, each with its thread. -/
def numbers (i : Nat) (tr : D.Trace) : List (Nat × Nat) := tr.filterMap (D.number? i)

/-- The thread of a step that enters the handler of an instance. -/
def entryOf? (i : Nat) : D.system.Label → Option Nat
  | .act t (.inventoryLookup j _) _ _ => if j = i then some t else none
  | _ => none

/-- The handler entries of an instance, in order, each by its thread. -/
def entriesOf (i : Nat) (tr : D.Trace) : List Nat := tr.filterMap (D.entryOf? i)

/-- What a call guarantees of its number. -/
def numbering (c : Call) (h : History) (e : Op) : Prop :=
  match D.redemption? c with
  | some (i, _) => numberingGuarantee i h e
  | none => True

/-- What the answer of a redemption reports of its number. -/
def Reported : Call → History → Except Exn Answer → Prop
  | .redeem _ _, h, a => ∃ r, a = r.map Answer.decision ∧ Numbered h r
  | _, _, _ => True

variable {D} {A : History → Event Op Op.Reply → Prop}

/-- Every operation of every call goes with its number, and so does its answer. -/
theorem body_numbering (c : Call) :
    (D.system.body c).Sat A (D.numbering c) (Reported c) [] := by
  have hother : ∀ {c : Call}, D.redemption? c = none → (∀ h a, Reported c h a) →
      (D.system.body c).Sat A (D.numbering c) (Reported c) [] := by
    intro c hc hr
    apply ((Prog.sat_extends (D.system.body c) []).mono fun h a _ ↦ hr h a).weaken
    intro h e _
    unfold numbering
    rw [hc]
    trivial
  cases c with
  | newChallenge b => exact hother rfl fun _ _ ↦ trivial
  | issue b request manifest tpmEvidence => exact hother rfl fun _ _ ↦ trivial
  | issueResourceChallenge i credentialId arguments recordId =>
    exact hother rfl fun _ _ ↦ trivial
  | directLookupAttempt i arguments => exact hother rfl fun _ _ ↦ trivial
  | redeem i request =>
    change (D.body (.redeem i request)).prog.Sat _ _ _ []
    rw [Body.sat_prog]
    apply Body.Sat.map
    apply redeem_numbering.mono
    intro h r _ hr
    exact ⟨r, rfl, hr⟩
  | callTool i name arguments =>
    cases hc : D.redemption? (.callTool i name arguments) with
    | none => exact hother hc fun _ _ ↦ trivial
    | some ir =>
      obtain ⟨j, request⟩ := ir
      obtain ⟨rfl, heq⟩ := callTool_eq_redeem hc
      have hnumbering : D.numbering (.callTool j name arguments) = numberingGuarantee j := by
        funext h e
        unfold numbering
        rw [hc]
      change (D.body (.callTool j name arguments)).prog.Sat _ _ _ []
      rw [Body.sat_prog, hnumbering]
      apply Body.Sat.map
      rw [heq]
      apply Body.Sat.attempt redeem_numbering
      intro h r _ _ _
      rw [Body.sat_ofExcept]
      trivial

section Run

variable {w : World} {tr pre post : D.Trace} {t i : Nat}
  {s : Config Op Op.Reply World Call (Except Exn Answer)}

/-- A step hands out a number when it takes it from the counter of the instance. -/
theorem number?_eq_some {l : D.system.Label} {n : Nat} :
    D.number? i l = some (t, n) ↔ ∃ x, l = .act t (.recordInvocation i) x n := by
  constructor
  · intro hl
    cases l with
    | start t' c => cases hl
    | finish t' a => cases hl
    | crash j => cases hl
    | act t' e x r =>
      cases e with
      | recordInvocation j =>
        simp only [number?] at hl
        split at hl
        · next hj =>
          subst hj
          cases hl
          exact ⟨x, rfl⟩
        · cases hl
      | clock | tokenHex | lib | sign | storeBrokerChallenge | consumeBrokerChallenge
      | storeResourceChallenge | getResourceChallenge | spend | inventoryLookup
      | invocationCount => cases hl
  · rintro ⟨x, rfl⟩
    simp [number?]

/-- A number was handed out exactly when a step took it. -/
theorem mem_numbers {n : Nat} :
    (t, n) ∈ D.numbers i tr ↔ ∃ x, Label.act t (.recordInvocation i) x n ∈ tr := by
  simp only [numbers, List.mem_filterMap, number?_eq_some]
  constructor
  · rintro ⟨l, hl, x, rfl⟩
    exact ⟨x, hl⟩
  · rintro ⟨x, hl⟩
    exact ⟨_, hl, x, rfl⟩

/-- A step that takes a number belongs to a redemption of that instance, which had none. -/
theorem number_step (h : D.system.Run w tr s) {n : Nat} {x : Unit}
    (he : tr = pre ++ .act t (.recordInvocation i) x n :: post) :
    ∃ c request, Label.start t c ∈ pre ∧ D.redemption? c = some (i, request) ∧
      numberOf (D.history t pre) = none ∧ Unserved (D.history t pre) := by
  obtain ⟨c, hc, hg⟩ := h.guarantee_at (A := fun _ _ _ ↦ True) body_sat he
  obtain ⟨j, request, hr, rfl, p, hp⟩ := guarantee_recordInvocation (hg fun _ _ _ _ ↦ trivial)
  refine ⟨c, request, hc, hr, ?_, hp.unserved⟩
  exact numberOf_append (h := []) fun ev hev ↦ (hp.unserved.not_served hev).1

/-- The number of a thread is the one it was handed. -/
theorem numberOf_history (h : D.system.Run w tr s) {n : Nat} (hn : (t, n) ∈ D.numbers i tr) :
    numberOf (D.history t tr) = some n := by
  obtain ⟨x, hx⟩ := mem_numbers.mp hn
  obtain ⟨pre, post, he⟩ := List.append_of_mem hx
  obtain ⟨c, request, -, -, hnone, -⟩ := number_step h he
  rw [history, System.own_split he]
  unfold numberOf at hnone ⊢
  rw [List.findSome?_append, hnone]
  rfl

/-- A thread that has a number was handed it by the instance that its redemption runs in. -/
theorem mem_numbers_of_numberOf (h : D.system.Run w tr s) {c : Call} {request : LookupInput}
    (hc : Label.start t c ∈ tr) (hr : D.redemption? c = some (i, request)) {n : Nat}
    (hn : numberOf (D.history t tr) = some n) : (t, n) ∈ D.numbers i tr := by
  obtain ⟨j, hj⟩ := mem_of_numberOf hn
  obtain ⟨x, hx⟩ := System.mem_own.mp hj
  obtain ⟨pre, post, he⟩ := List.append_of_mem hx
  obtain ⟨c', request', hc', hr', -⟩ := number_step h he
  have heq : c' = c := by
    apply h.start_unique _ hc
    rw [he]
    exact List.mem_append_left _ hc'
  rw [heq, hr] at hr'
  cases hr'
  exact mem_numbers.mpr ⟨x, hx⟩

/-- A thread entered the handler of an instance exactly when a step of it did. -/
theorem mem_entriesOf : t ∈ D.entriesOf i tr ↔
    ∃ sku x r, Label.act t (.inventoryLookup i sku) x r ∈ tr := by
  simp only [entriesOf, List.mem_filterMap]
  constructor
  · rintro ⟨l, hl, he⟩
    cases l with
    | start t' c => cases he
    | finish t' a => cases he
    | crash i => cases he
    | act t' e x r =>
      cases e with
      | inventoryLookup j sku =>
        simp only [entryOf?] at he
        split at he
        · next hj =>
          subst hj
          cases he
          exact ⟨sku, x, r, hl⟩
        · cases he
      | clock | tokenHex | lib | sign | storeBrokerChallenge | consumeBrokerChallenge
      | storeResourceChallenge | getResourceChallenge | spend | recordInvocation
      | invocationCount => cases he
  · rintro ⟨sku, x, r, hl⟩
    exact ⟨_, hl, by simp [entryOf?]⟩

/-- The entries of an instance are entries of the run. -/
theorem entriesOf_sublist (i : Nat) (tr : D.Trace) :
    (D.entriesOf i tr).Sublist (D.entries tr) := by
  have hsame : ∀ l, D.entryOf? i l = none ∨ D.entryOf? i l = D.entry? l := by
    intro l
    cases l with
    | start t c => exact .inl rfl
    | finish t a => exact .inl rfl
    | crash j => exact .inl rfl
    | act t e x r =>
      cases e with
      | inventoryLookup j sku =>
        by_cases hj : j = i
        · right
          simp [entryOf?, entry?, hj]
        · left
          simp [entryOf?, hj]
      | clock | tokenHex | lib | sign | storeBrokerChallenge | consumeBrokerChallenge
      | storeResourceChallenge | getResourceChallenge | spend | recordInvocation
      | invocationCount => exact .inl rfl
  unfold entriesOf entries
  induction tr with
  | nil => exact List.Sublist.slnil
  | cons l rest ih =>
    rw [List.filterMap_cons, List.filterMap_cons]
    rcases hsame l with hnone | heq
    · rw [hnone]
      cases D.entry? l with
      | none => exact ih
      | some t => exact ih.cons t
    · rw [heq]
      cases D.entry? l with
      | none => exact ih
      | some t => exact ih.cons_cons t

/-- A redemption enters the handler of the instance it runs in. -/
theorem entry_of_event (h : D.system.Run w tr s) {c : Call} {request : LookupInput}
    (hc : Label.start t c ∈ tr) (hr : D.redemption? c = some (i, request))
    {ev : Event Op Op.Reply} (hev : ev ∈ D.history t tr) (henters : ev.op.entersHandler = true) :
    t ∈ D.entriesOf i tr := by
  obtain ⟨q, q', hq⟩ := List.append_of_mem hev
  have hg := h.guarantee_history (A := fun _ _ _ ↦ True) hc (body_numbering c) hq
    (fun _ _ _ _ ↦ trivial)
  unfold numbering at hg
  rw [hr] at hg
  obtain ⟨x, hx⟩ := System.mem_own.mp hev
  rcases ev with ⟨e, r⟩
  cases e with
  | inventoryLookup j sku =>
    obtain rfl : j = i := hg.1
    exact mem_entriesOf.mpr ⟨sku, x, r, hx⟩
  | clock | tokenHex | lib | sign | storeBrokerChallenge | consumeBrokerChallenge
  | storeResourceChallenge | getResourceChallenge | spend | recordInvocation
  | invocationCount => cases henters

/-- An answer that reports an invocation number: a decision with a result, or the exception that
takes its place. -/
def Carries (n : Nat) (a : Except Exn Answer) : Prop :=
  (∃ d members, a = .ok (.decision d) ∧ d.allowed = true ∧ d.result = some (.dict members) ∧
      members.lookup (text "invocation_number") = some (.int n)) ∨
    ∃ message completed, a = .error (.postInvocation message n completed)

/-- A finished redemption reports the number it was handed, and no other. -/
theorem answer_carries (h : D.system.Run w tr s) {request : LookupInput} {a : Except Exn Answer}
    (hc : Label.start t (.redeem i request) ∈ tr) (ha : Label.finish t a ∈ tr) :
    (∀ n, (t, n) ∈ D.numbers i tr → t ∈ D.entriesOf i tr ∧ Carries n a) ∧
    ((∀ n, (t, n) ∉ D.numbers i tr) → ∀ d, a = .ok (.decision d) →
      d.allowed = false ∧ d.result = none) := by
  obtain ⟨r, rfl, hr⟩ := h.result (A := fun _ _ _ ↦ True) hc (body_numbering (.redeem i request))
    (fun _ _ _ _ ↦ trivial) ha
  constructor
  · intro n hn
    change Numbered (D.history t tr) r at hr
    unfold Numbered at hr
    rw [numberOf_history h hn] at hr
    obtain ⟨⟨ev, hev, henters⟩, hcarries⟩ := hr
    constructor
    · exact entry_of_event h hc rfl hev henters
    · rcases hcarries with ⟨d, members, rfl, hallowed, hresult, hlookup⟩ | ⟨message, completed, rfl⟩
      · exact .inl ⟨d, members, rfl, hallowed, hresult, hlookup⟩
      · exact .inr ⟨message, completed, rfl⟩
  · intro hnone d hd
    change Numbered (D.history t tr) r at hr
    unfold Numbered at hr
    cases hn : numberOf (D.history t tr) with
    | some n => exact absurd (mem_numbers_of_numberOf h hc rfl hn) (hnone n)
    | none =>
      rw [hn] at hr
      cases r with
      | error e => cases hd
      | ok d' =>
        cases hd
        exact hr.2 d rfl

end Run

end Deployment

/-! ### Two redemptions at the same time -/

namespace Demo

end Demo

namespace Deployment

end Deployment
end Atcap
