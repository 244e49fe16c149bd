import Mathlib.Logic.Function.Basic
import Atcap.Base.Program

/-!
# Interleaved calls over a shared state

Library `Base`. Calls run as threads; each issues its operations one at a time, and every
operation is executed atomically on the shared state. Threads take turns in any order, new
calls start at any time, and a service may crash: its threads end where they are and its
in-memory part of the shared state is reset. A run is the list of labels of its steps.

The results relate a run to the program logic of `Base.Program`: what a thread issued so far
is a path of its call's program (`Run.history`), so every guarantee proved for the program
holds at every step of every run (`Run.guarantee`).
-/

namespace Atcap.Base

/-- A shared state `σ` with its operations, and the calls `κ` of services `ι` that use it. -/
structure System (E : Type) (R : E → Type) (σ ι κ ρ : Type) where
  /-- What the environment decides when an operation is executed. -/
  Input : E → Type
  /-- Execute one operation. -/
  exec : (e : E) → Input e → σ → R e × σ
  /-- The program a call runs. -/
  body : κ → Prog E R ρ
  /-- The service a call runs in. -/
  owner : κ → ι
  /-- The shared state after a service crashed and was started again. -/
  restart : ι → σ → σ

namespace System

variable {E : Type} {R : E → Type} {σ ι κ ρ : Type}

/-- What one thread is doing. -/
inductive Thread (E : Type) (R : E → Type) (κ ρ : Type) where
  | idle
  | running (c : κ) (p : Prog E R ρ)
  | ended (c : κ)

/-- A configuration: the shared state and every thread. -/
structure Config (E : Type) (R : E → Type) (σ κ ρ : Type) where
  shared : σ
  thread : Nat → Thread E R κ ρ

variable (S : System E R σ ι κ ρ)

/-- One observable step of a run. -/
inductive Label where
  | start (t : Nat) (c : κ)
  | act (t : Nat) (e : E) (x : S.Input e) (r : R e)
  | finish (t : Nat) (a : ρ)
  | crash (i : ι)

/-- No thread has started yet. -/
def initial (s : σ) : Config E R σ κ ρ := ⟨s, fun _ ↦ .idle⟩

/-! ### The history of one thread -/

/-- What thread `t` contributes to its history by a step. -/
def Label.event? (t : Nat) : S.Label → Option (Event E R)
  | .act t' e _ r => if t' = t then some ⟨e, r⟩ else none
  | _ => none

/-- The operations thread `t` issued, with their replies. -/
def own (t : Nat) (tr : List S.Label) : List (Event E R) := tr.filterMap (Label.event? S t)

variable {S} {s₀ : σ} {tr : List S.Label} {s : Config E R σ κ ρ} {t : Nat} {c : κ}

/-- Histories of concatenated runs. -/
@[simp] theorem own_append (t : Nat) (tr tr' : List S.Label) :
    S.own t (tr ++ tr') = S.own t tr ++ S.own t tr' := List.filterMap_append

/-- A step of the thread itself extends its history. -/
@[simp] theorem own_act_self (t : Nat) (e : E) (x : S.Input e) (r : R e) :
    S.own t [.act t e x r] = [⟨e, r⟩] := by
  simp [own, Label.event?]

/-- The history around a step of the thread itself. -/
theorem own_split {tr pre post : List S.Label} {e : E} {x : S.Input e} {r : R e}
    (he : tr = pre ++ .act t e x r :: post) :
    S.own t tr = S.own t pre ++ ⟨e, r⟩ :: S.own t post := by
  rw [he, ← List.singleton_append, own_append, own_append, own_act_self]
  rfl

/-- A step of another thread does not extend the history. -/
theorem own_act_ne {t t' : Nat} (h : t' ≠ t) (e : E) (x : S.Input e) (r : R e) :
    S.own t [.act t' e x r] = [] := by
  simp [own, Label.event?, h]

/-- The start of a thread issues no operation. -/
@[simp] theorem own_start (t t' : Nat) (c : κ) : S.own t [.start t' c] = [] := rfl

/-- The end of a thread issues no operation. -/
@[simp] theorem own_finish (t t' : Nat) (a : ρ) : S.own t [.finish t' a] = [] := rfl

/-- A crash issues no operation. -/
@[simp] theorem own_crash (t : Nat) (i : ι) : S.own t [.crash i] = [] := rfl

/-- The history of a thread lists exactly its steps of the run. -/
theorem mem_own {ev : Event E R} :
    ev ∈ S.own t tr ↔ ∃ x, Label.act t ev.op x ev.reply ∈ tr := by
  simp only [own, List.mem_filterMap]
  constructor
  · rintro ⟨l, hl, he⟩
    cases l with
    | act t' e x r =>
      simp only [Label.event?] at he
      split at he
      · next ht =>
        subst ht
        cases he
        exact ⟨x, hl⟩
      · cases he
    | start t' c => cases he
    | finish t' a => cases he
    | crash i => cases he
  · rintro ⟨x, hl⟩
    exact ⟨_, hl, by simp [Label.event?]⟩

/-- A part of the history locates the steps it consists of. -/
theorem own_eq_append {h h' : List (Event E R)} {ev : Event E R}
    (ho : S.own t tr = h ++ ev :: h') :
    ∃ pre x post, tr = pre ++ .act t ev.op x ev.reply :: post ∧ S.own t pre = h ∧
      S.own t post = h' := by
  obtain ⟨pre, rest, rfl, hpre, hrest⟩ := List.filterMap_eq_append_iff.mp ho
  obtain ⟨idle, l, post, rfl, hidle, hl, hpost⟩ := List.filterMap_eq_cons_iff.mp hrest
  have hact : ∃ x, l = .act t ev.op x ev.reply := by
    cases l with
    | start t' c => cases hl
    | finish t' a => cases hl
    | crash i => cases hl
    | act t' e x r =>
      simp only [Label.event?] at hl
      split at hl
      · next ht =>
        subst ht
        cases hl
        exact ⟨x, rfl⟩
      · cases hl
  obtain ⟨x, rfl⟩ := hact
  refine ⟨pre ++ idle, x, post, by simp, ?_, hpost⟩
  have hnone : S.own t idle = [] := List.filterMap_eq_nil_iff.mpr hidle
  rw [own_append, hnone, List.append_nil]
  exact hpre

/-! ### Calls and answers of a run -/

section Answers

variable (S)

/-- The call that thread `t` started. -/
def callOf (t : Nat) (tr : List S.Label) : Option κ :=
  tr.findSome? fun l ↦ match l with
    | .start t' c => if t' = t then some c else none
    | _ => none

/-- The answers of a run in order, each with its thread. -/
def answers (tr : List S.Label) : List (Nat × ρ) :=
  tr.filterMap fun l ↦ match l with
    | .finish t a => some (t, a)
    | _ => none

variable {S}

/-- The answers of a run are what its threads finished with. -/
theorem mem_answers {a : ρ} : (t, a) ∈ S.answers tr ↔ Label.finish t a ∈ tr := by
  simp only [answers, List.mem_filterMap]
  constructor
  · rintro ⟨l, hl, he⟩
    cases l with
    | finish t' a' =>
      cases he
      exact hl
    | start t' c => cases he
    | act t' e x r => cases he
    | crash i => cases he
  · intro hl
    exact ⟨_, hl, rfl⟩

/-- A found call was started. -/
theorem start_of_callOf (h : S.callOf t tr = some c) : Label.start t c ∈ tr := by
  obtain ⟨l, hl, he⟩ := List.exists_of_findSome?_eq_some h
  cases l with
  | start t' c' =>
    simp only at he
    split at he
    · next ht =>
      subst ht
      cases he
      exact hl
    · cases he
  | act t' e x r => cases he
  | finish t' a => cases he
  | crash i => cases he

/-- A started call is found. -/
theorem callOf_isSome (h : Label.start t c ∈ tr) : ∃ c', S.callOf t tr = some c' := by
  rw [← Option.isSome_iff_exists, callOf, List.findSome?_isSome_iff]
  exact ⟨_, h, by simp⟩

end Answers

/-! ### Steps and runs -/

variable (S) [DecidableEq ι]

/-- A crash of service `i` ends the threads that run in it. -/
def kill (i : ι) : Thread E R κ ρ → Thread E R κ ρ
  | .running c p => if S.owner c = i then .ended c else .running c p
  | th => th

/-- One step of one thread, or a crash. -/
inductive Step : Config E R σ κ ρ → S.Label → Config E R σ κ ρ → Prop where
  | start {s : Config E R σ κ ρ} {t : Nat} (c : κ) : s.thread t = .idle →
      Step s (.start t c) ⟨s.shared, Function.update s.thread t (.running c (S.body c))⟩
  | act {s : Config E R σ κ ρ} {t : Nat} {c : κ} {e : E} {k : R e → Prog E R ρ}
      (x : S.Input e) : s.thread t = .running c (.call e k) →
      Step s (.act t e x (S.exec e x s.shared).1)
        ⟨(S.exec e x s.shared).2,
          Function.update s.thread t (.running c (k (S.exec e x s.shared).1))⟩
  | finish {s : Config E R σ κ ρ} {t : Nat} {c : κ} {a : ρ} :
      s.thread t = .running c (.done a) →
      Step s (.finish t a) ⟨s.shared, Function.update s.thread t (.ended c)⟩
  | crash {s : Config E R σ κ ρ} (i : ι) :
      Step s (.crash i) ⟨S.restart i s.shared, fun t ↦ S.kill i (s.thread t)⟩

/-- The runs from a shared state, with the labels of their steps. -/
inductive Run (s₀ : σ) : List S.Label → Config E R σ κ ρ → Prop where
  | nil : Run s₀ [] (initial s₀)
  | snoc {tr : List S.Label} {s s' : Config E R σ κ ρ} {l : S.Label} :
      Run s₀ tr s → S.Step s l s' → Run s₀ (tr ++ [l]) s'

variable {S}

/-- What a run knows about a thread in state `th`. -/
def Traced (tr : List S.Label) (t : Nat) : Thread E R κ ρ → Prop
  | .idle => (∀ c, Label.start t c ∉ tr) ∧ S.own t tr = [] ∧ ∀ a, Label.finish t a ∉ tr
  | .running c p => (∀ c', Label.start t c' ∈ tr ↔ c' = c) ∧
      (S.body c).Path (S.own t tr) p ∧ ∀ a, Label.finish t a ∉ tr
  | .ended c => (∀ c', Label.start t c' ∈ tr ↔ c' = c) ∧
      ∃ p, (S.body c).Path (S.own t tr) p ∧ ∀ a, Label.finish t a ∈ tr → p = .done a

omit [DecidableEq ι] in
private theorem traced_other {l : S.Label} {th : Thread E R κ ρ} (h : Traced tr t th)
    (hs : ∀ c, l ≠ .start t c) (ho : S.own t [l] = []) (hf : ∀ a, l ≠ .finish t a) :
    Traced (tr ++ [l]) t th := by
  have hs' : ∀ c, Label.start t c ∈ tr ++ [l] ↔ Label.start t c ∈ tr := by
    intro c
    simp [Ne.symm (hs c)]
  have hf' : ∀ a, Label.finish t a ∈ tr ++ [l] ↔ Label.finish t a ∈ tr := by
    intro a
    simp [Ne.symm (hf a)]
  cases th with
  | idle => simpa only [Traced, own_append, ho, List.append_nil, hs', hf'] using h
  | running c p => simpa only [Traced, own_append, ho, List.append_nil, hs', hf'] using h
  | ended c => simpa only [Traced, own_append, ho, List.append_nil, hs', hf'] using h

/-- Every thread of every run is where its history leads its call's program. -/
theorem Run.traced (h : S.Run s₀ tr s) (t : Nat) : Traced tr t (s.thread t) := by
  induction h with
  | nil => exact ⟨by simp, rfl, by simp⟩
  | @snoc tr s s' l hr hstep ih =>
    cases hstep with
    | @start t' c hidle =>
      by_cases ht : t = t'
      · subst ht
        rw [hidle] at ih
        obtain ⟨hn, ho, hf⟩ := ih
        simp only [Function.update_self, Traced, own_append, own_start, List.append_nil, ho]
        refine ⟨?_, .nil _, ?_⟩
        · intro c'
          simp [hn c']
        · intro a
          simp [hf a]
      · simp only [Function.update_of_ne ht]
        exact traced_other ih (by simp [Ne.symm ht]) (own_start _ _ _) (by simp)
    | @act t' c e k x hrun =>
      by_cases ht : t = t'
      · subst ht
        rw [hrun] at ih
        obtain ⟨hn, hp, hf⟩ := ih
        simp only [Function.update_self, Traced, own_append, own_act_self]
        refine ⟨?_, .snoc _ hp, ?_⟩
        · intro c'
          simp [hn c']
        · intro a
          simp [hf a]
      · simp only [Function.update_of_ne ht]
        exact traced_other ih (by simp) (own_act_ne (Ne.symm ht) _ _ _) (by simp)
    | @finish t' c a hrun =>
      by_cases ht : t = t'
      · subst ht
        rw [hrun] at ih
        obtain ⟨hn, hp, hf⟩ := ih
        simp only [Function.update_self, Traced, own_append, own_finish, List.append_nil]
        refine ⟨?_, _, hp, ?_⟩
        · intro c'
          simp [hn c']
        · intro b hb
          simp only [List.mem_append, hf b, List.mem_singleton, false_or] at hb
          cases hb
          rfl
      · simp only [Function.update_of_ne ht]
        exact traced_other ih (by simp) (own_finish _ _ _) (by simp [Ne.symm ht])
    | crash i =>
      have hk := traced_other (l := Label.crash i) ih (by simp) (own_crash _ _) (by simp)
      change Traced _ t (S.kill i (s.thread t))
      cases hth : s.thread t with
      | idle => rw [hth] at hk; exact hk
      | ended c => rw [hth] at hk; exact hk
      | running c p =>
        rw [hth] at hk
        simp only [kill]
        split
        · exact ⟨hk.1, p, hk.2.1, fun a ha ↦ absurd ha (hk.2.2 a)⟩
        · exact hk

/-! ### The shared state along a run -/

section After

variable (S)

/-- The shared state after a step. -/
def next (w : σ) : S.Label → σ
  | .act _ e x _ => (S.exec e x w).2
  | .crash i => S.restart i w
  | .start _ _ => w
  | .finish _ _ => w

/-- The shared state after the steps of a run. -/
def after (w : σ) (tr : List S.Label) : σ := tr.foldl S.next w

variable {S}

omit [DecidableEq ι] in
/-- Nothing has changed before the first step. -/
@[simp] theorem after_nil (w : σ) : S.after w [] = w := rfl

omit [DecidableEq ι] in
/-- The shared state after one more step. -/
@[simp] theorem after_snoc (w : σ) (tr : List S.Label) (l : S.Label) :
    S.after w (tr ++ [l]) = S.next (S.after w tr) l := by
  simp [after]

omit [DecidableEq ι] in
/-- The shared state after two parts of a run. -/
theorem after_append (w : σ) (tr tr' : List S.Label) :
    S.after w (tr ++ tr') = S.after (S.after w tr) tr' := List.foldl_append

/-- A step changes the shared state as its label says. -/
theorem Step.shared_eq {s s' : Config E R σ κ ρ} {l : S.Label} (h : S.Step s l s') :
    s'.shared = S.next s.shared l := by
  cases h with
  | start c hidle => rfl
  | act x hrun => rfl
  | finish hrun => rfl
  | crash i => rfl

/-- The shared state of a run is determined by its labels. -/
theorem Run.shared_eq (h : S.Run s₀ tr s) : s.shared = S.after s₀ tr := by
  induction h with
  | nil => rfl
  | snoc hr hstep ih => rw [hstep.shared_eq, after_snoc, ih]

/-- Every reply of a run is the reply of its operation in the shared state before it. -/
theorem Run.reply_eq (h : S.Run s₀ tr s) {pre post : List S.Label} {e : E} {x : S.Input e}
    {r : R e} (he : tr = pre ++ .act t e x r :: post) : r = (S.exec e x (S.after s₀ pre)).1 := by
  induction h generalizing post with
  | nil => simp at he
  | @snoc tr s s' l' hr hstep ih =>
    rcases List.eq_nil_or_concat post with hpost | ⟨post', last, hpost⟩
    · subst hpost
      obtain ⟨rfl, hl⟩ := List.append_inj' he rfl
      cases hl
      rw [← hr.shared_eq]
      cases hstep with
      | act x hrun => rfl
    · subst hpost
      rw [List.concat_eq_append, ← List.cons_append, ← List.append_assoc] at he
      obtain ⟨he₁, _⟩ := List.append_inj' he rfl
      exact ih he₁

end After

/-! ### Rules for runs -/

/-- A started call's history is a path of its program; a finished call ended with its result. -/
theorem Run.history (h : S.Run s₀ tr s) (hc : Label.start t c ∈ tr) :
    ∃ p, (S.body c).Path (S.own t tr) p ∧ ∀ a, Label.finish t a ∈ tr → p = .done a := by
  have ht := h.traced t
  cases hth : s.thread t with
  | idle =>
    rw [hth] at ht
    exact absurd hc (ht.1 c)
  | running c' p =>
    rw [hth] at ht
    obtain rfl := (ht.1 c).mp hc
    exact ⟨p, ht.2.1, fun a ha ↦ absurd ha (ht.2.2 a)⟩
  | ended c' =>
    rw [hth] at ht
    obtain rfl := (ht.1 c).mp hc
    exact ht.2

/-- A thread runs one call only. -/
theorem Run.start_unique (h : S.Run s₀ tr s) {c' : κ} (hc : Label.start t c ∈ tr)
    (hc' : Label.start t c' ∈ tr) : c = c' := by
  have ht := h.traced t
  cases hth : s.thread t with
  | idle =>
    rw [hth] at ht
    exact absurd hc (ht.1 c)
  | running d p =>
    rw [hth] at ht
    rw [(ht.1 c).mp hc, (ht.1 c').mp hc']
  | ended d =>
    rw [hth] at ht
    rw [(ht.1 c).mp hc, (ht.1 c').mp hc']

/-- The found call of a started thread is the call it started. -/
theorem Run.callOf_eq (h : S.Run s₀ tr s) (hc : Label.start t c ∈ tr) :
    S.callOf t tr = some c := by
  obtain ⟨c', hc'⟩ := callOf_isSome hc
  rw [hc', h.start_unique (start_of_callOf hc') hc]

/-- A thread answers at most once. -/
theorem Run.answers_nodup (h : S.Run s₀ tr s) : ((S.answers tr).map Prod.fst).Nodup := by
  induction h with
  | nil => exact List.nodup_nil
  | @snoc tr s s' l hr hstep ih =>
    simp only [answers, List.filterMap_append, List.filterMap_cons, List.filterMap_nil,
      List.map_append]
    cases hstep with
    | start c hidle => simpa [answers] using ih
    | act x hrun => simpa [answers] using ih
    | crash i => simpa [answers] using ih
    | @finish t c a hrun =>
      have ht := hr.traced t
      rw [hrun] at ht
      rw [List.nodup_append]
      refine ⟨ih, by simp, ?_⟩
      rintro t₁ h₁ t₂ h₂ rfl
      obtain ⟨⟨t', a'⟩, hm, rfl⟩ := List.mem_map.mp h₁
      simp only [List.map_cons, List.map_nil, List.mem_singleton] at h₂
      subst h₂
      exact ht.2.2 a' (mem_answers.mp hm)

/-- A step of a thread belongs to a call started before. -/
theorem Run.started (h : S.Run s₀ tr s) {e : E} {x : S.Input e} {r : R e}
    (ha : Label.act t e x r ∈ tr) : ∃ c, Label.start t c ∈ tr := by
  have ht := h.traced t
  have hm : (⟨e, r⟩ : Event E R) ∈ S.own t tr := mem_own.mpr ⟨x, ha⟩
  cases hth : s.thread t with
  | idle =>
    rw [hth] at ht
    rw [ht.2.1] at hm
    cases hm
  | running d p =>
    rw [hth] at ht
    exact ⟨d, (ht.1 d).mpr rfl⟩
  | ended d =>
    rw [hth] at ht
    exact ⟨d, (ht.1 d).mpr rfl⟩

/-- Every prefix of a run is a run, and its next label is a step from where it ended. -/
theorem Run.split (h : S.Run s₀ tr s) {pre post : List S.Label} {l : S.Label}
    (he : tr = pre ++ l :: post) : ∃ s₁ s₂, S.Run s₀ pre s₁ ∧ S.Step s₁ l s₂ := by
  induction h generalizing post with
  | nil => simp at he
  | @snoc tr s s' l' hr hstep ih =>
    rcases List.eq_nil_or_concat post with hpost | ⟨post', last, hpost⟩
    · subst hpost
      obtain ⟨rfl, hl⟩ := List.append_inj' he rfl
      cases hl
      exact ⟨s, s', hr, hstep⟩
    · subst hpost
      rw [List.concat_eq_append, ← List.cons_append, ← List.append_assoc] at he
      obtain ⟨he₁, _⟩ := List.append_inj' he rfl
      exact ih he₁

/-- Every part of a run from its start is a run. -/
theorem Run.left (h : S.Run s₀ tr s) {pre post : List S.Label} (he : tr = pre ++ post) :
    ∃ s₁, S.Run s₀ pre s₁ := by
  cases post with
  | nil =>
    rw [List.append_nil] at he
    exact ⟨s, he ▸ h⟩
  | cons l post =>
    obtain ⟨s₁, _, hpre, _⟩ := h.split he
    exact ⟨s₁, hpre⟩

omit [DecidableEq ι] in
/-- Two steps of one run are the same step, or one comes before the other. -/
theorem split_cases {pre post pre' post' : List S.Label} {l l' : S.Label}
    (h : pre ++ l :: post = pre' ++ l' :: post') :
    (pre = pre' ∧ l = l') ∨ (∃ mid, pre' = pre ++ l :: mid) ∨ ∃ mid, pre = pre' ++ l' :: mid := by
  rcases List.append_eq_append_iff.mp h with ⟨q, hq, hq'⟩ | ⟨q, hq, hq'⟩
  · cases q with
    | nil =>
      left
      simp only [List.nil_append, List.cons.injEq] at hq'
      exact ⟨by simpa using hq.symm, hq'.1⟩
    | cons a q =>
      right
      left
      rw [List.cons_append, List.cons.injEq] at hq'
      exact ⟨q, by rw [hq, hq'.1]⟩
  · cases q with
    | nil =>
      left
      simp only [List.nil_append, List.cons.injEq] at hq'
      exact ⟨by simpa using hq, hq'.1.symm⟩
    | cons a q =>
      right
      right
      rw [List.cons_append, List.cons.injEq] at hq'
      exact ⟨q, by rw [hq, hq'.1]⟩

/-- The steps of a thread come after its start. -/
theorem Run.start_before (h : S.Run s₀ tr s) {pre post pre' post' : List S.Label} {e : E}
    {x : S.Input e} {r : R e} (hs : tr = pre' ++ .start t c :: post')
    (he : tr = pre ++ .act t e x r :: post) : ∃ mid, pre = pre' ++ .start t c :: mid := by
  rcases split_cases (hs.symm.trans he) with ⟨_, hl⟩ | hmid | ⟨mid, hmid⟩
  · cases hl
  · exact hmid
  · -- Before its start the thread is idle and has issued nothing.
    exfalso
    obtain ⟨s₁, s₂, hpre, hstep⟩ := h.split hs
    cases hstep with
    | start _ hidle =>
      have ht := hpre.traced t
      rw [hidle] at ht
      have hm : (⟨e, r⟩ : Event E R) ∈ S.own t pre' := mem_own.mpr ⟨x, by rw [hmid]; simp⟩
      rw [ht.2.1] at hm
      cases hm

/-- An operation about to be executed belongs to a started call, whose history leads to it. -/
theorem Run.issued (h : S.Run s₀ tr s) {s' : Config E R σ κ ρ} {e : E} {x : S.Input e} {r : R e}
    (hs : S.Step s (.act t e x r) s') :
    ∃ c k, Label.start t c ∈ tr ∧ (S.body c).Path (S.own t tr) (.call e k) ∧
      (r, s'.shared) = S.exec e x s.shared := by
  have ht := h.traced t
  cases hs with
  | @act _ c _ k _ hrun =>
    rw [hrun] at ht
    exact ⟨c, k, (ht.1 c).mpr rfl, ht.2.1, rfl⟩

section Guarantee

variable {A : κ → List (Event E R) → Event E R → Prop} {G : κ → List (Event E R) → E → Prop}
  {Q : κ → List (Event E R) → ρ → Prop}

/-- A program's guarantee holds at every operation of a run that is about to be executed. -/
theorem Run.guarantee (h : S.Run s₀ tr s) (hsat : ∀ c, (S.body c).Sat (A c) (G c) (Q c) [])
    {s' : Config E R σ κ ρ} {e : E} {x : S.Input e} {r : R e}
    (hs : S.Step s (.act t e x r) s') :
    ∃ c, Label.start t c ∈ tr ∧ (Prog.Relies (A c) (S.own t tr) → G c (S.own t tr) e) := by
  obtain ⟨c, k, hc, hp, _⟩ := h.issued hs
  exact ⟨c, hc, fun ha ↦ ((hsat c).path hp ha).1⟩

/-- A program's guarantee holds at every operation of a run, after the history before it. -/
theorem Run.guarantee_at (h : S.Run s₀ tr s) (hsat : ∀ c, (S.body c).Sat (A c) (G c) (Q c) [])
    {pre post : List S.Label} {e : E} {x : S.Input e} {r : R e}
    (he : tr = pre ++ .act t e x r :: post) :
    ∃ c, Label.start t c ∈ pre ∧ (Prog.Relies (A c) (S.own t pre) → G c (S.own t pre) e) := by
  obtain ⟨s₁, s₂, hpre, hstep⟩ := h.split he
  exact hpre.guarantee hsat hstep

/-- A program's guarantee holds at every operation in the history of its call. -/
theorem Run.guarantee_history (h : S.Run s₀ tr s) (hc : Label.start t c ∈ tr)
    (hsat : (S.body c).Sat (A c) (G c) (Q c) []) {pre post : List (Event E R)} {ev : Event E R}
    (he : S.own t tr = pre ++ ev :: post) (ha : Prog.Relies (A c) pre) : G c pre ev.op := by
  obtain ⟨p, hp, _⟩ := h.history hc
  exact hsat.guarantee hp he ha

/-- A program's postcondition holds of the history and the result of a finished call. -/
theorem Run.result (h : S.Run s₀ tr s) (hc : Label.start t c ∈ tr)
    (hsat : (S.body c).Sat (A c) (G c) (Q c) []) (ha : Prog.Relies (A c) (S.own t tr)) {a : ρ}
    (hf : Label.finish t a ∈ tr) : Q c (S.own t tr) a := by
  obtain ⟨p, hp, hd⟩ := h.history hc
  have hq := hsat.path hp ha
  rw [hd a hf] at hq
  exact hq

end Guarantee

/-! ### Calls that run alone -/

section Solo

variable (S)

/-- Execute an operation with what the environment decides. -/
def execWith (x : (e : E) → S.Input e) (e : E) (w : σ) : R e × σ := S.exec e (x e) w

/-- What a call does and returns when it runs alone from a shared state. -/
def solo (x : (e : E) → S.Input e) (w : σ) (c : κ) : List (Event E R) × ρ :=
  (S.body c).solo (S.execWith x) w

/-- The labels of a history that one thread makes. -/
def labels (x : (e : E) → S.Input e) (t : Nat) (h : List (Event E R)) : List S.Label :=
  h.map fun ev ↦ .act t ev.op (x ev.op) ev.reply

variable {S}

private theorem Run.solo_running (h : S.Run s₀ tr s) {x : (e : E) → S.Input e} {p : Prog E R ρ}
    (hs : s.thread t = .running c p) :
    ∃ s', S.Run s₀ (tr ++ S.labels x t (p.solo (S.execWith x) s.shared).1) s' ∧
      s'.thread t = .running c (.done (p.solo (S.execWith x) s.shared).2) := by
  induction p generalizing tr s with
  | done a => exact ⟨s, by simpa [labels, Prog.solo] using h, hs⟩
  | call e k ih =>
    have hstep := Step.act (x e) hs
    obtain ⟨s', hrun, hend⟩ := ih _ (h.snoc hstep) (Function.update_self _ _ _)
    rw [List.append_assoc] at hrun
    exact ⟨s', hrun, hend⟩

/-- A call that runs alone is a part of a run. -/
theorem Run.solo (h : S.Run s₀ tr s) (x : (e : E) → S.Input e) (c : κ)
    (hidle : s.thread t = .idle) :
    ∃ s', S.Run s₀ (tr ++ .start t c :: (S.labels x t (S.solo x s.shared c).1 ++
      [.finish t (S.solo x s.shared c).2])) s' := by
  obtain ⟨s₁, hrun, hend⟩ := (h.snoc (.start c hidle)).solo_running (x := x)
    (Function.update_self _ _ _)
  have hfinish := hrun.snoc (.finish hend)
  rw [List.append_assoc, List.append_assoc] at hfinish
  exact ⟨_, hfinish⟩

end Solo

/-! ### Scheduled runs -/

section Schedule

variable (S)

/-- One move of a schedule: which thread takes a step, and what the environment decides. -/
inductive Move where
  | start (t : Nat) (c : κ)
  | act (t : Nat) (x : (e : E) → S.Input e)
  | finish (t : Nat)
  | crash (i : ι)

/-- The step a move makes, if it can be made. -/
def move (s : Config E R σ κ ρ) : S.Move → Option (S.Label × Config E R σ κ ρ)
  | .start t c =>
    match s.thread t with
    | .idle => some (.start t c, ⟨s.shared, Function.update s.thread t (.running c (S.body c))⟩)
    | _ => none
  | .act t x =>
    match s.thread t with
    | .running c (.call e k) =>
      let r := S.exec e (x e) s.shared
      some (.act t e (x e) r.1, ⟨r.2, Function.update s.thread t (.running c (k r.1))⟩)
    | _ => none
  | .finish t =>
    match s.thread t with
    | .running c (.done a) =>
      some (.finish t a, ⟨s.shared, Function.update s.thread t (.ended c)⟩)
    | _ => none
  | .crash i => some (.crash i, ⟨S.restart i s.shared, fun t ↦ S.kill i (s.thread t)⟩)

/-- The labels and the last configuration of a schedule, if all of its moves can be made. -/
def play (s : Config E R σ κ ρ) : List S.Move → Option (List S.Label × Config E R σ κ ρ)
  | [] => some ([], s)
  | m :: rest => do
    let (l, s') ← S.move s m
    let (tr, last) ← play s' rest
    return (l :: tr, last)

variable {S}

/-- A move is a step. -/
theorem step_of_move {s s' : Config E R σ κ ρ} {m : S.Move} {l : S.Label}
    (h : S.move s m = some (l, s')) : S.Step s l s' := by
  cases m with
  | start t c =>
    simp only [move] at h
    split at h
    · next hth =>
      cases h
      exact .start c hth
    · cases h
  | act t x =>
    simp only [move] at h
    split at h
    · next hth =>
      cases h
      exact .act (x _) hth
    · cases h
  | finish t =>
    simp only [move] at h
    split at h
    · next hth =>
      cases h
      exact .finish hth
    · cases h
  | crash i =>
    cases h
    exact .crash i

/-- Playing a schedule extends a run. -/
theorem Run.play {moves : List S.Move} {tr' : List S.Label} {s' : Config E R σ κ ρ}
    (h : S.Run s₀ tr s) (hp : S.play s moves = some (tr', s')) : S.Run s₀ (tr ++ tr') s' := by
  induction moves generalizing tr s tr' with
  | nil =>
    cases hp
    rwa [List.append_nil]
  | cons m rest ih =>
    simp only [System.play, Option.bind_eq_bind, Option.bind_eq_some_iff, Option.pure_def,
      Option.some.injEq, Prod.mk.injEq] at hp
    obtain ⟨⟨l, s₁⟩, hmove, ⟨tr₁, last⟩, hrest, rfl, rfl⟩ := hp
    have hrun := ih (.snoc h (step_of_move hmove)) hrest
    rwa [List.append_assoc] at hrun

/-- A schedule that can be played from the start is a run. -/
theorem run_of_play {moves : List S.Move} (hp : S.play (initial s₀) moves = some (tr, s)) :
    S.Run s₀ tr s := Run.nil.play hp

/-- The labels that a move can have. -/
def Move.Makes : S.Move → S.Label → Prop
  | .start t c, l => l = .start t c
  | .act t x, l => ∃ e r, l = .act t e (x e) r
  | .finish t, l => ∃ a, l = .finish t a
  | .crash i, l => l = .crash i

/-- A schedule and the run it makes go step by step. -/
theorem makes_of_play {moves : List S.Move} {s s' : Config E R σ κ ρ}
    (h : S.play s moves = some (tr, s')) : List.Forall₂ Move.Makes moves tr := by
  induction moves generalizing s tr with
  | nil =>
    cases h
    exact .nil
  | cons m rest ih =>
    simp only [System.play, Option.bind_eq_bind, Option.bind_eq_some_iff, Option.pure_def,
      Option.some.injEq, Prod.mk.injEq] at h
    obtain ⟨⟨l, s₁⟩, hmove, ⟨tr₁, last⟩, hrest, rfl, rfl⟩ := h
    refine .cons ?_ (ih hrest)
    cases m with
    | start t c =>
      simp only [move] at hmove
      split at hmove <;> cases hmove
      rfl
    | act t x =>
      simp only [move] at hmove
      split at hmove <;> cases hmove
      exact ⟨_, _, rfl⟩
    | finish t =>
      simp only [move] at hmove
      split at hmove <;> cases hmove
      exact ⟨_, rfl⟩
    | crash i =>
      cases hmove
      rfl

omit [DecidableEq ι] in
/-- Every label of a played schedule is made by one of its moves. -/
theorem exists_move_of_mem {moves : List S.Move} (h : List.Forall₂ Move.Makes moves tr)
    {l : S.Label} (hl : l ∈ tr) : ∃ m ∈ moves, m.Makes l := by
  induction h with
  | nil => cases hl
  | cons hm _ ih =>
    obtain rfl | hl := List.mem_cons.mp hl
    · exact ⟨_, List.mem_cons_self, hm⟩
    · obtain ⟨m, hmem, hmakes⟩ := ih hl
      exact ⟨m, List.mem_cons_of_mem _ hmem, hmakes⟩

omit [DecidableEq ι] in
/-- Every move of a played schedule makes a label. -/
theorem exists_label_of_mem {moves : List S.Move} (h : List.Forall₂ Move.Makes moves tr)
    {m : S.Move} (hm : m ∈ moves) : ∃ l ∈ tr, m.Makes l := by
  induction h with
  | nil => cases hm
  | cons hmakes _ ih =>
    obtain rfl | hm := List.mem_cons.mp hm
    · exact ⟨_, List.mem_cons_self, hmakes⟩
    · obtain ⟨l, hl, hlabel⟩ := ih hm
      exact ⟨l, List.mem_cons_of_mem _ hl, hlabel⟩

omit [DecidableEq ι] in
/-- A schedule that is split at a move splits its labels. -/
theorem split_of_made {moves moves' : List S.Move} {m : S.Move}
    (h : List.Forall₂ Move.Makes (moves ++ m :: moves') tr) :
    ∃ pre l post, tr = pre ++ l :: post ∧ List.Forall₂ Move.Makes moves pre ∧ m.Makes l := by
  induction moves generalizing tr with
  | nil =>
    cases h with
    | cons hm _ => exact ⟨[], _, _, rfl, .nil, hm⟩
  | cons m' moves ih =>
    cases h with
    | cons hm hrest =>
      obtain ⟨pre, l, post, rfl, hpre, hl⟩ := ih hrest
      exact ⟨_ :: pre, l, post, rfl, .cons hm hpre, hl⟩

end Schedule

end System
end Atcap.Base
