import Atcap.Base.Interleave

/-!
# Clients of interleaved calls

Library `Base`. A client is a program beside a `System`: it starts calls in threads of their own,
waits for their answers, reads the shared state and asks its environment. Clients and threads take
turns in any order. A run of a system with clients projects to a run of the system alone
(`Run.inner`) and to a run of the clients alone (`Run.outer`), so every rule of
`Base.Interleave` holds on both sides; the two are related at the calls that clients start and
wait for.
-/

namespace Atcap.Base

/-- An operation of a client. -/
inductive ClientOp (κ Q : Type) where
  /-- Start a call in a thread of its own. -/
  | submit (c : κ)
  /-- Wait for the answer of a thread. -/
  | wait (t : Nat)
  /-- Wait for the answer of a thread up to a time limit. -/
  | await (t : Nat)
  /-- Ask the environment. -/
  | ask (q : Q)

/-- The reply to an operation of a client: the thread of a started call, or an answer. -/
abbrev ClientOp.Reply {κ Q : Type} (ρ : Type) (A : Q → Type) : ClientOp κ Q → Type
  | .submit _ => Nat
  | .wait _ => ρ
  | .await _ => Option ρ
  | .ask q => A q

variable {E : Type} {R : E → Type} {σ ι κ ρ Q β ω : Type} {A : Q → Type}

/-- The clients `β` of a system, with the queries `Q` they ask. -/
structure Clients (S : System E R σ ι κ ρ) (Q : Type) (A : Q → Type) (β ω : Type) where
  /-- The program of a client. -/
  program : β → Prog (ClientOp κ Q) (ClientOp.Reply ρ A) ω
  /-- The service whose process a client runs in. -/
  owner : β → ι
  /-- The answers a query can get from a shared state. -/
  Look : (q : Q) → σ → A q → Prop

namespace Clients

open Base.System

variable {S : System E R σ ι κ ρ} (C : Clients S Q A β ω)

/-- The clients alone: every reply is an input. -/
def outer : System (ClientOp κ Q) (ClientOp.Reply ρ A) Unit ι β ω where
  Input := ClientOp.Reply ρ A
  exec := fun _ r u ↦ (r, u)
  body := C.program
  owner := C.owner
  restart := fun _ u ↦ u

/-- A configuration: the threads over the shared state, the clients, and the answers of the
threads that have ended. -/
structure Config (C : Clients S Q A β ω) where
  inner : System.Config E R σ κ ρ
  outer : System.Config (ClientOp κ Q) (ClientOp.Reply ρ A) Unit β ω
  answered : Nat → Option ρ

/-- One observable step of a run. -/
inductive Label (C : Clients S Q A β ω) where
  | thread (l : S.Label)
  | start (p : Nat) (b : β)
  | act (p : Nat) (e : ClientOp κ Q) (r : e.Reply ρ A)
  | finish (p : Nat) (o : ω)
  | crash (i : ι)

/-- Nothing has started yet. -/
def initial (s : σ) : C.Config := ⟨System.initial s, System.initial (), fun _ ↦ none⟩

/-! ### Projections of a run -/

/-- What a step is for the threads. -/
def Label.inner? : C.Label → Option S.Label
  | .thread l => some l
  | .act _ (.submit c) t => some (.start t c)
  | .crash i => some (.crash i)
  | _ => none

/-- What a step is for the clients. -/
def Label.outer? : C.Label → Option C.outer.Label
  | .start p b => some (.start p b)
  | .act p e r => some (.act p e r r)
  | .finish p o => some (.finish p o)
  | .crash i => some (.crash i)
  | .thread _ => none

/-- The steps of the threads in a run. -/
def threads (tr : List C.Label) : List S.Label := tr.filterMap (Label.inner? C)

/-- The steps of the clients in a run. -/
def clients (tr : List C.Label) : List C.outer.Label := tr.filterMap (Label.outer? C)

/-- What a client issued in a run, with the replies it got. -/
def history (p : Nat) (tr : List C.Label) : List (Event (ClientOp κ Q) (ClientOp.Reply ρ A)) :=
  C.outer.own p (C.clients tr)

/-- What a thread of a run issued. -/
def own (t : Nat) (tr : List C.Label) : List (Event E R) := S.own t (C.threads tr)

variable {C} {s₀ : σ} {tr pre post : List C.Label} {s : C.Config} {p t : Nat}

/-- The thread labels of a run in two parts. -/
@[simp] theorem threads_append (tr tr' : List C.Label) :
    C.threads (tr ++ tr') = C.threads tr ++ C.threads tr' := List.filterMap_append

/-- The client labels of a run in two parts. -/
@[simp] theorem clients_append (tr tr' : List C.Label) :
    C.clients (tr ++ tr') = C.clients tr ++ C.clients tr' := List.filterMap_append

/-- The threads see a call that a client starts. -/
theorem threads_submit {c : κ} (he : tr = pre ++ .act p (.submit c) t :: post) :
    C.threads tr = C.threads pre ++ .start t c :: C.threads post := by
  rw [he, threads_append]
  rfl

/-- The clients see their own steps. -/
theorem clients_act {e : ClientOp κ Q} {r : e.Reply ρ A}
    (he : tr = pre ++ .act p e r :: post) :
    C.clients tr = C.clients pre ++ .act p e r r :: C.clients post := by
  rw [he, clients_append]
  rfl

/-- The beginning of a run begins every history. -/
theorem history_append (p : Nat) (tr tr' : List C.Label) :
    C.history p (tr ++ tr') = C.history p tr ++ C.history p tr' := by
  rw [history, clients_append, own_append]
  rfl

/-- The history of a client lists exactly its steps of the run. -/
theorem mem_history {ev : Event (ClientOp κ Q) (ClientOp.Reply ρ A)} :
    ev ∈ C.history p tr ↔ Label.act p ev.op ev.reply ∈ tr := by
  rw [history, mem_own, clients]
  simp only [List.mem_filterMap]
  constructor
  · rintro ⟨x, l, hl, he⟩
    cases l with
    | act p' e r =>
      cases he
      exact hl
    | thread l => cases he
    | start p' b => cases he
    | finish p' o => cases he
    | crash i => cases he
  · intro hl
    exact ⟨ev.reply, _, hl, rfl⟩

/-- A client started in the run started among the clients. -/
theorem mem_clients_start {b : β} :
    System.Label.start p b ∈ C.clients tr ↔ Label.start p b ∈ tr := by
  simp only [clients, List.mem_filterMap]
  constructor
  · rintro ⟨l, hl, he⟩
    cases l with
    | start p' b' =>
      cases he
      exact hl
    | thread l => cases he
    | act p' e r => cases he
    | finish p' o => cases he
    | crash i => cases he
  · intro hl
    exact ⟨_, hl, rfl⟩

/-- A client that returned in the run returned among the clients. -/
theorem mem_clients_finish {o : ω} :
    System.Label.finish p o ∈ C.clients tr ↔ Label.finish p o ∈ tr := by
  simp only [clients, List.mem_filterMap]
  constructor
  · rintro ⟨l, hl, he⟩
    cases l with
    | finish p' o' =>
      cases he
      exact hl
    | thread l => cases he
    | act p' e r => cases he
    | start p' b => cases he
    | crash i => cases he
  · intro hl
    exact ⟨_, hl, rfl⟩

/-- A step of a thread among the threads is a step of the run. -/
theorem mem_threads_act {e : E} {x : S.Input e} {r : R e} :
    System.Label.act t e x r ∈ C.threads tr ↔ Label.thread (.act t e x r) ∈ tr := by
  simp only [threads, List.mem_filterMap]
  constructor
  · rintro ⟨l, hl, he⟩
    cases l with
    | thread l =>
      cases he
      exact hl
    | start p' b => cases he
    | finish p' o => cases he
    | crash i => cases he
    | act p' e' r' =>
      cases e' with
      | submit c => cases he
      | wait t => cases he
      | await t => cases he
      | ask q => cases he
  · intro hl
    exact ⟨_, hl, rfl⟩

/-! ### Steps and runs -/

variable (C)

/-- The replies that an operation other than a submission can get. -/
def Answers (s : C.Config) : (e : ClientOp κ Q) → e.Reply ρ A → Prop
  | .submit _, _ => False
  | .wait t, a => s.answered t = some a
  | .await t, r => ∀ a, r = some a → s.answered t = some a
  | .ask q, a => C.Look q s.inner.shared a

/-- The answers after a step of a thread. -/
def record (answered : Nat → Option ρ) : S.Label → Nat → Option ρ
  | .finish t a => Function.update answered t (some a)
  | _ => answered

variable [DecidableEq ι]

/-- One step of a thread, of a client, or a crash of a service with both. -/
inductive Step : C.Config → C.Label → C.Config → Prop where
  | thread {s : C.Config} {l : S.Label} {inner : System.Config E R σ κ ρ} :
      S.Step s.inner l inner → (∀ i, l ≠ .crash i) →
      Step s (.thread l) ⟨inner, s.outer, record s.answered l⟩
  | start {s : C.Config} {p : Nat} {b : β} {outer} :
      C.outer.Step s.outer (.start p b) outer → Step s (.start p b) ⟨s.inner, outer, s.answered⟩
  | submit {s : C.Config} {p : Nat} {c : κ} {t : Nat} {outer}
      {inner : System.Config E R σ κ ρ} :
      C.outer.Step s.outer (.act p (.submit c) t t) outer →
      S.Step s.inner (.start t c) inner →
      Step s (.act p (.submit c) t) ⟨inner, outer, s.answered⟩
  | act {s : C.Config} {p : Nat} {e : ClientOp κ Q} {r : e.Reply ρ A} {outer} :
      C.outer.Step s.outer (.act p e r r) outer → C.Answers s e r →
      Step s (.act p e r) ⟨s.inner, outer, s.answered⟩
  | finish {s : C.Config} {p : Nat} {o : ω} {outer} :
      C.outer.Step s.outer (.finish p o) outer → Step s (.finish p o) ⟨s.inner, outer, s.answered⟩
  | crash {s : C.Config} {i : ι} {outer} {inner : System.Config E R σ κ ρ} :
      S.Step s.inner (.crash i) inner → C.outer.Step s.outer (.crash i) outer →
      Step s (.crash i) ⟨inner, outer, s.answered⟩

/-- The runs from a shared state, with the labels of their steps. -/
inductive Run (s₀ : σ) : List C.Label → C.Config → Prop where
  | nil : Run s₀ [] (C.initial s₀)
  | snoc {tr : List C.Label} {s s' : C.Config} {l : C.Label} :
      Run s₀ tr s → C.Step s l s' → Run s₀ (tr ++ [l]) s'

variable {C}

/-- What a step is for the threads is a step of the threads. -/
theorem Step.inner {s s' : C.Config} {l : C.Label} (h : C.Step s l s') :
    (∃ l', Label.inner? C l = some l' ∧ S.Step s.inner l' s'.inner) ∨
      (Label.inner? C l = none ∧ s'.inner = s.inner) := by
  cases h with
  | thread hstep _ => exact .inl ⟨_, rfl, hstep⟩
  | start _ => exact .inr ⟨rfl, rfl⟩
  | submit _ hstep => exact .inl ⟨_, rfl, hstep⟩
  | @act p e r outer _ hanswers =>
    cases e with
    | submit c => exact hanswers.elim
    | wait t => exact .inr ⟨rfl, rfl⟩
    | await t => exact .inr ⟨rfl, rfl⟩
    | ask q => exact .inr ⟨rfl, rfl⟩
  | finish _ => exact .inr ⟨rfl, rfl⟩
  | crash hstep _ => exact .inl ⟨_, rfl, hstep⟩

/-- What a step is for the clients is a step of the clients. -/
theorem Step.outer {s s' : C.Config} {l : C.Label} (h : C.Step s l s') :
    (∃ l', Label.outer? C l = some l' ∧ C.outer.Step s.outer l' s'.outer) ∨
      (Label.outer? C l = none ∧ s'.outer = s.outer) := by
  cases h with
  | thread _ _ => exact .inr ⟨rfl, rfl⟩
  | start hstep => exact .inl ⟨_, rfl, hstep⟩
  | submit hstep _ => exact .inl ⟨_, rfl, hstep⟩
  | act hstep _ => exact .inl ⟨_, rfl, hstep⟩
  | finish hstep => exact .inl ⟨_, rfl, hstep⟩
  | crash _ hstep => exact .inl ⟨_, rfl, hstep⟩

/-- The threads of a run with clients make a run of the system. -/
theorem Run.inner (h : C.Run s₀ tr s) : S.Run s₀ (C.threads tr) s.inner := by
  induction h with
  | nil => exact .nil
  | @snoc tr s s' l _ hstep ih =>
    rw [threads_append]
    obtain ⟨l', hl, hinner⟩ | ⟨hl, hsame⟩ := hstep.inner
    · have hthreads : C.threads [l] = [l'] := by simp [threads, hl]
      rw [hthreads]
      exact .snoc ih hinner
    · have hthreads : C.threads [l] = [] := by simp [threads, hl]
      rw [hthreads, List.append_nil, hsame]
      exact ih

/-- The clients of a run make a run of the clients alone. -/
theorem Run.outer (h : C.Run s₀ tr s) : C.outer.Run () (C.clients tr) s.outer := by
  induction h with
  | nil => exact .nil
  | @snoc tr s s' l _ hstep ih =>
    rw [clients_append]
    obtain ⟨l', hl, houter⟩ | ⟨hl, hsame⟩ := hstep.outer
    · have hclients : C.clients [l] = [l'] := by simp [clients, hl]
      rw [hclients]
      exact .snoc ih houter
    · have hclients : C.clients [l] = [] := by simp [clients, hl]
      rw [hclients, List.append_nil, hsame]
      exact ih

/-- Every prefix of a run is a run, and its next label is a step from where it ended. -/
theorem Run.split (h : C.Run s₀ tr s) {l : C.Label} (he : tr = pre ++ l :: post) :
    ∃ s₁ s₂, C.Run s₀ pre s₁ ∧ C.Step s₁ l s₂ := by
  induction h generalizing post with
  | nil => simp at he
  | @snoc tr s s' l' hr hstep ih =>
    rcases List.eq_nil_or_concat post with hpost | ⟨post', last, hpost⟩
    · subst hpost
      obtain ⟨rfl, hl⟩ := List.append_inj' he rfl
      cases hl
      exact ⟨s, s', hr, hstep⟩
    · subst hpost
      rw [List.concat_eq_append, ← List.cons_append, ← List.append_assoc] at he
      obtain ⟨he₁, _⟩ := List.append_inj' he rfl
      exact ih he₁

/-- A recorded answer is what its thread finished with. -/
theorem Run.answered (h : C.Run s₀ tr s) {a : ρ} (ha : s.answered t = some a) :
    System.Label.finish t a ∈ C.threads tr := by
  induction h with
  | nil => cases ha
  | @snoc tr s s' l _ hstep ih =>
    rw [threads_append, List.mem_append]
    cases hstep with
    | @thread l inner hinner _ =>
      cases l with
      | finish t' a' =>
        by_cases ht : t = t'
        · subst ht
          simp only [record, Function.update_self, Option.some.injEq] at ha
          subst ha
          exact .inr (List.mem_singleton_self _)
        · simp only [record, Function.update_of_ne ht] at ha
          exact .inl (ih ha)
      | start t' c => exact .inl (ih ha)
      | act t' e x r => exact .inl (ih ha)
      | crash i => exact .inl (ih ha)
    | start _ => exact .inl (ih ha)
    | submit _ _ => exact .inl (ih ha)
    | act _ _ => exact .inl (ih ha)
    | finish _ => exact .inl (ih ha)
    | crash _ _ => exact .inl (ih ha)

/-! ### Rules for runs -/

/-- A submission starts an idle thread. -/
theorem Run.submitted (h : C.Run s₀ tr s) {c : κ}
    (he : tr = pre ++ .act p (.submit c) t :: post) :
    ∀ c', System.Label.start t c' ∉ C.threads pre := by
  obtain ⟨s₁, s₂, hpre, hstep⟩ := h.split he
  cases hstep with
  | submit _ hinner =>
    cases hinner with
    | start _ hidle =>
      have ht := hpre.inner.traced t
      rw [hidle] at ht
      exact ht.1
  | act _ hanswers => exact hanswers.elim

/-- The answer that a client waited for is what the thread had finished with. -/
theorem Run.waited (h : C.Run s₀ tr s) {a : ρ}
    (he : tr = pre ++ .act p (.wait t) a :: post) :
    System.Label.finish t a ∈ C.threads pre := by
  obtain ⟨s₁, s₂, hpre, hstep⟩ := h.split he
  cases hstep with
  | act _ hanswers => exact hpre.answered hanswers

/-- An answer that came in time is what the thread had finished with. -/
theorem Run.awaited (h : C.Run s₀ tr s) {a : ρ}
    (he : tr = pre ++ .act p (.await t) (some a) :: post) :
    System.Label.finish t a ∈ C.threads pre := by
  obtain ⟨s₁, s₂, hpre, hstep⟩ := h.split he
  cases hstep with
  | act _ hanswers => exact hpre.answered (hanswers a rfl)

/-- The client that started the call of a thread. -/
def Submitted (p t : Nat) (tr : List C.Label) : Prop := ∃ c, Label.act p (.submit c) t ∈ tr

omit [DecidableEq ι] in
/-- A submission is a start. -/
theorem start_of_submit {c : κ} (h : Label.act p (.submit c) t ∈ tr) :
    System.Label.start t c ∈ C.threads tr := by
  obtain ⟨pre, post, he⟩ := List.append_of_mem h
  rw [threads_submit he]
  exact List.mem_append_right _ List.mem_cons_self

/-- A thread is submitted by one client only, once. -/
theorem Run.submit_unique (h : C.Run s₀ tr s) {p' : Nat} {c c' : κ} {post' pre' : List C.Label}
    (he : tr = pre ++ .act p (.submit c) t :: post)
    (he' : tr = pre' ++ .act p' (.submit c') t :: post') : pre = pre' ∧ p = p' ∧ c = c' := by
  have hsplit := he.symm.trans he'
  rcases List.append_eq_append_iff.mp hsplit with ⟨q, hq, hrest⟩ | ⟨q, hq, hrest⟩
  · cases q with
    | nil =>
      simp only [List.nil_append, List.cons.injEq] at hrest
      cases hrest.1
      exact ⟨by simpa using hq.symm, rfl, rfl⟩
    | cons l q =>
      rw [List.cons_append, List.cons.injEq] at hrest
      refine absurd ?_ (h.submitted he' c)
      rw [hq, threads_append]
      exact List.mem_append_right _ (start_of_submit (by rw [← hrest.1]; exact List.mem_cons_self))
  · cases q with
    | nil =>
      simp only [List.nil_append, List.cons.injEq] at hrest
      cases hrest.1
      exact ⟨by simpa using hq, rfl, rfl⟩
    | cons l q =>
      rw [List.cons_append, List.cons.injEq] at hrest
      refine absurd ?_ (h.submitted he c')
      rw [hq, threads_append]
      exact List.mem_append_right _ (start_of_submit (by rw [← hrest.1]; exact List.mem_cons_self))

/-- The steps of a submitted thread come after its submission. -/
theorem Run.after_submit (h : C.Run s₀ tr s) {c : κ}
    (he : tr = pre ++ .act p (.submit c) t :: post) {e : E} {x : S.Input e} {r : R e}
    (hl : Label.thread (.act t e x r) ∈ tr) : Label.thread (.act t e x r) ∈ post := by
  rw [he, List.mem_append, List.mem_cons] at hl
  rcases hl with hl | hl | hl
  · obtain ⟨s₁, _, hpre, _⟩ := h.split he
    obtain ⟨c', hc'⟩ := hpre.inner.started (mem_threads_act.mpr hl)
    exact absurd hc' (h.submitted he c')
  · cases hl
  · exact hl

/-- Two clients have no thread in common. -/
theorem Run.submitted_eq (h : C.Run s₀ tr s) {p' : Nat} (hs : Submitted p t tr)
    (hs' : Submitted p' t tr) : p = p' := by
  obtain ⟨c, hc⟩ := hs
  obtain ⟨c', hc'⟩ := hs'
  obtain ⟨pre, post, he⟩ := List.append_of_mem hc
  obtain ⟨pre', post', he'⟩ := List.append_of_mem hc'
  exact (h.submit_unique he he').2.1

section Guarantee

variable {Pre : β → List (Event (ClientOp κ Q) (ClientOp.Reply ρ A)) →
    Event (ClientOp κ Q) (ClientOp.Reply ρ A) → Prop}
  {G : β → List (Event (ClientOp κ Q) (ClientOp.Reply ρ A)) → ClientOp κ Q → Prop}
  {P : β → List (Event (ClientOp κ Q) (ClientOp.Reply ρ A)) → ω → Prop}

/-- A client's guarantee holds at each of its operations, after its history before. -/
theorem Run.guarantee (h : C.Run s₀ tr s)
    (hsat : ∀ b, (C.program b).Sat (Pre b) (G b) (P b) []) {e : ClientOp κ Q} {r : e.Reply ρ A}
    (he : tr = pre ++ .act p e r :: post) :
    ∃ b, Label.start p b ∈ pre ∧
      (Prog.Relies (Pre b) (C.history p pre) → G b (C.history p pre) e) := by
  obtain ⟨b, hb, hg⟩ := h.outer.guarantee_at hsat (clients_act he)
  exact ⟨b, mem_clients_start.mp hb, hg⟩

/-- A client's postcondition holds of its history and of what it returned. -/
theorem Run.result (h : C.Run s₀ tr s) {b : β} (hb : Label.start p b ∈ tr)
    {X : List (Event (ClientOp κ Q) (ClientOp.Reply ρ A)) →
      Event (ClientOp κ Q) (ClientOp.Reply ρ A) → Prop}
    {Y : List (Event (ClientOp κ Q) (ClientOp.Reply ρ A)) → ClientOp κ Q → Prop}
    {Z : List (Event (ClientOp κ Q) (ClientOp.Reply ρ A)) → ω → Prop}
    (hsat : (C.program b).Sat X Y Z []) (hr : Prog.Relies X (C.history p tr)) {o : ω}
    (ho : Label.finish p o ∈ tr) : Z (C.history p tr) o :=
  h.outer.result (A := fun _ ↦ X) (G := fun _ ↦ Y) (Q := fun _ ↦ Z) (mem_clients_start.mpr hb)
    hsat hr (mem_clients_finish.mpr ho)

/-- A client runs one program only. -/
theorem Run.start_unique (h : C.Run s₀ tr s) {b b' : β} (hb : Label.start p b ∈ tr)
    (hb' : Label.start p b' ∈ tr) : b = b' :=
  h.outer.start_unique (mem_clients_start.mpr hb) (mem_clients_start.mpr hb')

end Guarantee

/-! ### Clients that start nothing -/

/-- Whether a step is one of a client. -/
def Label.isOf (p : Nat) : C.Label → Bool
  | .start p' _ => decide (p' = p)
  | .act p' _ _ => decide (p' = p)
  | .finish p' _ => decide (p' = p)
  | .thread _ => false
  | .crash _ => false

variable (C) in
/-- A run without the steps of one client. -/
def without (p : Nat) (tr : List C.Label) : List C.Label := tr.filter fun l ↦ !l.isOf p

omit [DecidableEq ι] in
/-- The threads do not see a client that submitted nothing. -/
theorem threads_without (hnone : ∀ c t, Label.act p (.submit c) t ∉ tr) :
    C.threads (C.without p tr) = C.threads tr := by
  induction tr with
  | nil => rfl
  | cons l tr ih =>
    have hrest : ∀ c t, Label.act p (.submit c) t ∉ tr := fun c t hmem ↦
      hnone c t (List.mem_cons_of_mem _ hmem)
    have hskip : l.isOf p = true → Label.inner? C l = none := by
      intro hl
      cases l with
      | start p' b => rfl
      | finish p' o => rfl
      | thread l => cases hl
      | crash i => cases hl
      | act p' e r =>
        obtain rfl : p' = p := of_decide_eq_true hl
        cases e with
        | submit c => exact absurd List.mem_cons_self (hnone c r)
        | wait t => rfl
        | await t => rfl
        | ask q => rfl
    unfold without threads at ih ⊢
    rw [List.filter_cons, List.filterMap_cons]
    by_cases hl : l.isOf p = true
    · rw [hskip hl, if_neg (by simp [hl])]
      exact ih hrest
    · rw [if_pos (by simp [hl]), List.filterMap_cons, ih hrest]

/-- A client that submitted nothing leaves the shared state as it is without the client. -/
theorem Run.shared_without (h : C.Run s₀ tr s) (hnone : ∀ c t, Label.act p (.submit c) t ∉ tr) :
    s.inner.shared = S.after s₀ (C.threads (C.without p tr)) := by
  rw [threads_without hnone]
  exact h.inner.shared_eq

/-- The part of a run before a step is a run. -/
theorem Run.before (h : C.Run s₀ tr s) {l : C.Label} (he : tr = pre ++ l :: post) :
    ∃ s₁, C.Run s₀ pre s₁ := by
  obtain ⟨s₁, _, hpre, _⟩ := h.split he
  exact ⟨s₁, hpre⟩

end Clients
end Atcap.Base
