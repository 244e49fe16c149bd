import Atcap.Base.Client

/-!
# Scheduled runs with clients

Library `Base`. A schedule names who takes the next step and what the environment answers; playing
it computes the labels and the configuration of a run.
-/

namespace Atcap.Base.Clients

open Base.System

variable {E : Type} {R : E → Type} {σ ι κ ρ Q β ω : Type} {A : Q → Type} {S : System E R σ ι κ ρ}

/-- One move of a schedule with clients. -/
inductive Move (C : Clients S Q A β ω) where
  /-- A move of a thread. -/
  | thread (m : S.Move)
  | start (p : Nat) (b : β)
  /-- A client starts the call it is at, in thread `t`. -/
  | submit (p t : Nat)
  /-- A client gets the answer it waits for. -/
  | wait (p : Nat)
  /-- A client gets the answer to its query. -/
  | ask (p : Nat) (x : (q : Q) → σ → A q)
  | finish (p : Nat)

variable (C : Clients S Q A β ω)

/-- The configuration after a client went on. -/
def Config.continue (s : C.Config) (p : Nat) (b : β)
    (k : Prog (ClientOp κ Q) (ClientOp.Reply ρ A) ω) :
    System.Config (ClientOp κ Q) (ClientOp.Reply ρ A) Unit β ω :=
  ⟨(), Function.update s.outer.thread p (.running b k)⟩

variable [DecidableEq ι] (look : (q : Q) → σ → A q → Bool)

/-- The step a move makes, if it can be made and `look` passes the answer. -/
def move (s : C.Config) : C.Move → Option (C.Label × C.Config)
  | .thread m =>
    match S.move s.inner m with
    | some (.crash _, _) => none
    | some (l, inner) => some (.thread l, ⟨inner, s.outer, record s.answered l⟩)
    | none => none
  | .start p b =>
    match s.outer.thread p with
    | .idle => some (.start p b, ⟨s.inner, s.continue C p b (C.program b), s.answered⟩)
    | _ => none
  | .submit p t =>
    match s.outer.thread p, s.inner.thread t with
    | .running b (.call (.submit c) k), .idle =>
      some (.act p (.submit c) t, ⟨⟨s.inner.shared, Function.update s.inner.thread t
        (.running c (S.body c))⟩, s.continue C p b (k t), s.answered⟩)
    | _, _ => none
  | .wait p =>
    match s.outer.thread p with
    | .running b (.call (.wait t) k) =>
      (s.answered t).map fun a ↦ (.act p (.wait t) a, ⟨s.inner, s.continue C p b (k a), s.answered⟩)
    | .running b (.call (.await t) k) =>
      (s.answered t).map fun a ↦
        (.act p (.await t) (some a), ⟨s.inner, s.continue C p b (k (some a)), s.answered⟩)
    | _ => none
  | .ask p x =>
    match s.outer.thread p with
    | .running b (.call (.ask q) k) =>
      let a := x q s.inner.shared
      if look q s.inner.shared a = true then
        some (.act p (.ask q) a, ⟨s.inner, s.continue C p b (k a), s.answered⟩)
      else none
    | _ => none
  | .finish p =>
    match s.outer.thread p with
    | .running b (.done o) =>
      some (.finish p o, ⟨s.inner, ⟨(), Function.update s.outer.thread p (.ended b)⟩, s.answered⟩)
    | _ => none

/-- The labels and the last configuration of a schedule, if all of its moves can be made. -/
def play (s : C.Config) : List C.Move → Option (List C.Label × C.Config)
  | [] => some ([], s)
  | m :: rest => do
    let (l, s') ← move C look s m
    let (tr, last) ← play s' rest
    return (l :: tr, last)

variable {C look} {s s' : C.Config}

/-- A client that gets a reply goes on with it. -/
theorem step_continue {p : Nat} {b : β} {e : ClientOp κ Q}
    {k : e.Reply ρ A → Prog (ClientOp κ Q) (ClientOp.Reply ρ A) ω}
    (hth : s.outer.thread p = .running b (.call e k)) (r : e.Reply ρ A) :
    C.outer.Step s.outer (.act p e r r) (s.continue C p b (k r)) :=
  System.Step.act (S := C.outer) r hth

/-- A move is a step. -/
theorem step_of_move (hlook : ∀ q w a, look q w a = true → C.Look q w a) {m : C.Move} {l : C.Label}
    (h : move C look s m = some (l, s')) : C.Step s l s' := by
  cases m with
  | thread m =>
    simp only [move] at h
    split at h
    · cases h
    · next l inner hcrash hm =>
      cases h
      refine .thread (System.step_of_move hm) ?_
      intro i hl
      exact hcrash i hl
    · cases h
  | start p b =>
    simp only [move] at h
    split at h
    · next hth =>
      cases h
      exact .start (.start b hth)
    · cases h
  | submit p t =>
    simp only [move] at h
    split at h
    · next b c k hth hidle =>
      cases h
      exact .submit (step_continue hth t) (.start c hidle)
    · cases h
  | wait p =>
    simp only [move] at h
    split at h
    · next b t k hth =>
      obtain ⟨a, ha, heq⟩ := Option.map_eq_some_iff.mp h
      cases heq
      exact .act (step_continue hth a) ha
    · next b t k hth =>
      obtain ⟨a, ha, heq⟩ := Option.map_eq_some_iff.mp h
      cases heq
      refine .act (step_continue hth (some a)) ?_
      rintro a' ⟨⟩
      exact ha
    · cases h
  | ask p x =>
    simp only [move] at h
    split at h
    · next b q k hth =>
      split at h
      · next hok =>
        cases h
        exact .act (step_continue hth _) (hlook _ _ _ hok)
      · cases h
    · cases h
  | finish p =>
    simp only [move] at h
    split at h
    · next hth =>
      cases h
      exact .finish (.finish hth)
    · cases h

/-- Playing a schedule extends a run. -/
theorem Run.play (hlook : ∀ q w a, look q w a = true → C.Look q w a) {s₀ : σ} {tr : List C.Label}
    {moves : List C.Move} {tr' : List C.Label} (h : C.Run s₀ tr s)
    (hp : Clients.play C look s moves = some (tr', s')) : C.Run s₀ (tr ++ tr') s' := by
  induction moves generalizing tr s tr' with
  | nil =>
    cases hp
    rwa [List.append_nil]
  | cons m rest ih =>
    simp only [Clients.play, Option.bind_eq_bind, Option.bind_eq_some_iff, Option.pure_def,
      Option.some.injEq, Prod.mk.injEq] at hp
    obtain ⟨⟨l, s₁⟩, hmove, ⟨tr₁, last⟩, hrest, rfl, rfl⟩ := hp
    have hrun := ih (.snoc h (step_of_move hlook hmove)) hrest
    rwa [List.append_assoc] at hrun

/-- A schedule that can be played from the start is a run. -/
theorem run_of_play (hlook : ∀ q w a, look q w a = true → C.Look q w a) {s₀ : σ}
    {tr : List C.Label} {moves : List C.Move}
    (hp : Clients.play C look (C.initial s₀) moves = some (tr, s)) : C.Run s₀ tr s :=
  Run.nil.play hlook hp

/-- A schedule is played in two parts. -/
theorem play_append (moves moves' : List C.Move) :
    Clients.play C look s (moves ++ moves') = (Clients.play C look s moves).bind fun r ↦
      (Clients.play C look r.2 moves').map fun q ↦ (r.1 ++ q.1, q.2) := by
  induction moves generalizing s with
  | nil => simp [Clients.play]
  | cons m rest ih =>
    simp only [List.cons_append, Clients.play, ih, Option.bind_eq_bind, Option.bind_assoc,
      Option.pure_def, Option.bind_some, Option.map_eq_bind]
    rfl

/-- The labels that a move can have. -/
def Move.Makes : C.Move → C.Label → Prop
  | .thread m, l => ∃ l', m.Makes l' ∧ l = .thread l'
  | .start p b, l => l = .start p b
  | .submit p t, l => ∃ c, l = .act p (.submit c) t
  | .wait p, l => ∃ t a, l = .act p (.wait t) a ∨ l = .act p (.await t) (some a)
  | .ask p x, l => ∃ q w, l = .act p (.ask q) (x q w)
  | .finish p, l => ∃ o, l = .finish p o

/-- A move has one of its labels. -/
theorem makes_of_move {m : C.Move} {l : C.Label} (h : move C look s m = some (l, s')) :
    m.Makes l := by
  cases m with
  | thread m =>
    simp only [move] at h
    split at h
    · cases h
    · next l inner _ hm =>
      cases h
      have hplay : S.play s.inner [m] = some ([l], inner) := by
        simp only [System.play, hm]
        rfl
      cases System.makes_of_play hplay with
      | cons hmakes _ => exact ⟨l, hmakes, rfl⟩
    · cases h
  | start p b =>
    simp only [move] at h
    split at h
    · cases h
      rfl
    · cases h
  | submit p t =>
    simp only [move] at h
    split at h
    · cases h
      exact ⟨_, rfl⟩
    · cases h
  | wait p =>
    simp only [move] at h
    split at h
    · obtain ⟨a, _, heq⟩ := Option.map_eq_some_iff.mp h
      cases heq
      exact ⟨_, a, .inl rfl⟩
    · obtain ⟨a, _, heq⟩ := Option.map_eq_some_iff.mp h
      cases heq
      exact ⟨_, a, .inr rfl⟩
    · cases h
  | ask p x =>
    simp only [move] at h
    split at h
    · split at h
      · cases h
        exact ⟨_, _, rfl⟩
      · cases h
    · cases h
  | finish p =>
    simp only [move] at h
    split at h
    · cases h
      exact ⟨_, rfl⟩
    · cases h

/-- A schedule and the run it makes go step by step. -/
theorem makes_of_play {moves : List C.Move} {tr : List C.Label}
    (h : Clients.play C look s moves = some (tr, s')) : List.Forall₂ Move.Makes moves tr := by
  induction moves generalizing s tr with
  | nil =>
    cases h
    exact .nil
  | cons m rest ih =>
    simp only [Clients.play, Option.bind_eq_bind, Option.bind_eq_some_iff, Option.pure_def,
      Option.some.injEq, Prod.mk.injEq] at h
    obtain ⟨⟨l, s₁⟩, hmove, ⟨tr₁, last⟩, hrest, rfl, rfl⟩ := h
    exact .cons (makes_of_move hmove) (ih hrest)

end Atcap.Base.Clients
