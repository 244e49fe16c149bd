import Mathlib.Data.List.Basic

/-!
# Programs over named operations

Library `Base`. A program issues operations and continues with their replies; what an
operation does is fixed elsewhere. The history of a program is the list of operations it
issued with the replies it got. `Prog.Sat` is the program logic: under an assumption on
replies, a guarantee for every operation issued and a postcondition on the result, all
relative to the history so far. `Body` adds exceptions and local variables that survive
an exception, which is what a `try` statement of the modelled language needs.
-/

namespace Atcap.Base

/-! ### Exceptions of pure computations -/

section Raise

variable {ε α β : Type} {x : Except ε α} {f : α → Except ε β} {b : β} {e : ε}

/-- `if c: raise e`. -/
def raiseIf (c : Prop) [Decidable c] (e : ε) : Except ε Unit := if c then .error e else .ok ()

/-- The statement passes exactly when its condition fails. -/
@[simp] theorem raiseIf_eq_ok {c : Prop} [Decidable c] {u : Unit} :
    raiseIf c e = .ok u ↔ ¬ c := by
  unfold raiseIf
  split
  · next h => simp [h]
  · next h => simp [h]

/-- The statement raises its own exception exactly when its condition holds. -/
@[simp] theorem raiseIf_eq_error {c : Prop} [Decidable c] {e' : ε} :
    raiseIf c e = .error e' ↔ c ∧ e' = e := by
  unfold raiseIf
  split
  · next h => simp [h, eq_comm]
  · next h => simp [h]

/-- `if x is None: raise e`. -/
def orRaise (x : Option α) (e : ε) : Except ε α :=
  match x with
  | some a => .ok a
  | none => .error e

/-- The statement passes exactly when there is a value. -/
@[simp] theorem orRaise_eq_ok {o : Option α} {a : α} : orRaise o e = .ok a ↔ o = some a := by
  cases o with
  | none => simp [orRaise]
  | some b => simp [orRaise]

/-- The statement raises its own exception exactly when there is no value. -/
theorem orRaise_eq_error {o : Option α} {e' : ε} : orRaise o e = .error e' ↔ o = none ∧ e' = e := by
  cases o with
  | none => simp [orRaise, eq_comm]
  | some b => simp [orRaise]

/-- A composition succeeds when both of its parts do. -/
theorem bind_eq_ok : (x >>= f) = .ok b ↔ ∃ a, x = .ok a ∧ f a = .ok b := by
  cases x with
  | error e => simp [bind, Except.bind]
  | ok a => simp [bind, Except.bind]

/-- A composition raises what its first failing part raises. -/
theorem bind_eq_error :
    (x >>= f) = .error e ↔ x = .error e ∨ ∃ a, x = .ok a ∧ f a = .error e := by
  cases x with
  | error e' => simp [bind, Except.bind]
  | ok a => simp [bind, Except.bind]

/-- A translated exception is no value. -/
@[simp] theorem mapError_eq_ok {ε' : Type} {f : ε → ε'} {a : α} :
    x.mapError f = .ok a ↔ x = .ok a := by
  cases x with
  | error e => simp [Except.mapError]
  | ok b => simp [Except.mapError]

/-- A translated exception is the translation of what was raised. -/
theorem mapError_eq_error {ε' : Type} {f : ε → ε'} {e' : ε'} :
    x.mapError f = .error e' ↔ ∃ e, x = .error e ∧ e' = f e := by
  cases x with
  | error e => simp [Except.mapError, eq_comm]
  | ok b => simp [Except.mapError]

end Raise

/-! ### Programs -/

/-- A program issues operations of `E` with replies of `R` and returns an `α`. -/
inductive Prog (E : Type) (R : E → Type) (α : Type) : Type where
  | done (a : α)
  | call (e : E) (k : R e → Prog E R α)

/-- An issued operation with the reply it got. -/
structure Event (E : Type) (R : E → Type) where
  op : E
  reply : R op

namespace Prog

variable {E : Type} {R : E → Type} {α β γ : Type}

/-- Sequential composition. -/
def bind (p : Prog E R α) (f : α → Prog E R β) : Prog E R β :=
  match p with
  | .done a => f a
  | .call e k => .call e (fun r ↦ (k r).bind f)

/-- Composition of programs is associative. -/
theorem bind_assoc (p : Prog E R α) (f : α → Prog E R β) (g : β → Prog E R γ) :
    (p.bind f).bind g = p.bind (fun a ↦ (f a).bind g) := by
  induction p with
  | done a => rfl
  | call e k ih =>
    simp only [bind]
    congr 1
    funext r
    exact ih r

/-- `p.Path evs q`: issuing the operations of `evs` with their replies leads from `p` to `q`. -/
inductive Path : Prog E R α → List (Event E R) → Prog E R α → Prop where
  | nil (p : Prog E R α) : Path p [] p
  | snoc {p : Prog E R α} {evs : List (Event E R)} {e : E} {k : R e → Prog E R α} (r : R e) :
      Path p evs (.call e k) → Path p (evs ++ [⟨e, r⟩]) (k r)

/-- The replies of a path determine where it leads. -/
theorem Path.unique {p q q' : Prog E R α} {evs : List (Event E R)} (h : p.Path evs q)
    (h' : p.Path evs q') : q = q' := by
  induction h generalizing q' with
  | nil =>
    generalize hevs : ([] : List (Event E R)) = evs at h'
    cases h' with
    | nil => rfl
    | snoc r h' => simp at hevs
  | @snoc evs e k r _ ih =>
    generalize hevs : evs ++ [⟨e, r⟩] = evs' at h'
    cases h' with
    | nil => simp at hevs
    | @snoc evs' e' k' r' h' =>
      obtain ⟨rfl, hev⟩ := List.append_inj' hevs rfl
      cases hev
      cases ih h'
      rfl

/-- A path of a program with a pure last step is a path of the program. -/
theorem Path.of_bind {f : α → β} {p : Prog E R α} {evs : List (Event E R)} {q : Prog E R β}
    (h : (p.bind fun a ↦ .done (f a)).Path evs q) :
    ∃ p', p.Path evs p' ∧ q = p'.bind fun a ↦ .done (f a) := by
  induction h with
  | nil => exact ⟨p, .nil p, rfl⟩
  | @snoc evs e k r _ ih =>
    obtain ⟨p', hpath, hq⟩ := ih
    cases p' with
    | done a => cases hq
    | call e' k' =>
      cases hq
      exact ⟨k' r, .snoc r hpath, rfl⟩

variable (A : List (Event E R) → Event E R → Prop) (G : List (Event E R) → E → Prop)

/-- Every reply of a history satisfies `A` after the history before it. -/
def Relies (evs : List (Event E R)) : Prop :=
  ∀ pre ev post, evs = pre ++ ev :: post → A pre ev

/-- While replies satisfy `A`, every operation satisfies `G` after the history so far, and the
result satisfies `Q` with the complete history. -/
def Sat (Q : List (Event E R) → α → Prop) : Prog E R α → List (Event E R) → Prop
  | .done a, h => Q h a
  | .call e k, h => G h e ∧ ∀ r, A h ⟨e, r⟩ → (k r).Sat Q (h ++ [⟨e, r⟩])

variable {A G}

/-- The postcondition can be weakened. -/
theorem Sat.mono {Q Q' : List (Event E R) → α → Prop} {p : Prog E R α} {h : List (Event E R)}
    (hp : p.Sat A G Q h) (hq : ∀ h a, Q h a → Q' h a) : p.Sat A G Q' h := by
  induction p generalizing h with
  | done a => exact hq _ _ hp
  | call e k ih => exact ⟨hp.1, fun r hr ↦ ih r (hp.2 r hr)⟩

/-- A program only extends its history. -/
theorem Sat.extend {Q : List (Event E R) → α → Prop} {p : Prog E R α} {h : List (Event E R)}
    (hp : p.Sat A G Q h) : p.Sat A G (fun h' a ↦ h <+: h' ∧ Q h' a) h := by
  induction p generalizing h with
  | done a => exact ⟨List.prefix_rfl, hp⟩
  | call e k ih =>
    refine ⟨hp.1, fun r hr ↦ ?_⟩
    apply (ih r (hp.2 r hr)).mono
    intro h' a ha
    exact ⟨(List.prefix_append h _).trans ha.1, ha.2⟩

/-- The guarantee can be weakened. -/
theorem Sat.weaken {G' : List (Event E R) → E → Prop} {Q : List (Event E R) → α → Prop}
    {p : Prog E R α} {h : List (Event E R)} (hp : p.Sat A G Q h) (hg : ∀ h e, G h e → G' h e) :
    p.Sat A G' Q h := by
  induction p generalizing h with
  | done a => exact hp
  | call e k ih => exact ⟨hg _ _ hp.1, fun r hr ↦ ih r (hp.2 r hr)⟩

/-- More may be assumed of the replies. -/
theorem Sat.assume {A' : List (Event E R) → Event E R → Prop} {Q : List (Event E R) → α → Prop}
    {p : Prog E R α} {h : List (Event E R)} (hp : p.Sat A G Q h)
    (ha : ∀ h ev, A' h ev → A h ev) : p.Sat A' G Q h := by
  induction p generalizing h with
  | done a => exact hp
  | call e k ih => exact ⟨hp.1, fun r hr ↦ ih r (hp.2 r (ha _ _ hr))⟩

/-- A history extended by operations of `P` only. -/
def ExtendedBy (P : E → Prop) (h h' : List (Event E R)) : Prop :=
  ∃ q, h' = h ++ q ∧ ∀ ev ∈ q, P ev.op

/-- What is guaranteed of every operation holds of all that a program has issued so far. -/
theorem Sat.collect {P : E → Prop} {Q : List (Event E R) → α → Prop} {p : Prog E R α}
    {h : List (Event E R)} (hp : p.Sat A (fun _ e ↦ P e) Q h) :
    p.Sat A (fun h' e ↦ P e ∧ ExtendedBy P h h') (fun h' a ↦ Q h' a ∧ ExtendedBy P h h') h := by
  have hnil : ExtendedBy P h h := ⟨[], (List.append_nil h).symm, List.forall_mem_nil _⟩
  induction p generalizing h with
  | done a => exact ⟨hp, hnil⟩
  | call e k ih =>
    refine ⟨⟨hp.1, hnil⟩, fun r hr ↦ ?_⟩
    have hstep : ∀ {h'}, ExtendedBy P (h ++ [⟨e, r⟩]) h' → ExtendedBy P h h' := by
      rintro h' ⟨q, rfl, hall⟩
      exact ⟨⟨e, r⟩ :: q, by simp, List.forall_mem_cons.mpr ⟨hp.1, hall⟩⟩
    have hk := ih r (hp.2 r hr) ⟨[], (List.append_nil _).symm, List.forall_mem_nil _⟩
    exact (hk.mono fun h' a ha ↦ ⟨ha.1, hstep ha.2⟩).weaken fun h' e he ↦ ⟨he.1, hstep he.2⟩

/-- Whatever a program does, it only extends its history. -/
theorem sat_extends (p : Prog E R α) (h : List (Event E R)) :
    p.Sat A (fun _ _ ↦ True) (fun h' _ ↦ h <+: h') h := by
  induction p generalizing h with
  | done a => exact List.prefix_rfl
  | call e k ih =>
    refine ⟨trivial, fun r _ ↦ (ih r _).mono ?_⟩
    intro h' a hp
    exact (List.prefix_append h _).trans hp

/-- A composition is correct when its second part is correct after every result of the first. -/
theorem sat_bind {Q : List (Event E R) → β → Prop} {p : Prog E R α} {f : α → Prog E R β}
    {h : List (Event E R)} :
    (p.bind f).Sat A G Q h ↔ p.Sat A G (fun h' a ↦ (f a).Sat A G Q h') h := by
  induction p generalizing h with
  | done a => rfl
  | call e k ih =>
    simp only [bind, Sat]
    constructor
    · rintro ⟨hg, hk⟩
      exact ⟨hg, fun r hr ↦ (ih r).mp (hk r hr)⟩
    · rintro ⟨hg, hk⟩
      exact ⟨hg, fun r hr ↦ (ih r).mpr (hk r hr)⟩

/-- A second postcondition holds together with the first. -/
theorem Sat.and {Q Q' : List (Event E R) → α → Prop} {p : Prog E R α} {h : List (Event E R)}
    (hp : p.Sat A G Q h) (hp' : p.Sat A (fun _ _ ↦ True) Q' h) :
    p.Sat A G (fun h a ↦ Q h a ∧ Q' h a) h := by
  induction p generalizing h with
  | done a => exact ⟨hp, hp'⟩
  | call e k ih => exact ⟨hp.1, fun r hr ↦ ih r (hp.2 r hr) (hp'.2 r hr)⟩

/-- A history relies on what its beginning relies on. -/
theorem Relies.left {evs evs' : List (Event E R)} (h : Relies A (evs ++ evs')) : Relies A evs := by
  intro pre ev post he
  exact h pre ev (post ++ evs') (by rw [he]; simp)

/-- The last reply of a history satisfies the assumption. -/
theorem Relies.last {evs : List (Event E R)} {ev : Event E R} (h : Relies A (evs ++ [ev])) :
    A evs ev :=
  h evs ev [] rfl

/-- A history relies on one more reply. -/
theorem Relies.snoc {evs : List (Event E R)} {ev : Event E R} (h : Relies A evs) (he : A evs ev) :
    Relies A (evs ++ [ev]) := by
  intro pre ev' post heq
  rcases List.eq_nil_or_concat post with rfl | ⟨post', last, rfl⟩
  · obtain ⟨rfl, hev⟩ := List.append_inj' heq rfl
    cases hev
    exact he
  · rw [List.concat_eq_append, ← List.cons_append, ← List.append_assoc] at heq
    obtain ⟨hevs, -⟩ := List.append_inj' heq rfl
    exact h pre ev' post' hevs

/-- A program ends with a history whose replies satisfy the assumption. -/
theorem Sat.relied {Q : List (Event E R) → α → Prop} {p : Prog E R α} {h : List (Event E R)}
    (hp : p.Sat A G Q h) (hh : Relies A h) : p.Sat A G (fun h' a ↦ Q h' a ∧ Relies A h') h := by
  induction p generalizing h with
  | done a => exact ⟨hp, hh⟩
  | call e k ih => exact ⟨hp.1, fun r hr ↦ ih r (hp.2 r hr) (hh.snoc hr)⟩

/-- Correctness is kept along a path whose replies satisfy the assumption. -/
theorem Sat.path {Q : List (Event E R) → α → Prop} {p q : Prog E R α} {evs : List (Event E R)}
    (hs : p.Sat A G Q []) (hp : p.Path evs q) (ha : Relies A evs) : q.Sat A G Q evs := by
  induction hp with
  | nil => exact hs
  | snoc r _ ih => exact (ih ha.left).2 r ha.last

/-- Every operation of a path satisfies the guarantee after the operations before it. -/
theorem Sat.guarantee {Q : List (Event E R) → α → Prop} {p q : Prog E R α}
    {evs pre post : List (Event E R)} {ev : Event E R} (hs : p.Sat A G Q [])
    (hp : p.Path evs q) (he : evs = pre ++ ev :: post) (ha : Relies A pre) :
    G pre ev.op := by
  induction hp generalizing pre ev post with
  | nil => simp at he
  | snoc r hq ih =>
    rcases List.eq_nil_or_concat post with hpost | ⟨post', last, hpost⟩
    · subst hpost
      obtain ⟨he₁, he₂⟩ := List.append_inj' he rfl
      cases he₂
      subst he₁
      exact (hs.path hq ha).1
    · subst hpost
      rw [List.concat_eq_append, ← List.cons_append, ← List.append_assoc] at he
      obtain ⟨he₁, _⟩ := List.append_inj' he rfl
      exact ih he₁ ha

/-! ### The points of a program -/

/-- Wherever a program comes to after a history, `P` holds of the history and of the rest of the
program. -/
def Points (P : List (Event E R) → Prog E R α → Prop) : Prog E R α → List (Event E R) → Prop
  | .done a, h => P h (.done a)
  | .call e k, h => P h (.call e k) ∧ ∀ r, Points P (k r) (h ++ [⟨e, r⟩])

section Points

variable {P : List (Event E R) → Prog E R β → Prop}

/-- A path leads to points. -/
theorem Points.path {p q : Prog E R β} {evs : List (Event E R)} (hp : p.Points P [])
    (hq : p.Path evs q) : q.Points P evs := by
  induction hq with
  | nil => exact hp
  | snoc r _ ih => exact ih.2 r

/-- The points of a composition are those of its first part, which are left by operations that the
first part guarantees, and those of the second part after the results of the first. -/
theorem Points.bind {Q : List (Event E R) → α → Prop} {p : Prog E R α} {f : α → Prog E R β}
    {h : List (Event E R)} (hp : p.Sat (fun _ _ ↦ True) G Q h)
    (hcall : ∀ h e k, G h e → P h (.call e k)) (hf : ∀ h a, Q h a → (f a).Points P h) :
    (p.bind f).Points P h := by
  induction p generalizing h with
  | done a => exact hf h a hp
  | call e k ih => exact ⟨hcall h e _ hp.1, fun r ↦ ih r (hp.2 r trivial)⟩

end Points

/-! ### Undisturbed programs -/

section Solo

variable {σ : Type} (f : (e : E) → σ → R e × σ)

/-- The state after a history whose operations alone change it. -/
def stateAfter (s : σ) (h : List (Event E R)) : σ := h.foldl (fun s ev ↦ (f ev.op s).2) s

/-- Run a program that nothing disturbs: its history and its result. -/
def solo : Prog E R α → σ → List (Event E R) × α
  | .done a, _ => ([], a)
  | .call e k, s =>
    let rest := (k (f e s).1).solo (f e s).2
    (⟨e, (f e s).1⟩ :: rest.1, rest.2)

/-- The reply to an operation after a history that nothing disturbed. -/
def Undisturbed (s : σ) (h : List (Event E R)) (ev : Event E R) : Prop :=
  ev.reply = (f ev.op (stateAfter f s h)).1

variable {f}

/-- The state after one more operation. -/
@[simp] theorem stateAfter_snoc (s : σ) (h : List (Event E R)) (ev : Event E R) :
    stateAfter f s (h ++ [ev]) = (f ev.op (stateAfter f s h)).2 := by
  simp [stateAfter]

/-- A program that relies on nothing but its own operations is correct when it runs alone. -/
theorem Sat.solo {Q : List (Event E R) → α → Prop} {p : Prog E R α} {s : σ}
    {h : List (Event E R)} (hp : p.Sat (Undisturbed f s) G Q h) :
    Q (h ++ (p.solo f (stateAfter f s h)).1) (p.solo f (stateAfter f s h)).2 := by
  induction p generalizing h with
  | done a =>
    have hq : Q h a := hp
    simpa [Prog.solo] using hq
  | call e k ih =>
    have hk := ih _ (hp.2 (f e (stateAfter f s h)).1 rfl)
    rw [stateAfter_snoc, List.append_assoc] at hk
    exact hk

/-- A path may start with one more operation. -/
theorem Path.cons {e : E} {k : R e → Prog E R α} (r : R e) {evs : List (Event E R)}
    {q : Prog E R α} (h : (k r).Path evs q) : (Prog.call e k).Path (⟨e, r⟩ :: evs) q := by
  induction h with
  | nil =>
    have hfirst : (Prog.call e k).Path ([] ++ [⟨e, r⟩]) (k r) := .snoc r (.nil _)
    exact hfirst
  | snoc r' _ ih => exact .snoc r' ih

/-- What a program does alone is one of its paths. -/
theorem path_solo (f : (e : E) → σ → R e × σ) (p : Prog E R α) (s : σ) :
    p.Path (p.solo f s).1 (.done (p.solo f s).2) := by
  induction p generalizing s with
  | done a => exact .nil _
  | call e k ih => exact .cons _ (ih _ _)

end Solo

end Prog

/-! ### Function bodies -/

/-- A function body: it issues operations, may raise an exception of `ε`, and keeps local
variables of type `L` whose values survive an exception. -/
def Body (E : Type) (R : E → Type) (ε L α : Type) : Type := L → Prog E R (Except ε α × L)

namespace Body

variable {E : Type} {R : E → Type} {ε L L' α β : Type}

/-- Return a value. -/
protected def pure (a : α) : Body E R ε L α := fun l ↦ .done (.ok a, l)

/-- Sequential composition; an exception skips the rest. -/
protected def bind (x : Body E R ε L α) (f : α → Body E R ε L β) : Body E R ε L β := fun l ↦
  (x l).bind fun
    | (.ok a, l') => f a l'
    | (.error e, l') => .done (.error e, l')

/-- Raise an exception. -/
def raise (e : ε) : Body E R ε L α := fun l ↦ .done (.error e, l)

/-- Return a value, or raise the exception of a failed pure computation. -/
def ofExcept : Except ε α → Body E R ε L α
  | .ok a => Body.pure a
  | .error e => raise e

/-- `if c: raise e`. -/
def raiseIf (c : Prop) [Decidable c] (e : ε) : Body E R ε L Unit := ofExcept (Base.raiseIf c e)

/-- Bodies compose in sequence. -/
instance : Monad (Body E R ε L) where
  pure := Body.pure
  bind := Body.bind

/-- Issue an operation that cannot fail. -/
def perform (e : E) : Body E R ε L (R e) := fun l ↦ .call e (fun r ↦ .done (.ok r, l))

/-- Issue an operation and read its reply as a value or an exception. -/
def invoke (e : E) (f : R e → Except ε α) : Body E R ε L α := fun l ↦
  .call e (fun r ↦ .done (f r, l))

/-- Assign the local variables. -/
def assign (f : L → L) : Body E R ε L Unit := fun l ↦ .done (.ok (), f l)

/-- Read the local variables. -/
def locals : Body E R ε L L := fun l ↦ .done (.ok l, l)

/-- Run a `try` block with its own local variables and observe how it ended. -/
def attempt (x : Body E R ε L' α) (l' : L') : Body E R ε L (Except ε α × L') := fun l ↦
  (x l').bind fun r ↦ .done (.ok r, l)

/-- The program a call without local variables runs. -/
def prog (x : Body E R ε Unit α) : Prog E R (Except ε α) := (x ()).bind fun r ↦ .done r.1

variable (A : List (Event E R) → Event E R → Prop) (G : List (Event E R) → E → Prop)

/-- Program logic for bodies: the postcondition also sees the outcome and the locals. -/
def Sat (Q : List (Event E R) → Except ε α → L → Prop) (x : Body E R ε L α)
    (h : List (Event E R)) (l : L) : Prop :=
  (x l).Sat A G (fun h' r ↦ Q h' r.1 r.2) h

variable {A G} {Q : List (Event E R) → Except ε α → L → Prop} {h : List (Event E R)} {l : L}

/-- The postcondition can be weakened. -/
theorem Sat.mono {Q' : List (Event E R) → Except ε α → L → Prop} {x : Body E R ε L α}
    (hx : x.Sat A G Q h l) (hq : ∀ h r l, Q h r l → Q' h r l) : x.Sat A G Q' h l :=
  Prog.Sat.mono hx fun h' r hr ↦ hq h' r.1 r.2 hr

/-- A body that returns at once. -/
@[simp] theorem sat_pure {a : α} : Sat A G Q (Pure.pure a) h l ↔ Q h (.ok a) l := Iff.rfl

/-- A body that raises at once. -/
@[simp] theorem sat_raise {e : ε} : Sat A G Q (raise e) h l ↔ Q h (.error e) l := Iff.rfl

/-- A body that is a computed result. -/
@[simp] theorem sat_ofExcept {r : Except ε α} : Sat A G Q (ofExcept r) h l ↔ Q h r l := by
  cases r
  · exact Iff.rfl
  · exact Iff.rfl

/-- A body that goes on with the result of another. -/
@[simp] theorem sat_bind {Q : List (Event E R) → Except ε β → L → Prop} {x : Body E R ε L α}
    {f : α → Body E R ε L β} :
    Sat A G Q (x >>= f) h l ↔
      Sat A G (fun h' r l' ↦ match r with
        | .ok a => Sat A G Q (f a) h' l'
        | .error e => Q h' (.error e) l') x h l := by
  change Prog.Sat A G _ ((x l).bind _) h ↔ _
  rw [Prog.sat_bind]
  constructor
  · intro hs
    apply Prog.Sat.mono hs
    rintro h' ⟨r, l'⟩ hr
    cases r
    · exact hr
    · exact hr
  · intro hs
    apply Prog.Sat.mono hs
    rintro h' ⟨r, l'⟩ hr
    cases r
    · exact hr
    · exact hr

/-- A raising statement ends the body when its condition holds, and passes otherwise. -/
@[simp] theorem sat_raiseIf_bind {c : Prop} [Decidable c] {e : ε} {f : Unit → Body E R ε L α} :
    Sat A G Q (raiseIf c e >>= f) h l ↔
      (c → Q h (.error e) l) ∧ (¬ c → Sat A G Q (f ()) h l) := by
  rw [sat_bind, raiseIf, sat_ofExcept]
  unfold Base.raiseIf
  by_cases hc : c
  · simp [hc]
  · simp [hc]

/-- A body that issues one operation. -/
@[simp] theorem sat_perform {e : E} {Q : List (Event E R) → Except ε (R e) → L → Prop} :
    Sat A G Q (perform e) h l ↔ G h e ∧ ∀ r, A h ⟨e, r⟩ → Q (h ++ [⟨e, r⟩]) (.ok r) l := Iff.rfl

/-- A body that issues one operation and reads its reply. -/
@[simp] theorem sat_invoke {e : E} {f : R e → Except ε α} :
    Sat A G Q (invoke e f) h l ↔ G h e ∧ ∀ r, A h ⟨e, r⟩ → Q (h ++ [⟨e, r⟩]) (f r) l := Iff.rfl

/-- A body that changes its local variables. -/
@[simp] theorem sat_assign {f : L → L} {Q : List (Event E R) → Except ε Unit → L → Prop} :
    Sat A G Q (assign f) h l ↔ Q h (.ok ()) (f l) := Iff.rfl

/-- A body that reads its local variables. -/
@[simp] theorem sat_locals {Q : List (Event E R) → Except ε L → L → Prop} :
    Sat A G Q locals h l ↔ Q h (.ok l) l := Iff.rfl

/-- A body that catches what another raises. -/
@[simp] theorem sat_attempt {x : Body E R ε L' α} {l' : L'}
    {Q : List (Event E R) → Except ε (Except ε α × L') → L → Prop} :
    Sat A G Q (attempt x l') h l ↔ Sat A G (fun h' r l'' ↦ Q h' (.ok (r, l'')) l) x h l' := by
  change Prog.Sat A G _ ((x l').bind _) h ↔ _
  rw [Prog.sat_bind]
  rfl

/-- The guarantee can be weakened. -/
theorem Sat.weaken {G' : List (Event E R) → E → Prop} {x : Body E R ε L α}
    (hx : x.Sat A G Q h l) (hg : ∀ h e, G h e → G' h e) : x.Sat A G' Q h l :=
  Prog.Sat.weaken hx hg

/-- What is guaranteed of every operation holds of all that a body has issued so far. -/
theorem Sat.collect {P : E → Prop} {x : Body E R ε L α}
    (hx : x.Sat A (fun _ e ↦ P e) Q h l) :
    x.Sat A (fun h' e ↦ P e ∧ Prog.ExtendedBy P h h')
      (fun h' r l' ↦ Q h' r l' ∧ Prog.ExtendedBy P h h') h l :=
  Prog.Sat.collect hx

/-- A second postcondition holds together with the first. -/
theorem Sat.and {Q' : List (Event E R) → Except ε α → L → Prop} {x : Body E R ε L α}
    (hx : x.Sat A G Q h l) (hx' : x.Sat A (fun _ _ ↦ True) Q' h l) :
    x.Sat A G (fun h r l ↦ Q h r l ∧ Q' h r l) h l := Prog.Sat.and hx hx'

/-- More may be assumed of the replies. -/
theorem Sat.assume {A' : List (Event E R) → Event E R → Prop} {x : Body E R ε L α}
    (hx : x.Sat A G Q h l) (ha : ∀ h ev, A' h ev → A h ev) : x.Sat A' G Q h l :=
  Prog.Sat.assume hx ha

/-- Whatever a body does, it only extends its history. -/
theorem sat_extends (x : Body E R ε L α) (h : List (Event E R)) (l : L) :
    Sat A (fun _ _ ↦ True) (fun h' _ _ ↦ h <+: h') x h l := Prog.sat_extends (x l) h

/-! ### Rules of the program logic -/

section Rules

variable {Q : List (Event E R) → Except ε β → L → Prop}

/-- Composition: the second part is correct after every result of the first. -/
theorem Sat.bind {Q' : List (Event E R) → Except ε α → L → Prop} {x : Body E R ε L α}
    {f : α → Body E R ε L β} (hx : x.Sat A G Q' h l)
    (herr : ∀ h' e l', h <+: h' → Q' h' (.error e) l' → Q h' (.error e) l')
    (hok : ∀ h' a l', h <+: h' → Q' h' (.ok a) l' → (f a).Sat A G Q h' l') :
    Sat A G Q (x >>= f) h l := by
  rw [sat_bind]
  apply (Prog.Sat.extend hx).mono
  rintro h' ⟨r, l'⟩ ⟨hp, hr⟩
  cases r with
  | error e => exact herr h' e l' hp hr
  | ok a => exact hok h' a l' hp hr

/-- An operation whose reply is a value or an exception. -/
theorem Sat.invoke {e : E} {f : R e → Except ε α} {g : α → Body E R ε L β} (hg : G h e)
    (herr : ∀ r x, A h ⟨e, r⟩ → f r = .error x → Q (h ++ [⟨e, r⟩]) (.error x) l)
    (hok : ∀ r a, A h ⟨e, r⟩ → f r = .ok a → (g a).Sat A G Q (h ++ [⟨e, r⟩]) l) :
    Sat A G Q (invoke e f >>= g) h l := by
  rw [sat_bind, sat_invoke]
  refine ⟨hg, fun r hr ↦ ?_⟩
  cases hf : f r with
  | error x => exact herr r x hr hf
  | ok a => exact hok r a hr hf

/-- An operation that cannot fail. -/
theorem Sat.perform {e : E} {g : R e → Body E R ε L β} (hg : G h e)
    (hok : ∀ r, A h ⟨e, r⟩ → (g r).Sat A G Q (h ++ [⟨e, r⟩]) l) :
    Sat A G Q (perform e >>= g) h l := by
  rw [sat_bind, sat_perform]
  exact ⟨hg, hok⟩

/-- A pure computation that may raise. -/
theorem Sat.ofExcept {r : Except ε α} {g : α → Body E R ε L β}
    (herr : ∀ x, r = .error x → Q h (.error x) l) (hok : ∀ a, r = .ok a → (g a).Sat A G Q h l) :
    Sat A G Q (ofExcept r >>= g) h l := by
  rw [sat_bind, sat_ofExcept]
  cases r with
  | error x => exact herr x rfl
  | ok a => exact hok a rfl

/-- A raising statement. -/
theorem Sat.raiseIf {c : Prop} [Decidable c] {e : ε} {g : Unit → Body E R ε L β}
    (hraise : c → Q h (.error e) l) (hpass : ¬ c → (g ()).Sat A G Q h l) :
    Sat A G Q (raiseIf c e >>= g) h l :=
  sat_raiseIf_bind.mpr ⟨hraise, hpass⟩

/-- An assignment. -/
theorem Sat.assign {f : L → L} {g : Unit → Body E R ε L β} (hok : (g ()).Sat A G Q h (f l)) :
    Sat A G Q (assign f >>= g) h l := by
  rw [sat_bind, sat_assign]
  exact hok

/-- A reading of the local variables. -/
theorem Sat.locals {g : L → Body E R ε L β} (hok : (g l).Sat A G Q h l) :
    Sat A G Q (locals >>= g) h l := by
  rw [sat_bind, sat_locals]
  exact hok

/-- A function applied to the result. -/
theorem Sat.map {f : α → β} {x : Body E R ε L α}
    (hx : x.Sat A G (fun h' r l' ↦ Q h' (r.map f) l') h l) : Sat A G Q (f <$> x) h l := by
  change Sat A G Q (x >>= fun a ↦ Pure.pure (f a)) h l
  rw [sat_bind]
  apply hx.mono
  intro h' r l' hr
  cases r with
  | error e => exact hr
  | ok a => exact hr

/-- A `try` block: the code after it is correct however the block ended. -/
theorem Sat.attempt {Q' : List (Event E R) → Except ε α → L' → Prop} {x : Body E R ε L' α}
    {l₀ : L'} {g : Except ε α × L' → Body E R ε L β} (hx : x.Sat A G Q' h l₀)
    (hok : ∀ h' r l', h <+: h' → Q' h' r l' → (g (r, l')).Sat A G Q h' l) :
    Sat A G Q (attempt x l₀ >>= g) h l := by
  rw [sat_bind, sat_attempt]
  apply (Prog.Sat.extend hx).mono
  rintro h' ⟨r, l'⟩ ⟨hp, hr⟩
  exact hok h' r l' hp hr

end Rules

/-! ### The operations of a body -/

section Issues

variable (P : E → Prop)

/-- Whatever it is answered, a body issues only operations of `P`. -/
def Issues (x : Body E R ε L α) : Prop :=
  ∀ A h l, x.Sat A (fun _ e ↦ P e) (fun _ _ _ ↦ True) h l

variable {P}

/-- A pure result issues nothing. -/
theorem Issues.pure (a : α) : Issues P (Pure.pure a : Body E R ε L α) := fun _ _ _ ↦ trivial

/-- A pure computation issues nothing. -/
theorem Issues.ofExcept (r : Except ε α) : Issues P (ofExcept r : Body E R ε L α) := by
  intro A h l
  rw [sat_ofExcept]
  trivial

/-- A raising statement issues nothing. -/
theorem Issues.raiseIf (c : Prop) [Decidable c] (e : ε) :
    Issues P (raiseIf c e : Body E R ε L Unit) := Issues.ofExcept _

/-- An assignment issues nothing. -/
theorem Issues.assign (f : L → L) : Issues P (assign f : Body E R ε L Unit) :=
  fun _ _ _ ↦ trivial

/-- Reading the local variables issues nothing. -/
theorem Issues.locals : Issues P (locals : Body E R ε L L) := fun _ _ _ ↦ trivial

/-- An invoked operation is issued. -/
theorem Issues.invoke {e : E} (he : P e) (f : R e → Except ε α) :
    Issues P (invoke e f : Body E R ε L α) := fun _ _ _ ↦ ⟨he, fun _ _ ↦ trivial⟩

/-- A performed operation is issued. -/
theorem Issues.perform {e : E} (he : P e) : Issues P (perform e : Body E R ε L (R e)) :=
  fun _ _ _ ↦ ⟨he, fun _ _ ↦ trivial⟩

/-- A body that issues fewer operations. -/
theorem Issues.mono {P' : E → Prop} {x : Body E R ε L α} (hx : Issues P x)
    (h : ∀ e, P e → P' e) : Issues P' x := by
  intro A h₀ l
  exact (hx A h₀ l).weaken fun _ e he ↦ h e he

/-- A composition issues what its parts issue. -/
theorem Issues.bind {x : Body E R ε L α} {f : α → Body E R ε L β} (hx : Issues P x)
    (hf : ∀ a, Issues P (f a)) : Issues P (x >>= f) := by
  intro A h l
  apply Sat.bind (hx A h l)
  · intro _ _ _ _ _
    trivial
  · intro h' a l' _ _
    exact hf a A h' l'

/-- A `try` block issues what its body issues. -/
theorem Issues.attempt {x : Body E R ε L' α} (l' : L') (hx : Issues P x) :
    Issues P (attempt x l' : Body E R ε L _) := by
  intro A h l
  rw [sat_attempt]
  exact hx A h l'

end Issues

/-! ### The exceptions of a body -/

section Raises

variable (A) (P : ε → Prop)

/-- While replies satisfy `A`, a body raises only exceptions of `P`. -/
def Raises (x : Body E R ε L α) : Prop :=
  ∀ h l, x.Sat A (fun _ _ ↦ True) (fun _ r _ ↦ ∀ e, r = .error e → P e) h l

variable {A P}

/-- A pure result raises nothing. -/
theorem Raises.pure (a : α) : Raises A P (Pure.pure a : Body E R ε L α) := by
  intro h l e he
  cases he

/-- A pure computation raises its own exception. -/
theorem Raises.ofExcept {r : Except ε α} (hr : ∀ e, r = .error e → P e) :
    Raises A P (ofExcept r : Body E R ε L α) := by
  intro h l
  rw [sat_ofExcept]
  exact hr

/-- A raising statement raises its exception. -/
theorem Raises.raiseIf {c : Prop} [Decidable c] {e : ε} (he : P e) :
    Raises A P (raiseIf c e : Body E R ε L Unit) := by
  apply Raises.ofExcept
  intro e' he'
  rw [(raiseIf_eq_error.mp he').2]
  exact he

/-- An assignment raises nothing. -/
theorem Raises.assign (f : L → L) : Raises A P (assign f : Body E R ε L Unit) := by
  intro h l e he
  cases he

/-- An operation raises what its reply is read as. -/
theorem Raises.invoke {e : E} {f : R e → Except ε α}
    (hf : ∀ h r x, A h ⟨e, r⟩ → f r = .error x → P x) :
    Raises A P (invoke e f : Body E R ε L α) := by
  intro h l
  rw [sat_invoke]
  exact ⟨trivial, fun r hr x hx ↦ hf h r x hr hx⟩

/-- A composition raises what its parts raise. -/
theorem Raises.bind {x : Body E R ε L α} {f : α → Body E R ε L β} (hx : Raises A P x)
    (hf : ∀ a, Raises A P (f a)) : Raises A P (x >>= f) := by
  intro h l
  apply Sat.bind (hx h l)
  · intro h' e l' _ hr e' he'
    cases he'
    exact hr e rfl
  · intro h' a l' _ _
    exact hf a h' l'

/-- More exceptions may be allowed. -/
theorem Raises.mono {P' : ε → Prop} {x : Body E R ε L α} (hx : Raises A P x)
    (hp : ∀ e, P e → P' e) : Raises A P' x := by
  intro h l
  apply (hx h l).mono
  intro h' r l' hr e he
  exact hp e (hr e he)

end Raises

/-! ### The local variables of a body -/

section Preserves

variable (P : L → Prop)

/-- Whatever it is answered, a body keeps a condition on its local variables. -/
def Preserves (x : Body E R ε L α) : Prop :=
  ∀ A h l, P l → x.Sat A (fun _ _ ↦ True) (fun _ _ l' ↦ P l') h l

variable {P}

/-- A pure result keeps the local variables. -/
theorem Preserves.pure (a : α) : Preserves P (Pure.pure a : Body E R ε L α) := fun _ _ _ hl ↦ hl

/-- A pure computation keeps the local variables. -/
theorem Preserves.ofExcept (r : Except ε α) : Preserves P (ofExcept r : Body E R ε L α) := by
  intro A h l hl
  rw [sat_ofExcept]
  exact hl

/-- A raising statement keeps the local variables. -/
theorem Preserves.raiseIf (c : Prop) [Decidable c] (e : ε) :
    Preserves P (raiseIf c e : Body E R ε L Unit) := Preserves.ofExcept _

/-- An operation keeps the local variables. -/
theorem Preserves.invoke (e : E) (f : R e → Except ε α) :
    Preserves P (invoke e f : Body E R ε L α) := fun _ _ _ hl ↦ ⟨trivial, fun _ _ ↦ hl⟩

/-- An assignment keeps what the assigned values satisfy. -/
theorem Preserves.assign {f : L → L} (hf : ∀ l, P l → P (f l)) :
    Preserves P (assign f : Body E R ε L Unit) := fun _ _ l hl ↦ hf l hl

/-- A composition keeps what its parts keep. -/
theorem Preserves.bind {x : Body E R ε L α} {f : α → Body E R ε L β} (hx : Preserves P x)
    (hf : ∀ a, Preserves P (f a)) : Preserves P (x >>= f) := by
  intro A h l hl
  apply Sat.bind (hx A h l hl)
  · intro h' e l' _ hl'
    exact hl'
  · intro h' a l' _ hl'
    exact hf a A h' l' hl'

end Preserves

/-- A call's program is correct when its body is. -/
theorem sat_prog {x : Body E R ε Unit α} {Q : List (Event E R) → Except ε α → Prop} :
    x.prog.Sat A G Q h ↔ x.Sat A G (fun h' r _ ↦ Q h' r) h () := by
  unfold prog
  rw [Prog.sat_bind]
  rfl

end Body
end Atcap.Base
