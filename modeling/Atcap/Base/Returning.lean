import Atcap.Base.Program

/-!
# What a body returns

Library `Base`. Most specifications promise something of a value that is returned and nothing of an
exception. `Body.Returns` is that half of the program logic of `Base.Program`: along a sequence of
statements only the case where the statement passed goes on.
-/

namespace Atcap.Base.Body

variable {E : Type} {R : E → Type} {ε L L' α β : Type}
  (A : List (Event E R) → Event E R → Prop) (G : List (Event E R) → E → Prop)

/-- While replies satisfy `A`, every operation satisfies `G`, and a returned value satisfies `P`
with the complete history. -/
def Returns (P : List (Event E R) → α → Prop) (x : Body E R ε L α) (h : List (Event E R)) (l : L) :
    Prop :=
  x.Sat A G (fun h' r _ ↦ ∀ a, r = .ok a → P h' a) h l

variable {A G} {P : List (Event E R) → α → Prop} {Q : List (Event E R) → β → Prop}
  {h : List (Event E R)} {l : L}

/-- A weaker promise. -/
theorem Returns.mono {P' : List (Event E R) → α → Prop} {x : Body E R ε L α}
    (hx : Returns A G P x h l) (hp : ∀ h a, P h a → P' h a) : Returns A G P' x h l := by
  apply Sat.mono hx
  intro h' r l' hr a ha
  exact hp h' a (hr a ha)

/-- A weaker guarantee. -/
theorem Returns.weaken {G' : List (Event E R) → E → Prop} {x : Body E R ε L α}
    (hx : Returns A G P x h l) (hg : ∀ h e, G h e → G' h e) : Returns A G' P x h l :=
  Sat.weaken hx hg

/-- The returned history extends the one before. -/
theorem Returns.extend {x : Body E R ε L α} (hx : Returns A G P x h l) :
    Returns A G (fun h' a ↦ h <+: h' ∧ P h' a) x h l := by
  apply (Prog.Sat.extend hx).mono
  rintro h' ⟨r, l'⟩ ⟨hpre, hr⟩ a ha
  exact ⟨hpre, hr a ha⟩

/-- Every operation is issued after a history that extends the one before. -/
theorem Returns.within {x : Body E R ε L α} (hx : Returns A G P x h l) :
    Returns A (fun h' e ↦ h <+: h' ∧ G h' e) P x h l := by
  have hprog : ∀ {γ : Type} {Q : List (Event E R) → γ → Prop} (p : Prog E R γ) {h₀ h₁},
      h₀ <+: h₁ → p.Sat A G Q h₁ → p.Sat A (fun h' e ↦ h₀ <+: h' ∧ G h' e) Q h₁ := by
    intro γ Q p
    induction p with
    | done a => exact fun _ hp ↦ hp
    | call e k ih =>
      exact fun hpre hp ↦
        ⟨⟨hpre, hp.1⟩, fun r hr ↦ ih r (hpre.trans (List.prefix_append _ _)) (hp.2 r hr)⟩
  exact hprog _ List.prefix_rfl hx

/-- A pure result. -/
theorem Returns.pure {a : α} (ha : P h a) : Returns A G P (Pure.pure a : Body E R ε L α) h l := by
  rintro a' ⟨⟩
  exact ha

/-- An exception returns nothing. -/
theorem Returns.raise {e : ε} : Returns A G P (Body.raise e : Body E R ε L α) h l := by
  intro a ha
  cases ha

/-- A pure computation that may raise. -/
theorem Returns.compute {r : Except ε α} (hr : ∀ a, r = .ok a → P h a) :
    Returns A G P (Body.ofExcept r : Body E R ε L α) h l := by
  rw [Returns, sat_ofExcept]
  exact hr

/-- A last raising statement. -/
theorem Returns.check {c : Prop} [Decidable c] {e : ε} {P : List (Event E R) → Unit → Prop}
    (hc : ¬ c → P h ()) : Returns A G P (Body.raiseIf c e : Body E R ε L Unit) h l := by
  apply Returns.compute
  intro u hu
  exact hc (raiseIf_eq_ok.mp hu)

/-- A last operation. -/
theorem Returns.last {e : E} {f : R e → Except ε α} (hg : G h e)
    (hf : ∀ r a, A h ⟨e, r⟩ → f r = .ok a → P (h ++ [⟨e, r⟩]) a) :
    Returns A G P (Body.invoke e f : Body E R ε L α) h l := by
  rw [Returns, sat_invoke]
  exact ⟨hg, fun r hr a ha ↦ hf r a hr ha⟩

/-- Statements in sequence. -/
theorem Returns.bind {x : Body E R ε L α} {f : α → Body E R ε L β} (hx : Returns A G P x h l)
    (hf : ∀ h' a l', h <+: h' → P h' a → Returns A G Q (f a) h' l') :
    Returns A G Q (x >>= f) h l := by
  apply Sat.bind hx
  · intro h' e l' _ _ a ha
    cases ha
  · intro h' a l' hpre ha
    exact hf h' a l' hpre (ha a rfl)

/-- A pure computation, then the rest. -/
theorem Returns.ofExcept {r : Except ε α} {g : α → Body E R ε L β}
    (hg : ∀ a, r = .ok a → Returns A G Q (g a) h l) :
    Returns A G Q (Body.ofExcept r >>= g) h l := by
  apply Sat.ofExcept
  · intro e _ a ha
    cases ha
  · exact hg

/-- A raising statement, then the rest. -/
theorem Returns.raiseIf {c : Prop} [Decidable c] {e : ε} {g : Unit → Body E R ε L β}
    (hg : ¬ c → Returns A G Q (g ()) h l) : Returns A G Q (Body.raiseIf c e >>= g) h l := by
  apply Sat.raiseIf
  · intro _ a ha
    cases ha
  · exact hg

/-- An operation, then the rest. -/
theorem Returns.invoke {e : E} {f : R e → Except ε α} {g : α → Body E R ε L β} (hg : G h e)
    (hf : ∀ r a, A h ⟨e, r⟩ → f r = .ok a → Returns A G Q (g a) (h ++ [⟨e, r⟩]) l) :
    Returns A G Q (Body.invoke e f >>= g) h l := by
  apply Sat.invoke hg
  · intro r x _ _ a ha
    cases ha
  · exact hf

/-- An operation that cannot fail, then the rest. -/
theorem Returns.perform {e : E} {g : R e → Body E R ε L β} (hg : G h e)
    (hf : ∀ r, A h ⟨e, r⟩ → Returns A G Q (g r) (h ++ [⟨e, r⟩]) l) :
    Returns A G Q (Body.perform e >>= g) h l :=
  Sat.perform hg hf

/-- An assignment, then the rest. -/
theorem Returns.assign {f : L → L} {g : Unit → Body E R ε L β}
    (hg : Returns A G Q (g ()) h (f l)) : Returns A G Q (Body.assign f >>= g) h l :=
  Sat.assign hg

/-- The local variables, then the rest. -/
theorem Returns.locals {g : L → Body E R ε L β} (hg : Returns A G Q (g l) h l) :
    Returns A G Q (Body.locals >>= g) h l :=
  Sat.locals hg

/-- A `try` block, then the rest. -/
theorem Returns.attempt {S : List (Event E R) → Except ε α → L' → Prop} {x : Body E R ε L' α}
    {l₀ : L'} {g : Except ε α × L' → Body E R ε L β} (hx : x.Sat A G S h l₀)
    (hg : ∀ h' r l', h <+: h' → S h' r l' → Returns A G Q (g (r, l')) h' l) :
    Returns A G Q (Body.attempt x l₀ >>= g) h l :=
  Sat.attempt hx hg

/-- A function applied to the result. -/
theorem Returns.map {f : α → β} {x : Body E R ε L α}
    (hx : Returns A G (fun h' a ↦ Q h' (f a)) x h l) : Returns A G Q (f <$> x) h l := by
  apply Sat.map
  apply Sat.mono hx
  intro h' r l' hr b hb
  cases r with
  | error e => cases hb
  | ok a =>
    cases hb
    exact hr a rfl

end Atcap.Base.Body
