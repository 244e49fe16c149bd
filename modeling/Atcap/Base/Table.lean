import Mathlib.Data.List.Nodup
import Mathlib.Data.List.Count
import Mathlib.Data.List.Perm.Subperm

/-!
# Tables with a primary key

Library `Base`. A table is a list of rows in insertion order whose keys are pairwise
distinct. The operations are the statements an SQL store is built from: `INSERT`,
`INSERT OR IGNORE`, a keyed `SELECT` and a keyed conditional `UPDATE`, the last three
with the row count the statement reports.
-/

namespace Atcap.Base

/-! ### Lists under a key -/

/-- A key selects its one element. -/
theorem filter_key_eq_singleton {α κ : Type} [DecidableEq κ] {f : α → κ} {l : List α}
    {a : α} (hn : (l.map f).Nodup) (ha : a ∈ l) :
    l.filter (fun b ↦ decide (f b = f a)) = [a] := by
  induction l with
  | nil => cases ha
  | cons b rest ih =>
    rw [List.map_cons, List.nodup_cons] at hn
    rcases List.mem_cons.mp ha with rfl | hrest
    · have hnone : rest.filter (fun b ↦ decide (f b = f a)) = [] := by
        rw [List.filter_eq_nil_iff]
        intro b hb heq
        exact hn.1 (List.mem_map.mpr ⟨b, hb, of_decide_eq_true heq⟩)
      rw [List.filter_cons_of_pos (by simp), hnone]
    · have hne : ¬ f b = f a := by
        intro heq
        exact hn.1 (heq ▸ List.mem_map_of_mem hrest)
      rw [List.filter_cons_of_neg (by simpa using hne), ih hn.2 hrest]

/-- A property of at most one element of a duplicate-free list counts at most once. -/
theorem countP_le_one {α : Type} {l : List α} {q : α → Bool} (hn : l.Nodup)
    (hu : ∀ a ∈ l, ∀ b ∈ l, q a = true → q b = true → a = b) : l.countP q ≤ 1 := by
  rw [List.countP_eq_length_filter]
  by_contra hlen
  obtain ⟨a, b, rest, hf⟩ : ∃ a b rest, l.filter q = a :: b :: rest := by
    match hf : l.filter q with
    | [] => simp [hf] at hlen
    | [a] => simp [hf] at hlen
    | a :: b :: rest => exact ⟨a, b, rest, rfl⟩
  have ha : a ∈ l.filter q := by simp [hf]
  have hb : b ∈ l.filter q := by simp [hf]
  rw [List.mem_filter] at ha hb
  have hfn := hn.filter q
  rw [hf, hu a ha.1 b hb.1 ha.2 hb.2] at hfn
  simp at hfn

/-- A duplicate-free list is no longer than a list that has an element of its own for each. -/
theorem length_le_of_rel {α β : Type} {l : List α} {m : List β} {R : α → β → Prop} (hn : l.Nodup)
    (hr : ∀ a ∈ l, ∃ b ∈ m, R a b) (hu : ∀ a a' b, R a b → R a' b → a = a') :
    l.length ≤ m.length := by
  choose f hmem hrel using hr
  have hnodup : (l.attach.map fun a ↦ f a.1 a.2).Nodup := by
    apply (List.nodup_attach.mpr hn).map_on
    rintro ⟨a, ha⟩ _ ⟨a', ha'⟩ _ he
    have hrel' := hrel a' ha'
    dsimp only at he
    rw [← he] at hrel'
    exact Subtype.ext (hu a a' _ (hrel a ha) hrel')
  have hsub : l.attach.map (fun a ↦ f a.1 a.2) ⊆ m := by
    intro b hb
    obtain ⟨⟨a, ha⟩, _, rfl⟩ := List.mem_map.mp hb
    exact hmem a ha
  have hle := (hnodup.subperm hsub).length_le
  rwa [List.length_map, List.length_attach] at hle

/-- A pair of a list with distinct keys is found by its key. -/
theorem lookup_of_mem {κ α : Type} [BEq κ] [LawfulBEq κ] {l : List (κ × α)} {k : κ} {a : α}
    (hn : (l.map Prod.fst).Nodup) (h : (k, a) ∈ l) : l.lookup k = some a := by
  induction l with
  | nil => cases h
  | cons p rest ih =>
    obtain ⟨k', a'⟩ := p
    rw [List.map_cons, List.nodup_cons] at hn
    rcases List.mem_cons.mp h with heq | hrest
    · cases heq
      exact List.lookup_cons_self
    · have hne : (k == k') = false := by
        rw [beq_eq_false_iff_ne]
        rintro rfl
        exact hn.1 (List.mem_map.mpr ⟨(k, a), hrest, rfl⟩)
      rw [List.lookup_cons, hne]
      exact ih hn.2 hrest

/-- A pair that is found is in the list. -/
theorem mem_of_lookup {κ α : Type} [BEq κ] [LawfulBEq κ] {l : List (κ × α)} {k : κ} {a : α}
    (h : l.lookup k = some a) : (k, a) ∈ l := by
  obtain ⟨before, after, rfl, -⟩ := List.lookup_eq_some_iff.mp h
  exact List.mem_append_right _ List.mem_cons_self

/-- Two lists with distinct keys have the same pairs when one has no other keys and finds every
pair of the other. -/
theorem perm_of_lookup {κ α : Type} [BEq κ] [LawfulBEq κ] {l l' : List (κ × α)}
    (hn : (l.map Prod.fst).Nodup) (hn' : (l'.map Prod.fst).Nodup)
    (hkeys : ∀ p ∈ l, p.1 ∈ l'.map Prod.fst) (h : ∀ p ∈ l', l.lookup p.1 = some p.2) :
    l.Perm l' := by
  rw [List.perm_ext_iff_of_nodup hn.of_map hn'.of_map]
  intro p
  constructor
  · intro hp
    obtain ⟨q, hq, hkey⟩ := List.mem_map.mp (hkeys p hp)
    have hvalue := h q hq
    rw [hkey, lookup_of_mem hn hp, Option.some.injEq] at hvalue
    rw [show p = q from Prod.ext hkey.symm hvalue]
    exact hq
  · intro hp
    exact mem_of_lookup (h p hp)

/-- Two lists of the same pairs whose distinct keys are in the same order are equal. -/
theorem eq_of_perm_of_keys {κ α : Type} {m m' : List (κ × α)} (hn : (m.map Prod.fst).Nodup)
    (hk : m.map Prod.fst = m'.map Prod.fst) (hp : m.Perm m') : m = m' := by
  induction m generalizing m' with
  | nil => exact hp.nil_eq
  | cons p rest ih =>
    cases m' with
    | nil => cases hk
    | cons p' rest' =>
      simp only [List.map_cons, List.cons.injEq] at hk
      rw [List.map_cons, List.nodup_cons] at hn
      have hmem : p ∈ p' :: rest' := hp.subset List.mem_cons_self
      have hhead : p = p' := by
        rcases List.mem_cons.mp hmem with hhead | htail
        · exact hhead
        · have hkey := List.mem_map_of_mem (f := Prod.fst) htail
          rw [← hk.2] at hkey
          exact absurd hkey hn.1
      subst hhead
      rw [ih hn.2 hk.2 hp.cons_inv]

/-- The three outcomes of an optional flag partition a list. -/
theorem countP_flag {α : Type} (l : List α) (f : α → Option Bool) :
    l.countP (fun a ↦ decide (f a = some true)) + l.countP (fun a ↦ decide (f a = some false)) =
      (l.filter fun a ↦ (f a).isSome).length ∧
    l.countP (fun a ↦ decide (f a = none)) + (l.filter fun a ↦ (f a).isSome).length =
      l.length := by
  induction l with
  | nil => exact ⟨rfl, rfl⟩
  | cons a rest ih =>
    obtain ⟨hsome, hnone⟩ := ih
    match hf : f a with
    | none => simp [hf]; omega
    | some true => simp [hf]; omega
    | some false => simp [hf]; omega

/-! ### Tables -/

/-- Rows in insertion order under a primary key. -/
structure Table (ρ κ : Type) (key : ρ → κ) where
  rows : List ρ
  unique : (rows.map key).Nodup

namespace Table

variable {ρ κ : Type} {key : ρ → κ}

/-- Tables are equal when their rows are. -/
@[ext] theorem ext {t u : Table ρ κ key} (h : t.rows = u.rows) : t = u := by
  cases t
  cases u
  cases h
  rfl

/-- The table without rows. -/
def empty : Table ρ κ key := ⟨[], List.nodup_nil⟩

/-- A key determines its row. -/
theorem eq_of_key_eq (t : Table ρ κ key) {a b : ρ} (ha : a ∈ t.rows) (hb : b ∈ t.rows)
    (h : key a = key b) : a = b :=
  List.inj_on_of_nodup_map t.unique ha hb h

variable [DecidableEq κ]

/-- `SELECT * WHERE key = k`. -/
def find? (t : Table ρ κ key) (k : κ) : Option ρ := t.rows.find? (fun r ↦ decide (key r = k))

/-- A selected row is the row of the table under that key. -/
theorem find?_eq_some (t : Table ρ κ key) {k : κ} {r : ρ} :
    t.find? k = some r ↔ r ∈ t.rows ∧ key r = k := by
  constructor
  · intro h
    have hk := List.find?_some h
    exact ⟨List.mem_of_find?_eq_some h, by simpa using hk⟩
  · rintro ⟨hr, hk⟩
    cases hf : t.find? k with
    | none =>
      have hn := List.find?_eq_none.mp hf r hr
      simp [hk] at hn
    | some a =>
      have ha := List.mem_of_find?_eq_some hf
      have hka : key a = k := by simpa using List.find?_some hf
      rw [t.eq_of_key_eq ha hr (hka.trans hk.symm)]

/-- An empty selection means that no row has the key. -/
theorem find?_eq_none (t : Table ρ κ key) {k : κ} :
    t.find? k = none ↔ ∀ r ∈ t.rows, key r ≠ k := by
  simp [find?, List.find?_eq_none]

private theorem nodup_snoc (t : Table ρ κ key) (r : ρ) (h : t.find? (key r) = none) :
    ((t.rows ++ [r]).map key).Nodup := by
  rw [List.map_append, List.map_cons, List.map_nil, List.nodup_append]
  refine ⟨t.unique, List.nodup_singleton _, ?_⟩
  intro k hk k' hk' he
  rw [List.mem_singleton] at hk'
  obtain ⟨a, ha, hak⟩ := List.mem_map.mp hk
  exact (t.find?_eq_none.mp h) a ha (by rw [hak, he, hk'])

/-- `INSERT`: undefined on a key already present, where the statement fails. -/
def insert? (t : Table ρ κ key) (r : ρ) : Option (Table ρ κ key) :=
  if h : t.find? (key r) = none then some ⟨t.rows ++ [r], nodup_snoc t r h⟩ else none

/-- `INSERT OR IGNORE`, with the number of inserted rows. -/
def insertOrIgnore (t : Table ρ κ key) (r : ρ) : Table ρ κ key × Nat :=
  match t.insert? r with
  | some u => (u, 1)
  | none => (t, 0)

/-- A successful insertion appends the row and found its key free. -/
theorem insert?_eq_some {t u : Table ρ κ key} {r : ρ} (h : t.insert? r = some u) :
    t.find? (key r) = none ∧ u.rows = t.rows ++ [r] := by
  unfold insert? at h
  split at h
  · next hn =>
    cases h
    exact ⟨hn, rfl⟩
  · cases h

/-- Insertion under a free key succeeds. -/
theorem insert?_of_free {t : Table ρ κ key} {r : ρ} (h : t.find? (key r) = none) :
    ∃ u, t.insert? r = some u ∧ u.rows = t.rows ++ [r] := by
  unfold insert?
  rw [dif_pos h]
  exact ⟨_, rfl, rfl⟩

/-- An insertion either appends the row under a free key, or leaves the table as it is. -/
theorem insertOrIgnore_cases (t : Table ρ κ key) (r : ρ) :
    (t.find? (key r) = none ∧ (t.insertOrIgnore r).2 = 1 ∧
      (t.insertOrIgnore r).1.rows = t.rows ++ [r]) ∨
    ((∃ a ∈ t.rows, key a = key r) ∧ t.insertOrIgnore r = (t, 0)) := by
  unfold insertOrIgnore
  cases h : t.insert? r with
  | some u =>
    obtain ⟨hn, hu⟩ := insert?_eq_some h
    exact .inl ⟨hn, rfl, hu⟩
  | none =>
    right
    refine ⟨?_, rfl⟩
    cases hf : t.find? (key r) with
    | some a => exact ⟨a, t.find?_eq_some.mp hf⟩
    | none =>
      obtain ⟨u, hu, _⟩ := insert?_of_free hf
      rw [h] at hu
      cases hu

variable (f : ρ → ρ) (hf : ∀ r, key (f r) = key r)

/-- `UPDATE SET f WHERE key = k AND p`, with the number of matched rows. -/
def updateWhere (t : Table ρ κ key) (k : κ) (p : ρ → Bool) : Table ρ κ key × Nat :=
  (⟨t.rows.map (fun r ↦ if key r = k ∧ p r then f r else r), by
      rw [List.map_map]
      have h : (key ∘ fun r ↦ if key r = k ∧ p r then f r else r) = key := by
        funext r
        simp only [Function.comp_apply]
        split
        · exact hf r
        · rfl
      rw [h]
      exact t.unique⟩,
    t.rows.countP (fun r ↦ decide (key r = k) && p r))

/-- A keyed update keeps the keys. -/
theorem keys_updateWhere (t : Table ρ κ key) (k : κ) (p : ρ → Bool) :
    (t.updateWhere f hf k p).1.rows.map key = t.rows.map key := by
  simp only [updateWhere, List.map_map]
  apply List.map_congr_left
  intro r _
  rw [Function.comp_apply]
  split
  · exact hf r
  · rfl

/-- A keyed update of a row that meets the condition matches exactly that row. -/
theorem updateWhere_count {t : Table ρ κ key} {k : κ} {p : ρ → Bool} {r : ρ}
    (h : t.find? k = some r) (hp : p r = true) : (t.updateWhere f hf k p).2 = 1 := by
  obtain ⟨hr, hk⟩ := t.find?_eq_some.mp h
  obtain ⟨pre, post, hs⟩ := List.append_of_mem hr
  have hu := t.unique
  simp only [updateWhere]
  rw [hs] at hu ⊢
  rw [List.map_append, List.map_cons, List.nodup_append] at hu
  obtain ⟨_, hpost, hdisj⟩ := hu
  have hpre0 : pre.countP (fun r ↦ decide (key r = k) && p r) = 0 := by
    rw [List.countP_eq_zero]
    intro a ha
    have hne := hdisj (key a) (List.mem_map_of_mem ha) (key r) (by simp)
    rw [hk] at hne
    simp [hne]
  have hpost0 : post.countP (fun r ↦ decide (key r = k) && p r) = 0 := by
    rw [List.countP_eq_zero]
    intro a ha
    have hne : key a ≠ key r := by
      intro he
      exact (List.nodup_cons.mp hpost).1 (he ▸ List.mem_map_of_mem ha)
    rw [hk] at hne
    simp [hne]
  rw [List.countP_append, List.countP_cons, hpre0, hpost0]
  simp [hk, hp]

/-- The rows after a keyed update. -/
theorem mem_updateWhere {t : Table ρ κ key} {k : κ} {p : ρ → Bool} {a : ρ} :
    a ∈ (t.updateWhere f hf k p).1.rows ↔
      ∃ r ∈ t.rows, a = if key r = k ∧ p r then f r else r := by
  simp only [updateWhere, List.mem_map]
  constructor
  · rintro ⟨r, hr, rfl⟩
    exact ⟨r, hr, rfl⟩
  · rintro ⟨r, hr, rfl⟩
    exact ⟨r, hr, rfl⟩

/-- Selection after a keyed update. -/
theorem find?_updateWhere {t : Table ρ κ key} {k k' : κ} {p : ρ → Bool} :
    (t.updateWhere f hf k p).1.find? k' =
      (t.find? k').map (fun r ↦ if k' = k ∧ p r then f r else r) := by
  cases h : t.find? k' with
  | none =>
    rw [Option.map_none, find?_eq_none]
    intro a ha
    obtain ⟨r, hr, rfl⟩ := (mem_updateWhere f hf).mp ha
    have hne := t.find?_eq_none.mp h r hr
    split
    · rw [hf]; exact hne
    · exact hne
  | some r =>
    obtain ⟨hr, hk⟩ := t.find?_eq_some.mp h
    rw [Option.map_some, find?_eq_some]
    refine ⟨(mem_updateWhere f hf).mpr ⟨r, hr, by rw [hk]⟩, ?_⟩
    split
    · rw [hf, hk]
    · exact hk

end Table
end Atcap.Base
