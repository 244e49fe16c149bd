import Atcap.System.Redemptions

/-!
# Who inserted a redemption

Every redemption row of a run was inserted by a spend of its own thread, after every check of that
redemption had been answered.
-/

namespace Atcap

open Base System InventoryApplication

namespace Deployment

variable {D : Deployment} {w : World} {tr : D.Trace} {t : Nat}

/-- Only a spend adds a redemption row. -/
theorem Effect.redemption_added {db db' : Store} {l : D.system.Label} (h : D.Effect db l db')
    {row : RedemptionRow}
    (hr : row ∈ db'.credentialRedemptions.rows.drop db.credentialRedemptions.rows.length) :
    ∃ t a x r, l = .act t (.spend a) x r ∧ row.credentialId = a.context.credentialId := by
  cases h with
  | unchanged l => simp at hr
  | brokerStored htable heq => simp at hr
  | brokerConsumed hclock hrow => simp [Store.consumeBroker] at hr
  | resourceStored htable heq => simp at hr
  | @spent t a x r row' now hclock hrow =>
    rw [rows_redemptions_spend] at hr
    split at hr
    · simp at hr
    · rw [List.drop_left, List.mem_singleton] at hr
      refine ⟨t, a, x, r, rfl, ?_⟩
      rw [hr]
      rfl

/-- An insertion is a spend of its own thread. -/
theorem spend_of_insertion {row : RedemptionRow} (hm : (t, row) ∈ D.insertions w tr) :
    ∃ pre post a x r, tr = pre ++ .act t (.spend a) x r :: post ∧
      row.credentialId = a.context.credentialId := by
  induction tr generalizing w with
  | nil => cases hm
  | cons l rest ih =>
    rw [insertions, List.mem_append] at hm
    rcases hm with hm | hm
    · cases l with
      | start t' c => cases hm
      | finish t' a => cases hm
      | crash i => cases hm
      | act t' e x r =>
        obtain ⟨row', hrow, heq⟩ := List.mem_map.mp hm
        obtain ⟨rfl, rfl⟩ := Prod.mk.inj heq
        obtain ⟨t'', a, x', r', hl, hid⟩ := (effect_next w (.act t' e x r)).redemption_added hrow
        cases hl
        exact ⟨[], rest, a, _, _, rfl, hid⟩
    · obtain ⟨pre, post, a, x, r, rfl, hid⟩ := ih hm
      exact ⟨l :: pre, post, a, x, r, rfl, hid⟩

/-- Whoever inserted a redemption had passed every check with that credential. -/
theorem checked_of_insertion {s : Config Op Op.Reply World Call (Except Exn Answer)}
    (h : D.system.Run w tr s) {row : RedemptionRow} (hm : (t, row) ∈ D.insertions w tr) :
    ∃ c i request p, Label.start t c ∈ tr ∧ D.redemption? c = some (i, request) ∧
      Presentation.Checked D.lib (D.app i) request p (D.history t tr) ∧
      p.credential.credentialId = row.credentialId ∧
      carried (D.history t tr) = some row.credentialId := by
  obtain ⟨pre, post, a, x, r, he, hid⟩ := spend_of_insertion hm
  obtain ⟨c, hc, hg⟩ := h.guarantee_at (A := fun _ _ _ ↦ True) body_sat he
  obtain ⟨i, request, hr, p, rfl, -, hchecked⟩ := guarantee_spend (hg fun _ _ _ _ ↦ trivial)
  have hprefix : System.own D.system t pre <+: D.history t tr := by
    rw [history, own_split he]
    exact List.prefix_append _ _
  have hstart : Label.start t c ∈ tr := by
    rw [he]
    exact List.mem_append_left _ hc
  have hfull := hchecked.mono hprefix.subset
  refine ⟨c, i, request, p, hstart, hr, hfull, hid.symm, ?_⟩
  rw [carried_eq h hstart (by rw [hr]; rfl) hfull.credential.parsed, hid]
  rfl

end Deployment
end Atcap
