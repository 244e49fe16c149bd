import Atcap.Challenge

/-!
# Kinds of operations and of histories

A call is described by what its history may hold before each operation. Most operations only
ask something; the few that change the shared state, sign or enter the handler are the ones
every result of this development is about.
-/

namespace Atcap

open Base

/-- Operations that change nothing shared, sign nothing and enter no handler. -/
def Op.isQuery : Op → Bool
  | .clock | .tokenHex _ | .lib _ | .getResourceChallenge _ | .invocationCount _ => true
  | _ => false

/-- The parser of a presented credential. -/
def Op.isParse : Op → Bool
  | .lib (.credentialFromDict _) => true
  | _ => false

/-- The transaction that consumes a challenge and spends a credential. -/
def Op.isSpend : Op → Bool
  | .spend _ => true
  | _ => false

/-- The operations of an invocation: the counter and the private handler. -/
def Op.isInvocation : Op → Bool
  | .recordInvocation _ | .inventoryLookup .. => true
  | _ => false

/-- The private handler itself. -/
def Op.entersHandler : Op → Bool
  | .inventoryLookup .. => true
  | _ => false

/-- A signature of a receipt. -/
def Op.isSign : Op → Bool
  | .sign .. => true
  | _ => false

/-- A history of queries only. -/
def Quiet (h : History) : Prop := ∀ ev ∈ h, ev.op.isQuery = true

/-- A history of queries and spends: no invocation and no signature. -/
def Unserved (h : History) : Prop := ∀ ev ∈ h, (ev.op.isQuery || ev.op.isSpend) = true

/-- The empty history is quiet. -/
theorem quiet_nil : Quiet [] := by
  intro ev hev
  cases hev

/-- A history stays quiet under one more query. -/
theorem Quiet.snoc {h : History} {ev : Event Op Op.Reply} (hq : Quiet h)
    (he : ev.op.isQuery = true) : Quiet (h ++ [ev]) := by
  intro ev' hev
  rw [List.mem_append, List.mem_singleton] at hev
  rcases hev with hev | rfl
  · exact hq ev' hev
  · exact he

/-- A quiet history is unserved. -/
theorem Quiet.unserved {h : History} (hq : Quiet h) : Unserved h := by
  intro ev hev
  rw [hq ev hev]
  rfl

/-- An unserved history holds no invocation and no signature. -/
theorem Unserved.not_served {h : History} (hu : Unserved h) {ev : Event Op Op.Reply}
    (hev : ev ∈ h) : ev.op.isInvocation = false ∧ ev.op.isSign = false := by
  have he := hu ev hev
  rcases ev with ⟨e, r⟩
  cases e with
  | sign | recordInvocation | inventoryLookup => cases he
  | clock | tokenHex | lib | storeBrokerChallenge | consumeBrokerChallenge
  | storeResourceChallenge | getResourceChallenge | spend | invocationCount => exact ⟨rfl, rfl⟩

/-- An unserved history has not entered the handler. -/
theorem Unserved.not_entered {h : History} (hu : Unserved h) :
    ∀ ev ∈ h, ev.op.entersHandler = false := by
  intro ev hev
  have he := hu ev hev
  rcases ev with ⟨e, r⟩
  cases e with
  | inventoryLookup => cases he
  | clock | tokenHex | lib | sign | storeBrokerChallenge | consumeBrokerChallenge
  | storeResourceChallenge | getResourceChallenge | spend | recordInvocation
  | invocationCount => rfl

/-- A history stays unserved under one more query or spend. -/
theorem Unserved.snoc {h : History} {ev : Event Op Op.Reply} (hu : Unserved h)
    (he : (ev.op.isQuery || ev.op.isSpend) = true) : Unserved (h ++ [ev]) := by
  intro ev' hev
  rw [List.mem_append, List.mem_singleton] at hev
  rcases hev with hev | rfl
  · exact hu ev' hev
  · exact he

/-- Two quiet parts make a quiet history. -/
theorem Quiet.append {h q : History} (hh : Quiet h) (hq : Quiet q) : Quiet (h ++ q) := by
  intro ev hev
  rcases List.mem_append.mp hev with hev | hev
  · exact hh ev hev
  · exact hq ev hev

/-- An unserved history stays unserved under queries. -/
theorem Unserved.append {h q : History} (hu : Unserved h) (hq : Quiet q) : Unserved (h ++ q) := by
  intro ev hev
  rcases List.mem_append.mp hev with hev | hev
  · exact hu ev hev
  · exact hq.unserved ev hev

/-! ### Challenge tokens -/

section Challenge

variable {L : Type} {A : History → Event Op Op.Reply → Prop} {G : History → Op → Prop}
  {h : History} {l : L}

/-- What a history shows of a token issued at a time. -/
def TokenIssued (secret : Bytes) (now ttl : Int) (token : Text) (expiry : Int) (h : History) :
    Prop :=
  expiry = now + ttl ∧ 0 ≤ now ∧ expiry.natAbs < 10 ^ maxStrDigits ∧
    ∃ randomHex, token = challengeToken secret expiry randomHex ∧
    ⟨.tokenHex 16, randomHex⟩ ∈ h ∧ ⟨.lib (.verifyChallenge secret token now), .ok ()⟩ ∈ h

/-- A longer history keeps an issued token. -/
theorem TokenIssued.mono {secret : Bytes} {now ttl expiry : Int} {token : Text} {h h' : History}
    (hi : TokenIssued secret now ttl token expiry h) (hs : h ⊆ h') :
    TokenIssued secret now ttl token expiry h' := by
  obtain ⟨hexpiry, hnow, hdigits, randomHex, htoken, hrandom, hverify⟩ := hi
  exact ⟨hexpiry, hnow, hdigits, randomHex, htoken, hs hrandom, hs hverify⟩

/-- `issue_ca2a_challenge_at` asks only queries, and returns a token of its own making. -/
theorem issueCa2aChallengeAt_sat {secret : Bytes} {now ttl : Int}
    (hG : ∀ h e, e.isQuery = true → G h e) (hq : Quiet h) :
    Body.Sat A G (fun h' r l' ↦ Quiet h' ∧ l' = l ∧
      ∀ token expiry, r = .ok (token, expiry) → TokenIssued secret now ttl token expiry h')
      (issueCa2aChallengeAt secret now ttl) h l := by
  unfold issueCa2aChallengeAt callLib
  apply Body.Sat.raiseIf
  · intro _
    exact ⟨hq, rfl, nofun⟩
  intro _
  apply Body.Sat.raiseIf
  · intro _
    exact ⟨hq, rfl, nofun⟩
  intro hnow
  apply Body.Sat.perform (hG _ _ rfl)
  intro randomHex _
  apply Body.Sat.raiseIf
  · intro _
    exact ⟨hq.snoc rfl, rfl, nofun⟩
  intro hdigits
  rw [str?_eq_none_iff, not_le] at hdigits
  apply Body.Sat.invoke (hG _ _ rfl)
  · intro r x _ _
    exact ⟨(hq.snoc rfl).snoc rfl, rfl, nofun⟩
  rintro r u _ rfl
  refine ⟨(hq.snoc rfl).snoc rfl, rfl, ?_⟩
  rintro token expiry ⟨⟩
  exact ⟨rfl, by omega, hdigits, randomHex, rfl, by simp, by simp⟩

end Challenge
end Atcap
