import Atcap.Challenge.Token
import Atcap.System.Dispatch
import Atcap.System.Issuance
import Atcap.System.Permanence

/-!
# Expiries of challenges

The expiry of a challenge lives in two places: inside its token, under the code that authenticates
it, and in the row that is stored under the hash of the token. Whatever happens after a service
has returned a token, the two are the same number.
-/

namespace Atcap

open Base System InventoryApplication

/-! ### What the issuers return -/

section Issuers

variable {A : History → Event Op Op.Reply → Prop} {lib : Libraries}

/-- `new_challenge` stores the expiry of the token that it returns under the token's hash. -/
def CapabilityBroker.TokenStored (broker : CapabilityBroker) (token : Text) (h : History) : Prop :=
  ∃ tokenHash issuedAt expiresAt, challengeTokenHash token = .ok tokenHash ∧
    TokenIssued broker.challengeSecret issuedAt broker.policy.challengeTtlSeconds token expiresAt
      h ∧
    ⟨.storeBrokerChallenge tokenHash issuedAt expiresAt, .ok ()⟩ ∈ h

/-- `issue_resource_challenge` stores the expiry of the challenge that it returns under the hash of
its token. -/
def InventoryApplication.TokenStored (app : InventoryApplication) (challenge : ResourceChallenge)
    (h : History) : Prop :=
  ∃ tokenHash issuedAt, challengeTokenHash challenge.token = .ok tokenHash ∧
    TokenIssued app.challengeSecret issuedAt app.policy.challengeTtlSeconds challenge.token
      challenge.expiresAt h ∧
    ⟨.storeResourceChallenge tokenHash challenge.context issuedAt challenge.expiresAt, .ok ()⟩ ∈ h

/-- The token of a broker is stored with the expiry it was made with. -/
theorem CapabilityBroker.newChallenge_stores {broker : CapabilityBroker} :
    Body.Sat A (fun _ _ ↦ True) (fun h' r _ ↦ ∀ token, r = .ok token → broker.TokenStored token h')
      broker.newChallenge [] () := by
  unfold CapabilityBroker.newChallenge readClock
  apply Body.Sat.invoke trivial
  · intro r x _ _
    exact nofun
  rintro r issuedAt _ rfl
  have hq : Quiet ([] ++ [⟨.clock, .ok issuedAt⟩]) := quiet_nil.snoc rfl
  apply Body.Sat.bind (issueCa2aChallengeAt_sat (fun _ _ _ ↦ trivial) hq)
  · intro _ _ _ _ _
    exact nofun
  rintro h₁ ⟨token, expiry⟩ l₁ _ ⟨_, _, hissued⟩
  apply Body.Sat.ofExcept
  · intro x _
    exact nofun
  intro tokenHash hhash
  apply Body.Sat.invoke trivial
  · intro r x _ _
    exact nofun
  rintro r u _ rfl token' ⟨⟩
  exact ⟨tokenHash, issuedAt, expiry, hhash,
    (hissued token expiry rfl).mono (List.subset_append_left _ _), by simp⟩

/-- The token of a resource challenge is stored with the expiry it was made with. -/
theorem InventoryApplication.issueResourceChallenge_keeps {app : InventoryApplication}
    {credentialId recordId : Text} {arguments : InventoryArguments} :
    Body.Sat A (fun _ _ ↦ True)
      (fun h' r _ ↦ ∀ challenge, r = .ok challenge → app.TokenStored challenge h')
      (app.issueResourceChallenge lib credentialId arguments recordId) [] () := by
  unfold InventoryApplication.issueResourceChallenge readClock
  apply Body.Sat.raiseIf
  · intro _
    exact nofun
  intro _
  apply Body.Sat.invoke trivial
  · intro r x _ _
    exact nofun
  rintro r issuedAt _ rfl
  have hq : Quiet ([] ++ [⟨.clock, .ok issuedAt⟩]) := quiet_nil.snoc rfl
  apply Body.Sat.bind (issueCa2aChallengeAt_sat (fun _ _ _ ↦ trivial) hq)
  · intro _ _ _ _ _
    exact nofun
  rintro h₁ ⟨token, expiresAt⟩ l₁ _ ⟨_, _, hissued⟩
  apply Body.Sat.ofExcept
  · intro x _
    exact nofun
  intro argumentsDigest _
  apply Body.Sat.ofExcept
  · intro x _
    exact nofun
  intro tokenHash hhash
  apply Body.Sat.invoke trivial
  · intro r x _ _
    exact nofun
  rintro r u _ rfl challenge ⟨⟩
  refine ⟨tokenHash, issuedAt, hhash,
    (hissued token expiresAt rfl).mono (List.subset_append_left _ _), ?_⟩
  exact List.mem_append_right _ (List.mem_singleton.mpr rfl)

/-- What the challenge tool returns without an error is a challenge that it stored. -/
theorem InventoryApplication.callTool_keeps {app : InventoryApplication} {i : Nat}
    {arguments : Option (List (Text × Value))} :
    Body.Sat A (fun _ _ ↦ True) (fun h' r _ ↦ ∀ result, r = .ok result → result.isError = false →
      ∃ challenge, result.structuredContent = ResourceChallenge.toDict challenge ∧
        app.TokenStored challenge h')
      (app.callTool lib i (text "inventory.challenge") arguments) [] () := by
  have htool : Body.Sat A (fun _ _ ↦ True) (fun h' r _ ↦
      (∀ e, r = .error e → isDenied e = true → ∀ ev ∈ h', inert ev = true) ∧
      ∀ result, r = .ok result → ∃ challenge,
        result.structuredContent = ResourceChallenge.toDict challenge ∧
          app.TokenStored challenge h') (app.challengeTool lib (arguments.getD [])) [] () := by
    have hkeeps : Body.Sat A (fun _ _ ↦ True) (fun h' r _ ↦ ∀ result, r = .ok result →
        ∃ challenge, result.structuredContent = ResourceChallenge.toDict challenge ∧
          app.TokenStored challenge h') (app.challengeTool lib (arguments.getD [])) [] () := by
      unfold challengeTool
      apply Body.Sat.ofExcept
      · intro x _
        exact nofun
      intro input _
      apply Body.Sat.bind issueResourceChallenge_keeps
      · intro _ _ _ _ _
        exact nofun
      · intro h' challenge l' _ hstored
        rw [Body.sat_ofExcept]
        intro result hresult
        exact ⟨challenge, (mcpResult_eq_ok hresult).1, hstored challenge rfl⟩
    have hname : text "inventory.challenge" = text "inventory.challenge" := rfl
    apply (((challengeTool_issues hname).weaken fun _ _ _ ↦ trivial).and hkeeps).mono
    intro h' r l' hr
    exact ⟨hr.1.1, hr.2⟩
  unfold callTool
  dsimp only
  rw [if_pos rfl]
  apply Body.Sat.attempt htool
  rintro h' outcome l' _ ⟨hinert, hkeeps⟩
  cases outcome with
  | ok result =>
    rintro _ ⟨⟩ _
    exact hkeeps result rfl
  | error e =>
    dsimp only
    split
    · next hd =>
      apply (denyTool_denies (fun _ _ _ ↦ trivial) (fun _ _ _ ↦ trivial) (hinert e rfl hd)).mono
      intro h'' r l'' hdenied result hresult herror
      obtain ⟨_, _, _, htrue⟩ := hdenied result hresult
      rw [htrue] at herror
      cases herror
    · exact nofun

end Issuers

/-! ### What is stored -/

namespace Deployment

variable {D : Deployment} {w : World} {tr : D.Trace}
  {s : Config Op Op.Reply World Call (Except Exn Answer)} {t : Nat}

/-- The random field of an issued token spells random bytes. -/
theorem token_of_issued (h : D.system.Run w tr s) {secret : Bytes} {now ttl expiry : Int}
    {token : Text} (hi : TokenIssued secret now ttl token expiry (D.history t tr)) :
    ∃ random : Bytes, random.length = 16 ∧ token = challengeToken secret expiry (hex random) := by
  obtain ⟨_, _, _, randomHex, rfl, hrandom, _⟩ := hi
  obtain ⟨random, hl⟩ := System.mem_own.mp hrandom
  obtain ⟨pre, post, he⟩ := List.append_of_mem hl
  have hreply : randomHex = hex random.val := h.reply_eq he
  exact ⟨random.val, random.property, by rw [hreply]⟩

/-- The expiry that a broker stored is found under its key ever after. -/
theorem brokerExpiry_kept (h : D.system.Run w tr s) {tokenHash : Text} {issuedAt expiresAt : Int}
    (hstore : ⟨.storeBrokerChallenge tokenHash issuedAt expiresAt, .ok ()⟩ ∈ D.history t tr) :
    ∃ row, (D.system.after w tr).store.brokerChallenges.find? tokenHash = some row ∧
      row.expiresAt = expiresAt := by
  obtain ⟨f, hl⟩ := System.mem_own.mp hstore
  obtain ⟨pre, post, he⟩ := List.append_of_mem hl
  have hreply : .ok () = (Store.storeBrokerChallenge tokenHash issuedAt expiresAt f
    (D.system.after w pre).store).1 := h.reply_eq he
  rcases storeBrokerChallenge_cases tokenHash issuedAt expiresAt f (D.system.after w pre).store with
    ⟨_, e, herror⟩ | ⟨table, htable, heq⟩
  · rw [herror] at hreply
    cases hreply
  have hstored : ⟨tokenHash, issuedAt, expiresAt, none⟩ ∈ (D.system.after w
      (pre ++ [.act t (.storeBrokerChallenge tokenHash issuedAt expiresAt) f (.ok ())])
      ).store.brokerChallenges.rows := by
    rw [System.after_snoc]
    change _ ∈ (Store.storeBrokerChallenge tokenHash issuedAt expiresAt f
      (D.system.after w pre).store).2.brokerChallenges.rows
    rw [heq, (Table.insert?_eq_some htable).2]
    simp
  obtain ⟨row, hrow, hkept, _⟩ := (kept_after (D := D) _ post).broker _ hstored
  rw [← System.after_append, List.append_assoc, List.singleton_append, ← he] at hrow
  refine ⟨row, (Table.find?_eq_some _).mpr ⟨hrow, ?_⟩, ?_⟩
  · rw [hkept]
  · rw [hkept]

/-- The expiry that an `inventoryd` stored is found under its key ever after. -/
theorem resourceExpiry_kept (h : D.system.Run w tr s) {tokenHash : Text}
    {context : ChallengeContext} {issuedAt expiresAt : Int}
    (hstore : ⟨.storeResourceChallenge tokenHash context issuedAt expiresAt, .ok ()⟩ ∈
      D.history t tr) :
    ∃ row, (D.system.after w tr).store.resourceChallenges.find? tokenHash = some row ∧
      row.expiresAt = expiresAt := by
  obtain ⟨f, hl⟩ := System.mem_own.mp hstore
  obtain ⟨pre, post, he⟩ := List.append_of_mem hl
  have hreply : .ok () = (D.exec (.storeResourceChallenge tokenHash context issuedAt expiresAt) f
    (D.system.after w pre)).1 := h.reply_eq he
  obtain ⟨row, table, hkey, _, hexpires, _, hrows, hworld⟩ :=
    exec_storeResourceChallenge hreply.symm
  have hstored : row ∈ (D.system.after w
      (pre ++ [.act t (.storeResourceChallenge tokenHash context issuedAt expiresAt) f (.ok ())])
      ).store.resourceChallenges.rows := by
    rw [System.after_snoc]
    change row ∈ (D.exec (.storeResourceChallenge tokenHash context issuedAt expiresAt) f
      (D.system.after w pre)).2.store.resourceChallenges.rows
    rw [hworld]
    change row ∈ table.rows
    rw [hrows]
    simp
  obtain ⟨row', hrow', hkept, _⟩ := (kept_after (D := D) _ post).resource _ hstored
  rw [← System.after_append, List.append_assoc, List.singleton_append, ← he] at hrow'
  refine ⟨row', (Table.find?_eq_some _).mpr ⟨hrow', ?_⟩, ?_⟩
  · rw [hkept]
    exact hkey
  · rw [hkept]
    exact hexpires

/-! ### The law -/

/-- A token of a service was made at a time `now` with the expiry `now + ttl`, which is what is read
out of the token and what is stored under its hash. -/
def ExpiryAgrees (secret : Bytes) (ttl : Int) (token : Text) (expiry : Int)
    (stored : Text → Option Int) : Prop :=
  ∃ now tokenHash, ∃ random : Bytes, 0 ≤ now ∧ expiry = now + ttl ∧ random.length = 16 ∧
    token = challengeToken secret expiry (hex random) ∧ challengeExpiry token = .ok expiry ∧
    challengeTokenHash token = .ok tokenHash ∧ stored tokenHash = some expiry

/-- The expiry that the checks of broker challenges use. -/
def brokerExpiry (db : Store) (tokenHash : Text) : Option Int :=
  (db.brokerChallenges.find? tokenHash).map BrokerChallengeRow.expiresAt

/-- The expiry that the checks of resource challenges use. -/
def resourceExpiry (db : Store) (tokenHash : Text) : Option Int :=
  (db.resourceChallenges.find? tokenHash).map ResourceChallengeRow.expiresAt

private theorem expiryAgrees_of_issued (h : D.system.Run w tr s) {secret : Bytes}
    {now ttl expiry : Int} {token tokenHash : Text} {stored : Text → Option Int}
    (hi : TokenIssued secret now ttl token expiry (D.history t tr))
    (hhash : challengeTokenHash token = .ok tokenHash) (hstored : stored tokenHash = some expiry) :
    ExpiryAgrees secret ttl token expiry stored := by
  obtain ⟨random, hlength, htoken⟩ := token_of_issued h hi
  refine ⟨now, tokenHash, random, hi.2.1, hi.1, hlength, htoken, ?_, hhash, hstored⟩
  rw [htoken]
  rw [challengeExpiry_challengeToken secret expiry (dot_notMem_hex random), if_pos hi.2.2.1]

/-- A token that a broker stored agrees with the database. -/
theorem brokerExpiry_agrees (h : D.system.Run w tr s) {b : Nat} {token : Text}
    (hi : (D.broker b).TokenStored token (D.history t tr)) :
    ∃ expiry, ExpiryAgrees (D.broker b).challengeSecret (D.broker b).policy.challengeTtlSeconds
      token expiry (brokerExpiry (D.system.after w tr).store) := by
  obtain ⟨tokenHash, issuedAt, expiresAt, hhash, hissued, hstore⟩ := hi
  obtain ⟨row, hrow, hexpiry⟩ := brokerExpiry_kept h hstore
  refine ⟨expiresAt, expiryAgrees_of_issued h hissued hhash ?_⟩
  rw [brokerExpiry, hrow, Option.map_some, hexpiry]

/-- A challenge that an `inventoryd` stored agrees with the database. -/
theorem resourceExpiry_agrees (h : D.system.Run w tr s) {i : Nat} {challenge : ResourceChallenge}
    (hi : (D.app i).TokenStored challenge (D.history t tr)) :
    ExpiryAgrees (D.app i).challengeSecret (D.app i).policy.challengeTtlSeconds challenge.token
      challenge.expiresAt (resourceExpiry (D.system.after w tr).store) := by
  obtain ⟨tokenHash, issuedAt, hhash, hissued, hstore⟩ := hi
  obtain ⟨row, hrow, hexpiry⟩ := resourceExpiry_kept h hstore
  apply expiryAgrees_of_issued h hissued hhash
  rw [resourceExpiry, hrow, Option.map_some, hexpiry]

private theorem result_of_sat {α : Type} {body : Py Unit α} {f : α → Answer} {c : Call}
    {Q : History → α → Prop} (h : D.system.Run w tr s) (hbody : D.body c = f <$> body)
    (hsat : Body.Sat (fun _ _ ↦ True) (fun _ _ ↦ True) (fun h' r _ ↦ ∀ a, r = .ok a → Q h' a)
      body [] ()) (hc : Label.start t c ∈ tr) {answer : Answer}
    (hf : Label.finish t (.ok answer) ∈ tr) : ∃ a, f a = answer ∧ Q (D.history t tr) a := by
  have hcall : (D.system.body c).Sat (fun _ _ ↦ True) (fun _ _ ↦ True) (fun h' r ↦
      ∀ answer, r = .ok answer → ∃ a, f a = answer ∧ Q h' a) [] := by
    change (D.body c).prog.Sat _ _ _ []
    rw [hbody, Body.sat_prog]
    apply Body.Sat.map
    apply hsat.mono
    intro h' r l' hr answer' hanswer
    cases r with
    | error e => cases hanswer
    | ok a =>
      cases hanswer
      exact ⟨a, rfl, hr a rfl⟩
  exact h.result (A := fun _ ↦ _) (G := fun _ ↦ _) (Q := fun _ ↦ _) hc hcall
    (fun _ _ _ _ ↦ trivial) hf answer rfl

/-- Tokens and stored expiries. A token of `issue_ca2a_challenge_at` is the one over the random
field that was drawn, and its four fields are read back. Its expiry is read back too, and equal
tokens have the same expiry and the same random field. An expiry of more than 4300 digits is neither
spelled nor read: the issuer raises `ValueError`. In every run, however it goes on after a service
has returned a token, the expiry read out of the token is the one stored under its hash: for a
broker's token, for a resource challenge, and for one that the challenge tool returned. -/
theorem challenge_expiry (h : D.system.Run w tr s) :
    (∀ secret now ttl history r, 0 ≤ now → 0 < ttl →
      (issueCa2aChallengeAt secret now ttl : Py Unit (Text × Int)).prog.Path history (.done r) →
      Prog.Relies RandomHex history →
      ∃ random : Bytes, random.length = 16 ∧
        if now + ttl < 10 ^ maxStrDigits then ∃ reply : Except Exn Unit,
          history = [⟨.tokenHex 16, hex random⟩, ⟨.lib (.verifyChallenge secret
            (challengeToken secret (now + ttl) (hex random)) now), reply⟩] ∧
          r = reply.map fun _ ↦ (challengeToken secret (now + ttl) (hex random), now + ttl)
        else history = [⟨.tokenHex 16, hex random⟩] ∧ ∃ message, r = .error (.value message)) ∧
    (∀ secret expiry (random : Bytes),
      (challengeToken secret expiry (hex random)).splitOn (codePoint '.') =
        [text "v1", decimal expiry, hex random,
          hex (hmacSha256 secret (utf8 (authenticatedPart expiry (hex random))))] ∧
      challengeExpiry (challengeToken secret expiry (hex random)) =
        if expiry.natAbs < 10 ^ maxStrDigits then .ok expiry
        else .error (.decision .CHALLENGE_INVALID "challenge has no valid expiry")) ∧
    (∀ secret secret' expiry expiry' (random random' : Bytes),
      challengeToken secret expiry (hex random) = challengeToken secret' expiry' (hex random') →
      expiry = expiry' ∧ random = random') ∧
    (∀ t b token, Label.start t (.newChallenge b) ∈ tr →
      Label.finish t (.ok (.token token)) ∈ tr →
      ∃ expiry, ExpiryAgrees (D.broker b).challengeSecret (D.broker b).policy.challengeTtlSeconds
        token expiry (brokerExpiry s.shared.store)) ∧
    (∀ t i credentialId arguments recordId challenge,
      Label.start t (.issueResourceChallenge i credentialId arguments recordId) ∈ tr →
      Label.finish t (.ok (.challenge challenge)) ∈ tr →
      ExpiryAgrees (D.app i).challengeSecret (D.app i).policy.challengeTtlSeconds challenge.token
        challenge.expiresAt (resourceExpiry s.shared.store)) ∧
    (∀ t i arguments result,
      Label.start t (.callTool i (text "inventory.challenge") arguments) ∈ tr →
      Label.finish t (.ok (.tool result)) ∈ tr → result.isError = false →
      ∃ challenge, result.structuredContent = ResourceChallenge.toDict challenge ∧
        ExpiryAgrees (D.app i).challengeSecret (D.app i).policy.challengeTtlSeconds challenge.token
          challenge.expiresAt (resourceExpiry s.shared.store)) := by
  rw [h.shared_eq]
  refine ⟨?_, ?_, ?_, ?_, ?_, ?_⟩
  · intro secret now ttl history r hnow httl hpath hrelies
    exact Prog.Sat.path (Body.sat_prog.mpr (issueCa2aChallengeAt_exact hnow httl)) hpath hrelies
  · intro secret expiry random
    exact ⟨splitOn_challengeToken secret expiry (dot_notMem_hex random),
      challengeExpiry_challengeToken secret expiry (dot_notMem_hex random)⟩
  · intro secret secret' expiry expiry' random random' heq
    obtain ⟨hexpiry, hrandom⟩ := challengeToken_inj (dot_notMem_hex random) (dot_notMem_hex random')
      heq
    exact ⟨hexpiry, hex_injective hrandom⟩
  · intro t b token hc hf
    obtain ⟨_, ⟨⟩, hstored⟩ := result_of_sat h rfl CapabilityBroker.newChallenge_stores hc hf
    exact brokerExpiry_agrees h hstored
  · intro t i credentialId arguments recordId challenge hc hf
    obtain ⟨_, ⟨⟩, hstored⟩ := result_of_sat h rfl issueResourceChallenge_keeps hc hf
    exact resourceExpiry_agrees h hstored
  · intro t i arguments result hc hf herror
    obtain ⟨_, ⟨⟩, hstored⟩ := result_of_sat h rfl callTool_keeps hc hf
    obtain ⟨challenge, hcontent, hstored⟩ := hstored herror
    exact ⟨challenge, hcontent, resourceExpiry_agrees h hstored⟩

/-- The law without the limit on digits is false: over the first expiry of too many digits every
call of the issuer raises, there is such a call, and the expiry would not be read back. -/
theorem issueCa2aChallengeAt_unspelled :
    let issue : Py Unit (Text × Int) := issueCa2aChallengeAt [] (10 ^ maxStrDigits - 1) 1
    (∀ history r, issue.prog.Path history (.done r) → Prog.Relies RandomHex history →
      ∃ message, r = .error (.value message)) ∧
    (∃ history r, issue.prog.Path history (.done r) ∧ Prog.Relies RandomHex history) ∧
    ∀ random : Bytes, challengeExpiry (challengeToken [] (10 ^ maxStrDigits) (hex random)) =
      .error (.decision .CHALLENGE_INVALID "challenge has no valid expiry") := by
  obtain ⟨n, hn⟩ : ∃ n : Int, n = 10 ^ maxStrDigits := ⟨_, rfl⟩
  have hpos : 0 < n := hn ▸ pow_pos (by decide) _
  have hnow : 0 ≤ n - 1 := by omega
  have hsum : n - 1 + 1 = n := by omega
  have hlong : 10 ^ maxStrDigits ≤ (n - 1 + 1).natAbs := by
    rw [hsum, ← Int.ofNat_le, Int.natAbs_of_nonneg hpos.le, hn, Nat.cast_pow, Nat.cast_ofNat]
  have hissue : (issueCa2aChallengeAt [] (n - 1) 1 : Py Unit (Text × Int)).prog = _ :=
    issueCa2aChallengeAt_of_long hnow zero_lt_one hlong
  rw [← hn]
  refine ⟨?_, ?_, ?_⟩
  · intro history r hpath hrelies
    obtain ⟨_, _, hr⟩ :=
      Prog.Sat.path (Body.sat_prog.mpr (issueCa2aChallengeAt_exact hnow zero_lt_one)) hpath hrelies
    rw [hsum, ← hn, if_neg (lt_irrefl _)] at hr
    exact hr.2
  · have hnil : Prog.Relies RandomHex [] := fun _ _ _ he ↦ absurd he (by simp)
    have hzeros : RandomHex [] ⟨.tokenHex 16, hex (List.replicate 16 0)⟩ :=
      ⟨List.replicate 16 0, rfl, rfl⟩
    have hpath : (issueCa2aChallengeAt [] (n - 1) 1 : Py Unit (Text × Int)).prog.Path
        ([] ++ [⟨.tokenHex 16, hex (List.replicate 16 0)⟩]) (.done (.error
          (.value "Exceeds the limit (4300 digits) for integer string conversion"))) := by
      rw [hissue]
      exact .snoc _ (.nil _)
    exact ⟨_, _, hpath, hnil.snoc hzeros⟩
  · intro random
    rw [challengeExpiry_challengeToken [] _ (dot_notMem_hex random), ← hsum, if_neg]
    exact not_lt.mpr hlong

/-- The law at a run with two issuances: the consumed rows still have the expiries of the tokens. -/
theorem challenge_expiry_issuances :
    ∃ tr s, Demo.deployment.system.Run .initial tr s ∧
      ∃ t token t' token', Demo.deployment.answeredTokens tr = [(t, token), (t', token')] ∧
        (∃ expiry, ExpiryAgrees Demo.broker.challengeSecret 60 token expiry
          (brokerExpiry s.shared.store)) ∧
        ∃ expiry, ExpiryAgrees Demo.broker.challengeSecret 60 token' expiry
          (brokerExpiry s.shared.store) := by
  obtain ⟨tr, s, hrun, hmade, -, -, -, htokens, -⟩ := Demo.exists_twoIssuances
  have hagrees : ∀ t token, Move.start t (.newChallenge 0) ∈ Demo.twoIssuances →
      (t, token) ∈ Demo.deployment.answeredTokens tr →
      ∃ expiry, ExpiryAgrees Demo.broker.challengeSecret 60 token expiry
        (brokerExpiry s.shared.store) := by
    intro t token hstart hmem
    obtain ⟨l, hl, hmakes⟩ := exists_label_of_mem hmade hstart
    obtain rfl : l = .start t (.newChallenge 0) := hmakes
    exact (challenge_expiry hrun).2.2.2.1 t 0 token hl (finish_of_mem_answeredTokens hmem)
  refine ⟨tr, s, hrun, _, _, _, _, htokens, hagrees 0 _ ?_ ?_, hagrees 3 _ ?_ ?_⟩
  · simp [Demo.twoIssuances, Demo.replayedIssuance, Demo.issuance, alone]
  · rw [htokens]
    exact List.mem_cons_self
  · simp [Demo.twoIssuances, alone]
  · rw [htokens]
    exact List.mem_cons_of_mem _ List.mem_cons_self

end Deployment
end Atcap
