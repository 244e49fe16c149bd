import Atcap.Inventory.Numbering
import Atcap.Mcp.Spec
import Atcap.System.Calls
import Atcap.System.Effect
import Atcap.System.Schedule

/-!
# Confinement of tool calls

What a `tools/call` request can do to the shared state and return, among any other calls: it
redeems exactly as `redeem` does, stores one challenge, or leaves everything as it is and is
denied as unauthenticated.
-/

namespace Atcap

open Base System InventoryApplication

namespace Deployment

variable {D : Deployment} {w : World} {tr pre post : D.Trace} {t i : Nat} {name : Text}
  {arguments : Option (List (Text × Value))} {request : LookupInput}
  {s : Config Op Op.Reply World Call (Except Exn Answer)}

/-! ### Which tool calls redeem -/

/-- A tool call redeems when it names the policy's method with valid arguments. -/
theorem redemption?_callTool_eq_some
    (hmethod : (D.app i).policy.method ≠ text "inventory.challenge") (j : Nat) :
    D.redemption? (.callTool i name arguments) = some (j, request) ↔
      j = i ∧ name = (D.app i).policy.method ∧
        LookupInput.modelValidate (arguments.getD []) = .ok request := by
  unfold redemption?
  dsimp only
  constructor
  · intro h
    split at h
    · next hname =>
      cases hv : LookupInput.modelValidate (arguments.getD []) with
      | error e =>
        rw [hv] at h
        cases h
      | ok r =>
        rw [hv] at h
        cases h
        exact ⟨rfl, hname.2, rfl⟩
    · cases h
  · rintro ⟨rfl, hname, hvalid⟩
    rw [if_pos ⟨by rw [hname]; exact hmethod, hname⟩, hvalid]
    rfl

/-- A tool call that performs no redemption has no valid arguments for one. -/
theorem not_valid_of_redemption?_eq_none (h : D.redemption? (.callTool i name arguments) = none)
    (request : LookupInput) (hname : name = (D.app i).policy.method)
    (hc : name ≠ text "inventory.challenge") :
    LookupInput.modelValidate (arguments.getD []) ≠ .ok request := by
  intro hvalid
  unfold redemption? at h
  dsimp only at h
  rw [if_pos ⟨hc, hname⟩, hvalid] at h
  cases h

/-- A tool call that redeems runs `redeem`, and only reads its outcome. -/
theorem body_callTool (h : D.redemption? (.callTool i name arguments) = some (i, request)) :
    D.system.body (.callTool i name arguments) =
      ((D.app i).redeem D.lib i request).prog.bind fun outcome ↦
        .done ((lookupResult D.lib outcome).map Answer.tool) := by
  obtain ⟨_, heq⟩ := callTool_eq_redeem h
  change (Answer.tool <$> (D.app i).callTool D.lib i name arguments).prog = _
  rw [heq]
  change Prog.bind (Prog.bind (Prog.bind (Prog.bind (((D.app i).redeem D.lib i request) ()) _) _) _)
    _ = Prog.bind (Prog.bind (((D.app i).redeem D.lib i request) ()) _) _
  simp only [Prog.bind_assoc]
  congr 1
  funext r
  simp only [Prog.bind]
  cases hl : lookupResult D.lib r.1 with
  | error e => rfl
  | ok result => rfl

/-! ### Steps -/

/-- An inert event leaves the shared state as it is. -/
theorem exec_inert {e : Op} {x : e.Input} (h : inert ⟨e, (D.exec e x w).1⟩ = true) :
    (D.exec e x w).2 = w := by
  cases e with
  | clock | tokenHex | lib | sign | getResourceChallenge | invocationCount
  | inventoryLookup => rfl
  | storeBrokerChallenge | consumeBrokerChallenge | spend | recordInvocation => cases h
  | storeResourceChallenge tokenHash context issuedAt expiresAt =>
    rcases storeResourceChallenge_cases tokenHash context issuedAt expiresAt x w.store with
      ⟨hdb, _⟩ | ⟨table, _, heq⟩
    · change { w with store := (Store.storeResourceChallenge _ _ _ _ _ _).2 } = w
      rw [hdb]
    · exfalso
      have hreply : (D.exec (.storeResourceChallenge tokenHash context issuedAt expiresAt) x w).1 =
          .ok () := congrArg Prod.fst heq
      rw [hreply] at h
      cases h

/-- What one step of a tool call does to the shared state. -/
inductive Confined (app : InventoryApplication) (name : Text) (rawArguments : List (Text × Value))
    (w w' : World) : Prop where
  | idle : w' = w → Confined app name rawArguments w w'
  /-- A step of a redemption; it adds no resource challenge. -/
  | redeems {request : LookupInput} : name = app.policy.method →
      LookupInput.modelValidate rawArguments = .ok request →
      w'.store.brokerChallenges = w.store.brokerChallenges →
      w'.store.resourceChallenges.rows.map ResourceChallengeRow.tokenHash =
        w.store.resourceChallenges.rows.map ResourceChallengeRow.tokenHash →
      Confined app name rawArguments w w'
  /-- One challenge is stored, for validated arguments. -/
  | stores {input : ChallengeInput} {row : ResourceChallengeRow}
      {table : Table ResourceChallengeRow Text ResourceChallengeRow.tokenHash} :
      name = text "inventory.challenge" → ChallengeInput.modelValidate rawArguments = .ok input →
      input.credentialId.isLowerHexOf 64 = true → row.credentialId = input.credentialId →
      row.consumedAt = none → table.rows = w.store.resourceChallenges.rows ++ [row] →
      w' = { w with store := { w.store with resourceChallenges := table } } →
      Confined app name rawArguments w w'

/-- A stored challenge is one more row, not consumed, and nothing else. -/
theorem exec_storeResourceChallenge {tokenHash : Text} {context : ChallengeContext}
    {issuedAt expiresAt : Int} {f : Faults}
    (h : (D.exec (.storeResourceChallenge tokenHash context issuedAt expiresAt) f w).1 = .ok ()) :
    ∃ row table, row.tokenHash = tokenHash ∧ row.context = context ∧ row.expiresAt = expiresAt ∧
      row.consumedAt = none ∧ table.rows = w.store.resourceChallenges.rows ++ [row] ∧
      (D.exec (.storeResourceChallenge tokenHash context issuedAt expiresAt) f w).2 =
        { w with store := { w.store with resourceChallenges := table } } := by
  rcases storeResourceChallenge_cases tokenHash context issuedAt expiresAt f w.store with
    ⟨_, e, he⟩ | ⟨table, htable, heq⟩
  · exfalso
    have hreply : (D.exec (.storeResourceChallenge tokenHash context issuedAt expiresAt) f w).1 =
        .error e := he
    rw [hreply] at h
    cases h
  · obtain ⟨_, hrows⟩ := Table.insert?_eq_some htable
    refine ⟨_, table, rfl, rfl, rfl, rfl, hrows, ?_⟩
    change { w with store := (Store.storeResourceChallenge _ _ _ _ _ _).2 } = _
    rw [heq]

/-- An operation of a redemption leaves the broker's table and the keys of the resource
challenges as they are. -/
theorem exec_redeem {e : Op} {x : e.Input} {h : History}
    (hg : redeemGuarantee D.lib (D.app i) i request h e) :
    (D.exec e x w).2.store.brokerChallenges = w.store.brokerChallenges ∧
      (D.exec e x w).2.store.resourceChallenges.rows.map ResourceChallengeRow.tokenHash =
        w.store.resourceChallenges.rows.map ResourceChallengeRow.tokenHash := by
  cases e with
  | clock | tokenHex | lib | sign | getResourceChallenge | invocationCount | inventoryLookup
  | recordInvocation => exact ⟨rfl, rfl⟩
  | storeBrokerChallenge | consumeBrokerChallenge | storeResourceChallenge => cases hg.1
  | spend a =>
    change (Store.consumeChallengeAndSpendCredential a x.1 x.2 w.store).2.brokerChallenges = _ ∧
      (Store.consumeChallengeAndSpendCredential a x.1 x.2 w.store).2.resourceChallenges.rows.map
        ResourceChallengeRow.tokenHash = _
    rcases spend_cases a x.1 x.2 w.store with hdb | ⟨row, now, _, _, hdb⟩
    · rw [hdb]
      exact ⟨rfl, rfl⟩
    · rw [hdb]
      exact ⟨rfl, Table.keys_updateWhere (ResourceChallengeRow.consume now) (fun _ ↦ rfl) _ _ _⟩

/-- What comes of a tool call that performs no redemption. -/
theorem tool_sat (hr : D.redemption? (.callTool i name arguments) = none)
    {A : History → Event Op Op.Reply → Prop} :
    (D.system.body (.callTool i name arguments)).Sat A (toolGuarantee name (arguments.getD []))
      (fun h a ↦ ∀ result, a = .ok (.tool result) →
        (name = text "inventory.challenge" ∧ ∃ input challenge,
          Issued (arguments.getD []) h result input challenge) ∨
        ((∀ ev ∈ h, inert ev = true) ∧ Denied result)) [] := by
  change (D.body (.callTool i name arguments)).prog.Sat _ _ _ _
  rw [Body.sat_prog]
  apply Body.Sat.map
  apply (callTool_outcome (not_valid_of_redemption?_eq_none hr)).mono
  intro h r l hpost result ha
  cases r with
  | error e => cases ha
  | ok result' =>
    cases ha
    exact hpost result rfl

/-- Every step of a tool call is confined. -/
theorem step_confined (hmethod : (D.app i).policy.method ≠ text "inventory.challenge")
    (h : D.system.Run w tr s) (hc : Label.start t (.callTool i name arguments) ∈ tr) {e : Op}
    {x : e.Input} {r : e.Reply} (he : tr = pre ++ .act t e x r :: post) :
    Confined (D.app i) name (arguments.getD []) (D.system.after w pre)
      (D.exec e x (D.system.after w pre)).2 := by
  have hown : D.history t tr = D.history t pre ++ ⟨e, r⟩ :: D.history t post :=
    System.own_split he
  have hreply : r = (D.exec e x (D.system.after w pre)).1 := h.reply_eq he
  have hg := h.guarantee_history (A := fun _ _ _ ↦ True) hc (body_sat _) hown fun _ _ _ _ ↦ trivial
  unfold guarantee at hg
  cases hr : D.redemption? (.callTool i name arguments) with
  | some jr =>
    obtain ⟨j, request⟩ := jr
    rw [hr] at hg
    obtain ⟨rfl, hname, hvalid⟩ := (redemption?_callTool_eq_some hmethod j).mp hr
    obtain ⟨hbroker, hkeys⟩ := exec_redeem (x := x) (w := D.system.after w pre) hg
    exact .redeems hname hvalid hbroker hkeys
  | none =>
    rw [hr] at hg
    have htool := h.guarantee_history (A := fun _ _ _ ↦ True) (G := fun _ ↦ toolGuarantee name _)
      (Q := fun _ ↦ _) hc (tool_sat hr) hown fun _ _ _ _ ↦ trivial
    cases e with
    | clock | tokenHex | lib | sign | getResourceChallenge | invocationCount
    | inventoryLookup => exact .idle rfl
    | storeBrokerChallenge | consumeBrokerChallenge | spend | recordInvocation => cases hg
    | storeResourceChallenge tokenHash context issuedAt expiresAt =>
      cases r with
      | error e =>
        apply Confined.idle
        apply exec_inert
        rw [← hreply]
        rfl
      | ok u =>
        obtain ⟨hname, input, hinput, hhex, hid⟩ := htool
        obtain ⟨row, table, _, hcontext, _, hnone, hrows, hworld⟩ :=
          exec_storeResourceChallenge hreply.symm
        refine .stores hname hinput hhex ?_ hnone hrows hworld
        rw [← hid, ← hcontext]
        rfl

/-! ### Results -/

/-- A call changed nothing shared. -/
def Idle (w : World) (tr : D.Trace) (t : Nat) : Prop :=
  ∀ pre e x r post, tr = pre ++ .act t e x r :: post →
    (D.exec e x (D.system.after w pre)).2 = D.system.after w pre

/-- A tool call stored the challenge that it returned, and did nothing else. -/
structure IssuedChallenge (w : World) (tr : D.Trace) (t : Nat) (name : Text)
    (rawArguments : List (Text × Value)) (result : CallToolResult) (input : ChallengeInput)
    (challenge : ResourceChallenge) : Prop where
  tool : name = text "inventory.challenge"
  validated : ChallengeInput.modelValidate rawArguments = .ok input
  identifier : input.credentialId.isLowerHexOf 64 = true
  named : challenge.credentialId = input.credentialId ∧ challenge.recordId = input.recordId.val
  returned : result.structuredContent = challenge.toDict ∧ result.isError = false
  /-- One step adds one row, which is bound to what is returned; the other steps are idle. -/
  stored : ∃ pre e x r post row table, tr = pre ++ .act t e x r :: post ∧
    row.context = challenge.context ∧ row.expiresAt = challenge.expiresAt ∧
    challengeTokenHash challenge.token = .ok row.tokenHash ∧ row.consumedAt = none ∧
    table.rows = (D.system.after w pre).store.resourceChallenges.rows ++ [row] ∧
    (D.exec e x (D.system.after w pre)).2 = { D.system.after w pre with store :=
      { (D.system.after w pre).store with resourceChallenges := table } } ∧
    ∀ pre' e' x' r' post', tr = pre' ++ .act t e' x' r' :: post' → pre' ≠ pre →
      (D.exec e' x' (D.system.after w pre')).2 = D.system.after w pre'

/-- A tool call performed a redemption with this outcome. -/
structure Redeemed (D : Deployment) (tr : D.Trace) (t i : Nat) (name : Text)
    (rawArguments : List (Text × Value)) (request : LookupInput)
    (outcome : Except Exn Decision) : Prop where
  tool : name = (D.app i).policy.method
  validated : LookupInput.modelValidate rawArguments = .ok request
  returned : ((D.app i).redeem D.lib i request).prog.Path (D.history t tr) (.done outcome)

/-- Inert histories are those of idle calls. -/
theorem idle_of_inert (h : D.system.Run w tr s)
    (hinert : ∀ ev ∈ D.history t tr, inert ev = true) : Idle w tr t := by
  intro pre e x r post he
  apply exec_inert
  have hreply : r = (D.exec e x (D.system.after w pre)).1 := h.reply_eq he
  rw [← hreply]
  apply hinert
  rw [history, System.own_split he]
  simp

/-- A call whose last operation stored a challenge did nothing else. -/
theorem issued_of_history (h : D.system.Run w tr s) {rawArguments : List (Text × Value)}
    {result : CallToolResult} {input : ChallengeInput} {challenge : ResourceChallenge}
    (hname : name = text "inventory.challenge")
    (hi : Issued rawArguments (D.history t tr) result input challenge) :
    IssuedChallenge w tr t name rawArguments result input challenge := by
  obtain ⟨q, tokenHash, issuedAt, hquiet, hhash, hown⟩ := hi.stored
  obtain ⟨pre, x, post, he, hpre, hpost⟩ := System.own_eq_append hown
  have hreply : .ok () = (D.exec (.storeResourceChallenge tokenHash challenge.context issuedAt
    challenge.expiresAt) x (D.system.after w pre)).1 := h.reply_eq he
  obtain ⟨row, table, hkey, hcontext, hexpires, hnone, hrows, hworld⟩ :=
    exec_storeResourceChallenge hreply.symm
  refine ⟨hname, hi.validated, hi.identifier, ⟨hi.credentialId, hi.recordId⟩, hi.returned,
    pre, .storeResourceChallenge tokenHash challenge.context issuedAt challenge.expiresAt, x,
    .ok (), post, row, table, he, hcontext, hexpires, ?_, hnone, hrows, hworld, ?_⟩
  · rw [hkey]
    exact hhash
  intro pre' e' x' r' post' he' hne
  rcases System.split_cases (he.symm.trans he') with ⟨heq, _⟩ | ⟨mid, hmid⟩ | ⟨mid, hmid⟩
  · exact absurd heq.symm hne
  · -- The call issues nothing after the challenge is stored.
    exfalso
    have hpost' : post = mid ++ .act t e' x' r' :: post' := by
      have hsame := he.symm.trans he'
      rw [hmid, List.append_assoc, List.cons_append] at hsame
      exact (List.cons.inj (List.append_cancel_left hsame)).2
    have hmem : (⟨e', r'⟩ : Event Op Op.Reply) ∈ D.system.own t post := by
      rw [hpost']
      exact System.mem_own.mpr ⟨x', by simp⟩
    rw [hpost] at hmem
    cases hmem
  · apply exec_inert
    have hreply' : r' = (D.exec e' x' (D.system.after w pre')).1 := h.reply_eq he'
    rw [← hreply']
    apply inert_of_query
    apply hquiet ⟨e', r'⟩
    rw [← hpre, hmid]
    exact System.mem_own.mpr ⟨x', by simp⟩

/-- A tool call that redeems answers with what the lookup tool makes of its outcome. -/
theorem redeemed_of_answer (hmethod : (D.app i).policy.method ≠ text "inventory.challenge")
    (h : D.system.Run w tr s) (hc : Label.start t (.callTool i name arguments) ∈ tr)
    (hname : name = (D.app i).policy.method)
    (hvalid : LookupInput.modelValidate (arguments.getD []) = .ok request)
    {a : Except Exn Answer} (hf : Label.finish t a ∈ tr) :
    ∃ outcome, Redeemed D tr t i name (arguments.getD []) request outcome ∧
      a = (lookupResult D.lib outcome).map Answer.tool := by
  have hr := (redemption?_callTool_eq_some hmethod i).mpr ⟨rfl, hname, hvalid⟩
  obtain ⟨p, hpath, hdone⟩ := h.history hc
  rw [body_callTool hr, hdone a hf] at hpath
  obtain ⟨p', hpath', heq⟩ := hpath.of_bind
  cases p' with
  | call e k => cases heq
  | done outcome =>
    cases heq
    exact ⟨outcome, ⟨hname, hvalid, hpath'⟩, rfl⟩

/-- The outcome of a redemption within a tool call goes with its own number. -/
theorem Redeemed.numbered {rawArguments : List (Text × Value)} {outcome : Except Exn Decision}
    (hr : Redeemed D tr t i name rawArguments request outcome) :
    Numbered (D.history t tr) outcome := by
  have hsat : ((D.app i).redeem D.lib i request).prog.Sat (fun _ _ ↦ True) (numberingGuarantee i)
      Numbered [] := by
    rw [Body.sat_prog]
    exact redeem_numbering
  exact hsat.path hr.returned fun _ _ _ _ ↦ trivial

/-- An allowed redemption within a tool call is `ALLOW`, or its handler failed. -/
theorem Redeemed.reason {rawArguments : List (Text × Value)} {d : Decision}
    (hr : Redeemed D tr t i name rawArguments request (.ok d)) (ha : d.allowed = true) :
    d.reason = .ALLOW ∨ d.reason = .HANDLER_FAILED ∧ ∃ n, d.result = some (failedResult n) := by
  have hsat : ((D.app i).redeem D.lib i request).prog.Sat (fun _ _ ↦ True) (fun _ _ ↦ True)
      (fun _ r ↦ ∀ d, r = .ok d → d.allowed = true → d.reason = .ALLOW ∨
        d.reason = .HANDLER_FAILED ∧ ∃ n, d.result = some (failedResult n)) [] := by
    rw [Body.sat_prog]
    exact redeem_reasons
  exact hsat.path hr.returned (fun _ _ _ _ ↦ trivial) d rfl ha

/-- A failed handler is reported under the number of its invocation. -/
theorem Redeemed.failed {rawArguments : List (Text × Value)} {d : Decision}
    (hr : Redeemed D tr t i name rawArguments request (.ok d)) (ha : d.allowed = true)
    (hreason : d.reason = .HANDLER_FAILED) :
    ∃ n, numberOf (D.history t tr) = some n ∧ d.result = some (failedResult n) := by
  obtain hallow | ⟨_, n, hresult⟩ := hr.reason ha
  · rw [hreason] at hallow
    cases hallow
  have hnumbered := hr.numbered
  unfold Numbered at hnumbered
  cases hn : numberOf (D.history t tr) with
  | none =>
    rw [hn] at hnumbered
    rw [(hnumbered.2 d rfl).1] at ha
    cases ha
  | some m =>
    rw [hn] at hnumbered
    obtain ⟨_, ⟨d', members, hd, _, hmembers, hnumber⟩ | ⟨_, _, hd⟩⟩ := hnumbered
    · cases hd
      rw [hresult, failedResult, Option.some.injEq, Value.dict.injEq] at hmembers
      subst hmembers
      have hm : some (Value.int n) = some (Value.int m) := hnumber
      simp only [Option.some.injEq, Value.int.injEq, Nat.cast_inj] at hm
      exact ⟨m, rfl, by rw [hresult, hm]⟩
    · cases hd

/-- A number that a call has taken is positive. -/
theorem numberOf_pos (h : D.system.Run w tr s) {n : Nat}
    (hn : numberOf (D.history t tr) = some n) : 1 ≤ n := by
  obtain ⟨j, hmem⟩ := mem_of_numberOf hn
  obtain ⟨x, hl⟩ := System.mem_own.mp hmem
  obtain ⟨pre, post, he⟩ := List.append_of_mem hl
  have hreply : n = (D.system.after w pre).counter j + 1 := h.reply_eq he
  omega

/-- What comes of a tool call that returns: the challenge it stored, the outcome of its
redemption, or a denial that changed nothing. -/
theorem tool_outcome (hmethod : (D.app i).policy.method ≠ text "inventory.challenge")
    (h : D.system.Run w tr s) (hc : Label.start t (.callTool i name arguments) ∈ tr)
    {result : CallToolResult} (hf : Label.finish t (.ok (.tool result)) ∈ tr) :
    (∃ input challenge, IssuedChallenge w tr t name (arguments.getD []) result input challenge) ∨
    (∃ request outcome, Redeemed D tr t i name (arguments.getD []) request outcome ∧
      lookupResult D.lib outcome = .ok result) ∨
    (Idle w tr t ∧ Denied result) := by
  cases hr : D.redemption? (.callTool i name arguments) with
  | some jr =>
    obtain ⟨j, request⟩ := jr
    obtain ⟨rfl, hname, hvalid⟩ := (redemption?_callTool_eq_some hmethod j).mp hr
    obtain ⟨outcome, hredeemed, ha⟩ := redeemed_of_answer hmethod h hc hname hvalid hf
    right
    left
    refine ⟨request, outcome, hredeemed, ?_⟩
    cases hl : lookupResult D.lib outcome with
    | error e =>
      rw [hl] at ha
      cases ha
    | ok result' =>
      rw [hl] at ha
      cases ha
      rfl
  | none =>
    have hpost := h.result (A := fun _ _ _ ↦ True) (G := fun _ ↦ toolGuarantee name _)
      (Q := fun _ ↦ _) hc (tool_sat hr) (fun _ _ _ _ ↦ trivial) hf
    rcases hpost result rfl with ⟨hname, input, challenge, hissued⟩ | ⟨hinert, hdenied⟩
    · exact .inl ⟨input, challenge, issued_of_history h hname hissued⟩
    · exact .inr (.inr ⟨idle_of_inert h hinert, hdenied⟩)

/-- A tool call returns no error exactly when it issued a challenge or was allowed. -/
theorem tool_isError (hmethod : (D.app i).policy.method ≠ text "inventory.challenge")
    (h : D.system.Run w tr s) (hc : Label.start t (.callTool i name arguments) ∈ tr)
    {result : CallToolResult} (hf : Label.finish t (.ok (.tool result)) ∈ tr) :
    result.isError = false ↔
      (∃ input challenge,
        IssuedChallenge w tr t name (arguments.getD []) result input challenge) ∨
      ∃ request d, Redeemed D tr t i name (arguments.getD []) request (.ok d) ∧
        d.allowed = true ∧ d.reason = .ALLOW := by
  constructor
  · intro herror
    rcases tool_outcome hmethod h hc hf with hissued | ⟨request, outcome, hr, hl⟩ | ⟨_, hdenied⟩
    · exact .inl hissued
    · obtain ⟨d, rfl, ha, hreason⟩ := (lookupResult_isError hl).mp herror
      right
      refine ⟨request, d, hr, ha, ?_⟩
      rcases hr.reason ha with hallow | ⟨hfailed, _⟩
      · exact hallow
      · exact absurd hfailed hreason
    · obtain ⟨_, _, htrue⟩ := hdenied
      rw [htrue] at herror
      cases herror
  · rintro (⟨input, challenge, hissued⟩ | ⟨request, d, hr, ha, hreason⟩)
    · exact hissued.returned.2
    · obtain ⟨outcome, hr', hanswer⟩ :=
        redeemed_of_answer hmethod h hc hr.tool hr.validated hf
      cases hr.returned.unique hr'.returned
      cases hl : lookupResult D.lib (.ok d) with
      | error e =>
        rw [hl] at hanswer
        cases hanswer
      | ok result' =>
        rw [hl] at hanswer
        cases hanswer
        rw [lookupResult_isError hl]
        exact ⟨d, rfl, ha, by rw [hreason]; decide⟩

/-- Confinement of tool calls, in every run among any other calls. A step of a request is idle,
belongs to a redemption by the policy's method with valid arguments, or stores one challenge for
valid arguments; a redemption is that of `redeem`; what returns is a stored challenge, the outcome
of the redemption, or an unauthenticated denial of an idle request; an error is flagged exactly
unless a challenge was issued or the redemption was `ALLOW`; and a failed handler and a missing
receipt are flagged under the number of their invocation. -/
theorem tool_confinement (hmethod : (D.app i).policy.method ≠ text "inventory.challenge")
    (h : D.system.Run w tr s) (hc : Label.start t (.callTool i name arguments) ∈ tr) :
    (∀ pre e x r post, tr = pre ++ .act t e x r :: post →
      Confined (D.app i) name (arguments.getD []) (D.system.after w pre)
        (D.exec e x (D.system.after w pre)).2) ∧
    (∀ request, name = (D.app i).policy.method →
      LookupInput.modelValidate (arguments.getD []) = .ok request →
      D.system.body (.callTool i name arguments) =
        ((D.app i).redeem D.lib i request).prog.bind fun outcome ↦
          .done ((lookupResult D.lib outcome).map Answer.tool)) ∧
    (∀ result, Label.finish t (.ok (.tool result)) ∈ tr →
      ((∃ input challenge,
          IssuedChallenge w tr t name (arguments.getD []) result input challenge) ∨
        (∃ request outcome, Redeemed D tr t i name (arguments.getD []) request outcome ∧
          lookupResult D.lib outcome = .ok result) ∨
        (Idle w tr t ∧ Denied result)) ∧
      (result.isError = false ↔
        (∃ input challenge,
          IssuedChallenge w tr t name (arguments.getD []) result input challenge) ∨
        ∃ request d, Redeemed D tr t i name (arguments.getD []) request (.ok d) ∧
          d.allowed = true ∧ d.reason = .ALLOW)) ∧
    (∀ a request outcome, Label.finish t a ∈ tr →
      Redeemed D tr t i name (arguments.getD []) request outcome →
      (∀ d, outcome = .ok d → d.allowed = true → d.reason = .HANDLER_FAILED →
        (∃ n, numberOf (D.history t tr) = some n ∧ d.result = some (failedResult n)) ∧
        a = (mcpResult D.lib d.toDict true).map Answer.tool) ∧
      (∀ message n completed, outcome = .error (.postInvocation message n completed) →
        numberOf (D.history t tr) = some n →
        ∃ state, unsignedPostInvocationState completed n = .ok state ∧
          a = (mcpResult D.lib state true).map Answer.tool)) := by
  refine ⟨?_, ?_, ?_, ?_⟩
  · intro pre e x r post he
    exact step_confined hmethod h hc he
  · intro request hname hvalid
    exact body_callTool ((redemption?_callTool_eq_some hmethod i).mpr ⟨rfl, hname, hvalid⟩)
  · intro result hf
    exact ⟨tool_outcome hmethod h hc hf, tool_isError hmethod h hc hf⟩
  · intro a request outcome hf hr
    obtain ⟨outcome', hr', ha⟩ := redeemed_of_answer hmethod h hc hr.tool hr.validated hf
    cases hr.returned.unique hr'.returned
    refine ⟨?_, ?_⟩
    · rintro d rfl hallowed hreason
      refine ⟨hr.failed hallowed hreason, ?_⟩
      rw [ha, lookupResult, hallowed, hreason]
      rfl
    · rintro message n completed rfl hn
      obtain ⟨state, hstate⟩ := unsignedPostInvocationState_of_pos completed (numberOf_pos h hn)
      refine ⟨state, hstate, ?_⟩
      rw [ha, lookupResult, hstate]
      rfl

end Deployment

set_option maxRecDepth 100000 in
/-- A challenge tool that returns, and a tool that does not exist. -/
theorem Demo.exists_toolCalls : ∃ tr s, deployment.system.Run .initial tr s ∧
    List.Forall₂ Move.Makes toolCalls tr ∧ deployment.flags tr = [(0, false), (1, true)] :=
  Deployment.exists_made_of_play toolCalls (by decide +kernel)

/-- The law at a tool call that issues a challenge and at one that is denied. -/
theorem Deployment.tool_confinement_toolCalls :
    ∃ tr s, Demo.deployment.system.Run .initial tr s ∧
      (∃ result input challenge, result.isError = false ∧ IssuedChallenge .initial tr 0
        (text "inventory.challenge") [(text "sku", .str (text "w")),
          (text "credential_id", .str Demo.credentialId), (text "record_id", .str (text "r"))]
        result input challenge) ∧
      ∃ result, result.isError = true ∧ Idle .initial tr 1 ∧
        InventoryApplication.Denied result := by
  obtain ⟨tr, s, hrun, hmade, hflags⟩ := Demo.exists_toolCalls
  have hmethod : (Demo.deployment.app 0).policy.method ≠ text "inventory.challenge" := by decide
  obtain ⟨l, hl, hmake⟩ := exists_label_of_mem hmade List.mem_cons_self
  cases hmake
  obtain ⟨l', hl', hmake'⟩ := exists_label_of_mem hmade
    (List.mem_append_right _ List.mem_cons_self)
  cases hmake'
  obtain ⟨result, hf, hflag⟩ := finish_of_mem_flags
    (show (0, false) ∈ Demo.deployment.flags tr by rw [hflags]; decide)
  obtain ⟨result', hf', hflag'⟩ := finish_of_mem_flags
    (show (1, true) ∈ Demo.deployment.flags tr by rw [hflags]; decide)
  refine ⟨tr, s, hrun, ?_, ?_⟩
  · have hlaw := (tool_confinement hmethod hrun hl).2.2.1 result hf
    rcases hlaw.1 with ⟨input, challenge, hissued⟩ | ⟨_, _, hredeemed, _⟩ | ⟨_, _, _, herror⟩
    · exact ⟨result, input, challenge, hflag, hissued⟩
    · have htool := hredeemed.tool
      exact absurd htool (by decide)
    · rw [hflag] at herror
      cases herror
  · have hlaw := (tool_confinement hmethod hrun hl').2.2.1 result' hf'
    rcases hlaw.1 with ⟨_, _, hissued⟩ | ⟨_, _, hredeemed, _⟩ | hdenied
    · exact absurd hissued.tool (by decide)
    · have htool := hredeemed.tool
      exact absurd htool (by decide)
    · exact ⟨result', hflag', hdenied⟩

end Atcap
