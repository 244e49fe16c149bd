import Atcap.Base.Program
import Atcap.Base.Table
import Atcap.Errors

/-!
# SQLite challenge consumption and at-most-once credential redemption

`src/atcap/storage.py`. The database is three tables under their primary keys. SQLite
serialises `BEGIN IMMEDIATE` transactions and makes them atomic, so a transaction is one
function on the database; within it every statement may raise, and an exception discards
what the transaction wrote. What decides an execution besides the database and the arguments
is explicit: the clock read under the write lock and the exception, if any, of each statement.
-/

namespace Atcap

open Base

/-- A row of `broker_challenges`. -/
structure BrokerChallengeRow where
  tokenHash : Text
  issuedAt : Int
  expiresAt : Int
  consumedAt : Option Int
  deriving DecidableEq

/-- A row of `resource_challenges`; without `issuedAt` it is a `ResourceChallengeRecord`. -/
structure ResourceChallengeRow where
  tokenHash : Text
  credentialId : Text
  method : Text
  argumentsDigest : Text
  recordId : Text
  audience : Text
  issuedAt : Int
  expiresAt : Int
  consumedAt : Option Int
  deriving DecidableEq

/-- A row of `credential_redemptions`. -/
structure RedemptionRow where
  credentialId : Text
  tokenHash : Text
  recordId : Text
  redeemedAt : Int
  deriving DecidableEq

/-- The five values a resource challenge is bound to. -/
structure ChallengeContext where
  credentialId : Text
  method : Text
  argumentsDigest : Text
  recordId : Text
  audience : Text
  deriving DecidableEq

/-- The context a stored challenge is bound to. -/
def ResourceChallengeRow.context (r : ResourceChallengeRow) : ChallengeContext :=
  ⟨r.credentialId, r.method, r.argumentsDigest, r.recordId, r.audience⟩

/-- `CredentialSpendResult`. -/
structure CredentialSpendResult where
  firstSpend : Bool
  committedAt : Int
  challengeExpiresAt : Int
  deriving DecidableEq

/-- The database of a `SQLiteStore`. -/
structure Store where
  brokerChallenges : Table BrokerChallengeRow Text BrokerChallengeRow.tokenHash
  resourceChallenges : Table ResourceChallengeRow Text ResourceChallengeRow.tokenHash
  credentialRedemptions : Table RedemptionRow Text RedemptionRow.credentialId

/-- `_initialize` on a new file. -/
def Store.empty : Store := ⟨.empty, .empty, .empty⟩

/-! ### Statements and transactions -/

/-- The calls on a connection at which SQLite may raise. -/
inductive Statement where
  | connect
  | begin
  | select
  | insert
  | update
  | commit
  | rollback
  | close
  deriving DecidableEq

/-- The exception each statement of one execution raises, if any. -/
abbrev Faults := Statement → Option Exn

/-- No statement raises. -/
def Faults.none : Faults := fun _ ↦ Option.none

/-- Execute a statement up to its own exception. -/
def Faults.check (f : Faults) (s : Statement) : Except Exn Unit :=
  match f s with
  | some e => .error e
  | Option.none => .ok ()

/-- Bind a text parameter; SQLite stores UTF-8. -/
def bindText (t : Text) : Except Exn Unit :=
  if t.encodable then .ok () else .error .unicodeEncode

/-- Bind an integer parameter; SQLite stores 64-bit integers. -/
def bindInt (n : Int) : Except Exn Unit :=
  if -2 ^ 63 ≤ n ∧ n < 2 ^ 63 then .ok () else .error .overflow

/-- The frame of a write transaction: `try … except: rollback, raise … finally: close`.
The body runs from `BEGIN IMMEDIATE` to the commit and returns the database it commits. -/
def transaction {α : Type} (f : Faults) (body : Store → Except Exn (α × Store)) (db : Store) :
    Except Exn α × Store :=
  match f.check .connect with
  | .error e => (.error e, db)
  | .ok () =>
    let ended : Except Exn α × Store :=
      match body db with
      | .ok (a, db') => (.ok a, db')
      | .error e =>
        match f.check .rollback with
        | .ok () => (.error e, db)
        | .error e' => (.error e', db)
    match f.check .close with
    | .ok () => ended
    | .error e => (.error e, ended.2)

/-! ### Operations of the store -/

/-- `store_broker_challenge`. -/
def Store.storeBrokerChallenge (tokenHash : Text) (issuedAt expiresAt : Int) (f : Faults)
    (db : Store) : Except Exn Unit × Store :=
  let insertion : Except Exn Store := do
    f.check .connect
    f.check .insert
    bindText tokenHash
    bindInt issuedAt
    bindInt expiresAt
    match db.brokerChallenges.insert? ⟨tokenHash, issuedAt, expiresAt, none⟩ with
    | some t => return { db with brokerChallenges := t }
    | none => throw .integrity
  match insertion with
  | .ok db' => (.ok (), db')
  | .error e => (.error e, db)

/-- Set `consumed_at` of a broker challenge. -/
def BrokerChallengeRow.consume (now : Int) (r : BrokerChallengeRow) : BrokerChallengeRow :=
  { r with consumedAt := some now }

/-- Set `consumed_at` of a resource challenge. -/
def ResourceChallengeRow.consume (now : Int) (r : ResourceChallengeRow) : ResourceChallengeRow :=
  { r with consumedAt := some now }

/-- A consumption keeps the key of the row. -/
theorem BrokerChallengeRow.tokenHash_consume (now : Int) (r : BrokerChallengeRow) :
    (r.consume now).tokenHash = r.tokenHash := rfl

/-- A consumption keeps the key of the row. -/
theorem ResourceChallengeRow.tokenHash_consume (now : Int) (r : ResourceChallengeRow) :
    (r.consume now).tokenHash = r.tokenHash := rfl

/-- The transaction of `consume_broker_challenge`, from `BEGIN IMMEDIATE` to the commit. -/
def consumeBrokerBody (tokenHash : Text) (clock : Except Exn Int) (f : Faults) (db : Store) :
    Except Exn (Unit × Store) := do
  f.check .begin
  let lockedNow ← clock
  f.check .select
  bindText tokenHash
  match db.brokerChallenges.find? tokenHash with
  | none => throw (.decision .CHALLENGE_INVALID "broker challenge was not issued")
  | some row =>
    raiseIf (row.consumedAt.isSome)
      (.decision .CHALLENGE_CONSUMED "broker challenge was consumed")
    raiseIf (lockedNow ≥ row.expiresAt)
      (.decision .CHALLENGE_STALE "broker challenge expired")
    f.check .update
    bindInt lockedNow
    let (updated, rowcount) := db.brokerChallenges.updateWhere
      (BrokerChallengeRow.consume lockedNow) (BrokerChallengeRow.tokenHash_consume lockedNow)
        tokenHash (fun r ↦ r.consumedAt.isNone)
    raiseIf (rowcount ≠ 1)
      (.decision .CHALLENGE_CONSUMED "broker challenge lost a race")
    f.check .commit
    return ((), { db with brokerChallenges := updated })

/-- `consume_broker_challenge`. -/
def Store.consumeBrokerChallenge (tokenHash : Text) (clock : Except Exn Int) (f : Faults)
    (db : Store) : Except Exn Unit × Store :=
  transaction f (consumeBrokerBody tokenHash clock f) db

/-- `store_resource_challenge`. -/
def Store.storeResourceChallenge (tokenHash : Text) (context : ChallengeContext)
    (issuedAt expiresAt : Int) (f : Faults) (db : Store) : Except Exn Unit × Store :=
  let insertion : Except Exn Store := do
    f.check .connect
    f.check .insert
    bindText tokenHash
    bindText context.credentialId
    bindText context.method
    bindText context.argumentsDigest
    bindText context.recordId
    bindText context.audience
    bindInt issuedAt
    bindInt expiresAt
    match db.resourceChallenges.insert? ⟨tokenHash, context.credentialId, context.method,
        context.argumentsDigest, context.recordId, context.audience, issuedAt, expiresAt, none⟩ with
    | some t => return { db with resourceChallenges := t }
    | none => throw .integrity
  match insertion with
  | .ok db' => (.ok (), db')
  | .error e => (.error e, db)

/-- `get_resource_challenge`. -/
def Store.getResourceChallenge (tokenHash : Text) (f : Faults) (db : Store) :
    Except Exn (Option ResourceChallengeRow) := do
  f.check .connect
  f.check .select
  bindText tokenHash
  return db.resourceChallenges.find? tokenHash

/-- The arguments of `consume_challenge_and_spend_credential`, the clock apart. -/
structure SpendArgs where
  tokenHash : Text
  context : ChallengeContext
  credentialNotBefore : Int
  credentialNotAfter : Int
  deriving DecidableEq

/-- The transaction of `consume_challenge_and_spend_credential`, from `BEGIN IMMEDIATE` to the
commit. A non-first spend still consumes its fresh challenge. -/
def spendBody (a : SpendArgs) (clock : Except Exn Int) (f : Faults) (db : Store) :
    Except Exn (CredentialSpendResult × Store) := do
  f.check .begin
  let lockedNow ← clock
  f.check .select
  bindText a.tokenHash
  match db.resourceChallenges.find? a.tokenHash with
  | none => throw (.decision .CHALLENGE_INVALID "resource challenge was not issued")
  | some row =>
    raiseIf (row.consumedAt.isSome)
      (.decision .CHALLENGE_CONSUMED "resource challenge was consumed")
    raiseIf (lockedNow ≥ row.expiresAt)
      (.decision .CHALLENGE_STALE "resource challenge expired")
    raiseIf (lockedNow < a.credentialNotBefore ∨ lockedNow > a.credentialNotAfter)
      (.decision .CREDENTIAL_EXPIRED "credential expired while waiting for the SQLite write lock")
    raiseIf (row.context ≠ a.context)
      (.decision .HOLDER_PROOF_INVALID "resource challenge context does not match")
    f.check .insert
    bindText a.context.credentialId
    bindText a.context.recordId
    bindInt lockedNow
    let (redemptions, inserted) := db.credentialRedemptions.insertOrIgnore
      ⟨a.context.credentialId, a.tokenHash, a.context.recordId, lockedNow⟩
    f.check .update
    let (updated, rowcount) := db.resourceChallenges.updateWhere
      (ResourceChallengeRow.consume lockedNow) (ResourceChallengeRow.tokenHash_consume lockedNow)
      a.tokenHash (fun r ↦ r.consumedAt.isNone)
    raiseIf (rowcount ≠ 1)
      (.decision .CHALLENGE_CONSUMED "resource challenge lost a race")
    f.check .commit
    return (⟨decide (inserted = 1), lockedNow, row.expiresAt⟩,
      { db with resourceChallenges := updated, credentialRedemptions := redemptions })

/-- `consume_challenge_and_spend_credential`. -/
def Store.consumeChallengeAndSpendCredential (a : SpendArgs) (clock : Except Exn Int) (f : Faults)
    (db : Store) : Except Exn CredentialSpendResult × Store :=
  transaction f (spendBody a clock f) db

/-- `redemption_count`. -/
def Store.redemptionCount (credentialId : Text) (db : Store) : Nat :=
  db.credentialRedemptions.rows.countP (fun r ↦ decide (r.credentialId = credentialId))

end Atcap
