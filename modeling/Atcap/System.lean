import Atcap.Base.Interleave
import Atcap.Broker
import Atcap.Mcp
import Atcap.Storage.Changes

/-!
# The services over one store

Any number of `inventoryd` and broker instances share one `SQLiteStore`. The shared state is
the database and the invocation counter of each `inventoryd` instance; a crash of an instance
ends its calls and resets its counter, and keeps the database. Everything a service cannot
decide is an input of the step that executes the operation: the clock, the random bytes, what
a released library answers, and the failures of the store, the signer and the handler.
-/

namespace Atcap

open Base

/-- The instances of a deployment; a restarted instance keeps its number and configuration. -/
structure Deployment where
  lib : Libraries
  app : Nat → InventoryApplication
  broker : Nat → CapabilityBroker

/-- The shared state: the database and the invocation counters. -/
structure World where
  store : Store
  counter : Nat → Nat

/-- An empty database and fresh instances. -/
def World.initial : World := ⟨.empty, fun _ ↦ 0⟩

/-- A service instance. -/
inductive Service where
  | inventoryd (i : Nat)
  | broker (b : Nat)
  deriving DecidableEq

/-- A call of a public method of an instance. -/
inductive Call where
  | newChallenge (b : Nat)
  | issue (b : Nat) (request : RawIssuanceRequest) (manifest : Value)
      (tpmEvidence : RawTpmEvidence)
  | issueResourceChallenge (i : Nat) (credentialId : Text) (arguments : InventoryArguments)
      (recordId : Text)
  | redeem (i : Nat) (request : LookupInput)
  | directLookupAttempt (i : Nat) (arguments : List (Text × Value))
  | callTool (i : Nat) (name : Text) (arguments : Option (List (Text × Value)))

/-- The instance a call runs in. -/
def Call.owner : Call → Service
  | .newChallenge b => .broker b
  | .issue b _ _ _ => .broker b
  | .issueResourceChallenge i _ _ _ => .inventoryd i
  | .redeem i _ => .inventoryd i
  | .directLookupAttempt i _ => .inventoryd i
  | .callTool i _ _ => .inventoryd i

/-- What a call returns. -/
inductive Answer where
  | token (t : Text)
  | decision (d : Decision)
  | challenge (c : ResourceChallenge)
  | tool (r : CallToolResult)

/-- What the environment decides when an operation is executed. -/
abbrev Op.Input : Op → Type
  | .clock => Except Exn Int
  | .tokenHex n => { b : Bytes // b.length = n }
  | .lib c => Except Exn c.Result
  | .sign .. => Option Exn
  | .storeBrokerChallenge .. => Faults
  | .consumeBrokerChallenge _ => Except Exn Int × Faults
  | .storeResourceChallenge .. => Faults
  | .getResourceChallenge _ => Faults
  | .spend _ => Except Exn Int × Faults
  | .recordInvocation _ => Unit
  | .invocationCount _ => Unit
  | .inventoryLookup .. => Option (Except Exn (List (Text × Value)))

namespace Deployment

variable (D : Deployment)

/-- Execute one operation. The handler and the signer are those of the source unless the
environment makes them fail or replaces the handler. -/
def exec : (e : Op) → e.Input → World → e.Reply × World
  | .clock, reading, w => (reading, w)
  | .tokenHex _, bytes, w => (hex bytes.val, w)
  | .lib _, answer, w => (answer, w)
  | .sign signer payload, outage, w =>
    (match outage with
      | some e => .error e
      | none => signer.sign D.lib payload, w)
  | .storeBrokerChallenge tokenHash issuedAt expiresAt, f, w =>
    let r := Store.storeBrokerChallenge tokenHash issuedAt expiresAt f w.store
    (r.1, { w with store := r.2 })
  | .consumeBrokerChallenge tokenHash, x, w =>
    let r := Store.consumeBrokerChallenge tokenHash x.1 x.2 w.store
    (r.1, { w with store := r.2 })
  | .storeResourceChallenge tokenHash context issuedAt expiresAt, f, w =>
    let r := Store.storeResourceChallenge tokenHash context issuedAt expiresAt f w.store
    (r.1, { w with store := r.2 })
  | .getResourceChallenge tokenHash, f, w => (w.store.getResourceChallenge tokenHash f, w)
  | .spend a, x, w =>
    let r := Store.consumeChallengeAndSpendCredential a x.1 x.2 w.store
    (r.1, { w with store := r.2 })
  | .recordInvocation i, _, w =>
    (w.counter i + 1, { w with counter := Function.update w.counter i (w.counter i + 1) })
  | .invocationCount i, _, w => (w.counter i, w)
  | .inventoryLookup i sku, replaced, w => (replaced.getD (.ok ((D.app i).inventoryLookup sku)), w)

/-- The body of a call. -/
def body : Call → Py Unit Answer
  | .newChallenge b => Answer.token <$> (D.broker b).newChallenge
  | .issue b request manifest tpmEvidence =>
    Answer.decision <$> (D.broker b).issue D.lib request manifest tpmEvidence
  | .issueResourceChallenge i credentialId arguments recordId =>
    Answer.challenge <$> (D.app i).issueResourceChallenge D.lib credentialId arguments recordId
  | .redeem i request => Answer.decision <$> (D.app i).redeem D.lib i request
  | .directLookupAttempt i arguments =>
    Answer.decision <$> (D.app i).directLookupAttempt D.lib i arguments
  | .callTool i name arguments => Answer.tool <$> (D.app i).callTool D.lib i name arguments

/-- The services as a system of interleaved calls. -/
def system : System Op Op.Reply World Service Call (Except Exn Answer) where
  Input := Op.Input
  exec := D.exec
  body := fun c ↦ (D.body c).prog
  owner := Call.owner
  restart := fun
    | .inventoryd i, w => { w with counter := Function.update w.counter i 0 }
    | .broker _, w => w

/-- The labels of the steps of a run. -/
abbrev Trace := List D.system.Label

/-- What a call issued so far. -/
abbrev history (t : Nat) (tr : D.Trace) : History := D.system.own t tr

end Deployment
end Atcap
