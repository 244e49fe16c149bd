import Atcap.Base.Text
import Atcap.Base.Sha256
import Atcap.Base.Value
import Atcap.Base.Encoding
import Atcap.Base.Json
import Atcap.Base.JsonParser
import Atcap.Base.JsonRoundTrip
import Atcap.Base.JsonCanonical
import Atcap.Base.Table
import Atcap.Base.Program
import Atcap.Base.Interleave
import Atcap.Errors
import Atcap.Canonical
import Atcap.Policy
import Atcap.Models
import Atcap.Receipt
import Atcap.Receipt.Verify
import Atcap.Reference
import Atcap.Receipt.Format
import Atcap.Storage
import Atcap.Storage.Changes
import Atcap.Storage.Invariant
import Atcap.Storage.Writes
import Atcap.Effects
import Atcap.Challenge
import Atcap.History
import Atcap.Inventory
import Atcap.Inventory.Spec
import Atcap.Inventory.Receipts
import Atcap.Inventory.Signing
import Atcap.Inventory.Decision
import Atcap.Inventory.Numbering
import Atcap.Inventory.Race
import Atcap.Inventory.Composition
import Atcap.Inventory.Outcome
import Atcap.Identity
import Atcap.ManifestVerifier
import Atcap.Tpm
import Atcap.Broker
import Atcap.Broker.Spec
import Atcap.Broker.Operations
import Atcap.Mcp
import Atcap.Mcp.Spec
import Atcap.System
import Atcap.System.Schedule
import Atcap.System.Decision
import Atcap.System.Calls
import Atcap.System.Effect
import Atcap.System.Redemptions
import Atcap.System.Numbering
import Atcap.System.Authorization
import Atcap.System.Issuance
import Atcap.System.Evidence
import Atcap.System.Race
import Atcap.System.Permanence
import Atcap.System.Dispatch
import Atcap.System.Composition
import Atcap.System.Outcome
import Atcap.Lab.WorkerWire
import Atcap.Lab.Wire
import Atcap.System.Writes
import Atcap.Policy.Commitment
import Atcap.Broker.Outcome
import Atcap.System.Atomicity
import Atcap.System.Commitment
import Atcap.Broker.Decision
import Atcap.System.Catalog
import Atcap.System.IssuanceDecision
import Atcap.Lab.Capture
import Atcap.Lab.Cleanup
import Atcap.Lab.Projection
import Atcap.Lab.RecordSpec
import Atcap.Lab.RecordTrace
import Atcap.Lab.Evidence
import Atcap.Base.Bitmap
import Atcap.Tpm.Selection
import Atcap.Challenge.Token
import Atcap.System.Expiry
import Atcap.Lab.BoundedRead
import Atcap.Base.JsonHooks
import Atcap.Lab.BoundedJson
import Atcap.Lab.Restore
import Atcap.Mcp.Answer
import Atcap.System.Answer
import Atcap.Broker.Answer
import Atcap.System.IssuanceAnswer
import Atcap.Base.Client
import Atcap.Lab.ProviderReadback
import Atcap.Lab.Record
import Atcap.Lab.State
import Atcap.Tpm.Appraisal
import Atcap.Lab.Controller
import Atcap.Lab.LiveCli
import Atcap.Base.Returning
import Atcap.Lab.Validation
import Atcap.Lab.Bundle
import Atcap.Lab.Observation
import Atcap.Lab.Finalize
import Atcap.Lab.Laboratory
import Atcap.Lab.Preparation
import Atcap.Lab.Exclusive
import Atcap.Lab.Denial
import Atcap.System.Insertions
import Atcap.Base.ClientSchedule
import Atcap.Base.JsonSize
