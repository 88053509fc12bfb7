import ByteStore.Decimal.Layout
import ByteStore.Json.Record
import ByteStore.Text.Blank
import ByteStore.Text.Quoted
import ByteStore.Text.Utf8
import ByteStore.Wire.Batch
import ByteStore.Wire.Scan
import ByteStore.Session
import ByteStore.Proofs.Store.Operations
import ByteStore.Proofs.Store.Reference
import ByteStore.Proofs.Bytes.Beginning
import ByteStore.Proofs.Bytes.Bounds
import ByteStore.Proofs.Store.Reachable
import ByteStore.Proofs.Store.Iteration
import ByteStore.Proofs.Store.Visits
import ByteStore.Proofs.Store.Rearrangement
import ByteStore.Proofs.Wire.Batch
import ByteStore.Proofs.Host.Opening
import ByteStore.Proofs.Session.Batch
import ByteStore.Proofs.HandleTable
import ByteStore.Proofs.Session.Failure
import ByteStore.Proofs.Session.LastError
import ByteStore.Proofs.Host.Durability
import ByteStore.Proofs.Wire.Scan
import ByteStore.Proofs.Session.Stored
import ByteStore.Proofs.Host.Directories
import ByteStore.Proofs.Session.Checks
import ByteStore.Proofs.Host.Additions
import ByteStore.Proofs.Host.Sittings
import ByteStore.Proofs.FileTree.Text
import ByteStore.Proofs.Host.Preparing
import ByteStore.Proofs.Wire.Cut
import ByteStore.Proofs.Wire.Rejection
import ByteStore.Proofs.Session.Tables
import ByteStore.Proofs.Wire.Truncation
import ByteStore.Proofs.Wire.Scan.Truncation
import ByteStore.Proofs.Session.Scan
import ByteStore.Proofs.Session.Interleaving
import ByteStore.Proofs.Json.Spelling
import ByteStore.Proofs.Json.Written
import ByteStore.Proofs.Json.Record
import ByteStore.Proofs.Json.Tagged
import ByteStore.Proofs.Json.Literal
import ByteStore.Proofs.Json.Symbol
import ByteStore.Proofs.Json.Grammar
import ByteStore.Proofs.Json.Form
import ByteStore.Proofs.Json.Skip
import ByteStore.Proofs.Json.Makes
import ByteStore.Proofs.Json.Row
import ByteStore.Proofs.Json.Passed
import ByteStore.Proofs.Json.Accepted
import ByteStore.Proofs.Json.Edits
import ByteStore.Proofs.ObjectStore
import ByteStore.Proofs.Location
import ByteStore.Proofs.Location.Enclosure
import ByteStore.Proofs.Location.Plain
import ByteStore.Proofs.Location.Described
import ByteStore.Proofs.Location.Edited
import ByteStore.Proofs.Session.Opening
import ByteStore.Proofs.Host.Keys
import ByteStore.Proofs.Session.Foreseen
import ByteStore.Proofs.Session.Live
