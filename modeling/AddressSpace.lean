import AddressSpace.Address.Basic
import AddressSpace.Address.Host
import AddressSpace.Address.Source
import AddressSpace.Address.Text
import AddressSpace.Allocator
import AddressSpace.Binary64.Basic
import AddressSpace.Binary64.Decimal
import AddressSpace.Binary64.Rounded
import AddressSpace.Binary64.Shortest
import AddressSpace.CommandLine.Command
import AddressSpace.CommandLine.Sources
import AddressSpace.CommandLine.System
import AddressSpace.CommandLine.Transcript
import AddressSpace.CommandLine.Usage
import AddressSpace.Document.Basic
import AddressSpace.Document.Issue
import AddressSpace.Family
import AddressSpace.Files
import AddressSpace.FreeList
import AddressSpace.Interval
import AddressSpace.Journal
import AddressSpace.Journal.Plan
import AddressSpace.Json.Basic
import AddressSpace.Json.Reader
import AddressSpace.Loading
import AddressSpace.Main
import AddressSpace.Notice
import AddressSpace.Number
import AddressSpace.Octets
import AddressSpace.PerPool
import AddressSpace.Pool
import AddressSpace.Settings.Basic
import AddressSpace.Settings.Entry
import AddressSpace.Settings.Ini
import AddressSpace.Settings.Log
import AddressSpace.Text.Blank
import AddressSpace.Text.Cased
import AddressSpace.Text.CodePoint
import AddressSpace.Text.Control
import AddressSpace.Text.Conversion
import AddressSpace.Text.Digits
import AddressSpace.Text.Field
import AddressSpace.Text.Layout
import AddressSpace.Text.Lower
import AddressSpace.Text.Printable
import AddressSpace.Text.Quoted
import AddressSpace.Text.Separated
import AddressSpace.Text.Similar
import AddressSpace.Text.Template
import AddressSpace.Text.Utf8
import AddressSpace.Proofs.Text.Blank
import AddressSpace.Proofs.Text.Whole
import AddressSpace.Proofs.Json.Whole
import AddressSpace.Proofs.Address.Value
import AddressSpace.Proofs.Address.Host
import AddressSpace.Proofs.Address.Text
import AddressSpace.Proofs.Interval
import AddressSpace.Proofs.FreeList.Canonical
import AddressSpace.Proofs.FreeList.Edits
import AddressSpace.Proofs.FreeList.Block
import AddressSpace.Proofs.FreeList.Ascending
import AddressSpace.Proofs.FreeList.Minimal
import AddressSpace.Proofs.Allocator.Effect
import AddressSpace.Proofs.Allocator.Canonical
import AddressSpace.Proofs.Allocator.AddressSet
import AddressSpace.Proofs.Allocator.Requests
import AddressSpace.Proofs.Allocator.Uniqueness
import AddressSpace.Proofs.Allocator.Provenance
import AddressSpace.Proofs.Allocator.Tenancy
import AddressSpace.Proofs.Pool.Routing
import AddressSpace.Proofs.Pool.Operation
import AddressSpace.Proofs.Pool.Independence
import AddressSpace.Proofs.Document.Checked
import AddressSpace.Proofs.Document.Wording
import AddressSpace.Proofs.Loading.Reachable
import AddressSpace.Proofs.Loading.Supply
import AddressSpace.Proofs.Loading.Document
import AddressSpace.Proofs.Settings.Entry
import AddressSpace.Proofs.Loading.Settings
import AddressSpace.Proofs.Notice
import AddressSpace.Proofs.Loading.Reported
import AddressSpace.Proofs.Json.Dialect
import AddressSpace.Proofs.Json.Lexical
import AddressSpace.Proofs.Json.Grammar
import AddressSpace.Proofs.Text.Utf8
import AddressSpace.Proofs.Text.Digits
import AddressSpace.Proofs.Text.Separated
import AddressSpace.Proofs.Loading.DocumentFile
import AddressSpace.Proofs.Loading.Reload
import AddressSpace.Proofs.Allocator.Edits
import AddressSpace.Proofs.FreeList.BlockEnd
import AddressSpace.Proofs.Allocator.Blocks
import AddressSpace.Proofs.Allocator.Refusals
import AddressSpace.Proofs.Loading.Spellings
import AddressSpace.Proofs.Allocator.Absorption
import AddressSpace.Proofs.Allocator.Removal
import AddressSpace.Proofs.Allocator.Aligned
import AddressSpace.Proofs.Document.Permuted
import AddressSpace.Proofs.Loading.Seeding
import AddressSpace.Proofs.Json.Limits
import AddressSpace.Proofs.Document.Meaning
import AddressSpace.Proofs.Document.Located
import AddressSpace.Proofs.Allocator.Served
import AddressSpace.Proofs.CommandLine.Output
import AddressSpace.Proofs.CommandLine.Listing
import AddressSpace.Proofs.CommandLine.HandOuts
import AddressSpace.Proofs.Address.Distinct
import AddressSpace.Proofs.Address.Normal
import AddressSpace.Proofs.Loading.Entry
import AddressSpace.Proofs.Allocator.Length
import AddressSpace.Proofs.Address.Steps
import AddressSpace.Proofs.Address.Order
import AddressSpace.Proofs.FreeList.Count
import AddressSpace.Proofs.FreeList.Sweep
import AddressSpace.Proofs.Allocator.Count
import AddressSpace.Proofs.Allocator.Guarded
import AddressSpace.Proofs.Address.Jumps
