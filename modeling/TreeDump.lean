import TreeDump.Word
import TreeDump.Fingerprint.Md5
import TreeDump.Fingerprint.Listing
import TreeDump.Wire.Field
import TreeDump.Wire.Line
import TreeDump.Wire.Document
import TreeDump.Json
import TreeDump.Entry.Basic
import TreeDump.Entry.Order
import TreeDump.Entry.Json
import TreeDump.Entry.Replay
import TreeDump.Entry.Listing
import TreeDump.Engine.Cursor
import TreeDump.Engine.Walk
import TreeDump.Engine.Listing
import TreeDump.Engine.Replay
import TreeDump.IdTable
import TreeDump.CuckooTable
import TreeDump.Text.Blank
import TreeDump.Text.Utf8
import TreeDump.Snapshot
import TreeDump.Snapshot.Stored
import TreeDump.Scan.Walker
import TreeDump.Scan.Limits
import TreeDump.Scan.Stats
import TreeDump.Scan.Chain
import TreeDump.Scan.Pairing
import TreeDump.Scan.Run
import TreeDump.Scan.Summary
import TreeDump.Walkers.Memory
import TreeDump.Walkers.Loop
import TreeDump.Inventory
import TreeDump.Command.Arg
import TreeDump.Command.Parse
import TreeDump.Command.Request
import TreeDump.Command.Run
import TreeDump.Command.Usage
import TreeDump.Disk.Lookup
import TreeDump.Disk.Path
import TreeDump.Disk.Node
import TreeDump.Glob
import TreeDump.Main
import TreeDump.Text.Printable
import TreeDump.Text.Quoted
import TreeDump.Text.Similarity
import TreeDump.Walkers.Disk
import TreeDump.Proofs.Table
import TreeDump.Proofs.TableMap
import TreeDump.Proofs.Wire
import TreeDump.Proofs.Utf8
import TreeDump.Proofs.Tree
import TreeDump.Proofs.Reading
import TreeDump.Proofs.Rebuild
import TreeDump.Proofs.ScanSteps
import TreeDump.Proofs.Order
import TreeDump.Proofs.ScanTree
import TreeDump.Proofs.Dump
import TreeDump.Proofs.Roundtrip
import TreeDump.Proofs.Accepted
import TreeDump.Proofs.PatchLines
import TreeDump.Proofs.ScanErrors
import TreeDump.Proofs.Budget
import TreeDump.Proofs.Numbering
import TreeDump.Proofs.InStep
import TreeDump.Proofs.Shape
import TreeDump.Proofs.NextSnapshot
import TreeDump.Proofs.FirstDiff
import TreeDump.Proofs.Carrying
import TreeDump.Proofs.SelfDiff
import TreeDump.Proofs.WideScan
import TreeDump.Proofs.Records
import TreeDump.Proofs.AcceptedOrder
import TreeDump.Proofs.Registry
import TreeDump.Proofs.Placement
import TreeDump.Proofs.Incremental
import TreeDump.Proofs.Md5Standard
import TreeDump.Proofs.Md5Conformance
import TreeDump.Proofs.IdHeadroom
import TreeDump.Proofs.LineGrammar
import TreeDump.Proofs.LoopCut
import TreeDump.Proofs.DepthFirst
import TreeDump.Proofs.FullListing
import TreeDump.Proofs.ReplayWalk
import TreeDump.Proofs.CuckooLayout
import TreeDump.Proofs.CuckooAttempts
import TreeDump.Proofs.CuckooLoad
import TreeDump.Proofs.CuckooLoss
import TreeDump.Proofs.StoredTable
import TreeDump.Proofs.StoredReading
import TreeDump.Proofs.MergeByName
import TreeDump.Proofs.CursorZipper
import TreeDump.Proofs.BuildContents
import TreeDump.Proofs.DiffRecords
import TreeDump.Proofs.Announcements
