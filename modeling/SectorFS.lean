import SectorFS.Directory.Basic
import SectorFS.Directory.Name
import SectorFS.Directory.Slot
import SectorFS.Directory.Tree
import SectorFS.Disk.Basic
import SectorFS.Disk.Faults
import SectorFS.Disk.Image
import SectorFS.Disk.Sector
import SectorFS.Failure
import SectorFS.File.Block
import SectorFS.File.Chain
import SectorFS.File.Contents
import SectorFS.File.Handle
import SectorFS.File.Header
import SectorFS.FreeMap.Basic
import SectorFS.FreeMap.Codec
import SectorFS.FreeMap.Stored
import SectorFS.Layout
import SectorFS.Main
import SectorFS.Path
import SectorFS.Proofs.Directory.InFile
import SectorFS.Proofs.Directory.Names
import SectorFS.Proofs.Directory.SlotMap
import SectorFS.Proofs.Directory.Stored
import SectorFS.Proofs.Directory.Table
import SectorFS.Proofs.Disk.Answers
import SectorFS.Proofs.Disk.Cursor
import SectorFS.Proofs.Disk.Medium
import SectorFS.Proofs.Disk.Reads
import SectorFS.Proofs.Disk.Runs
import SectorFS.Proofs.Disk.Store
import SectorFS.Proofs.Disk.Trace
import SectorFS.Proofs.Disk.Transfers
import SectorFS.Proofs.Disk.Tries
import SectorFS.Proofs.File.Allocation
import SectorFS.Proofs.File.Block
import SectorFS.Proofs.File.Bytes
import SectorFS.Proofs.File.Chain
import SectorFS.Proofs.File.Contents
import SectorFS.Proofs.File.Cursor
import SectorFS.Proofs.File.Header
import SectorFS.Proofs.File.InPlace
import SectorFS.Proofs.File.Pieces
import SectorFS.Proofs.File.Recorded
import SectorFS.Proofs.File.Retry
import SectorFS.Proofs.File.RoundTrip
import SectorFS.Proofs.File.Sharing
import SectorFS.Proofs.File.Transfer
import SectorFS.Proofs.File.Untrusted
import SectorFS.Proofs.FreeMap.Bytes
import SectorFS.Proofs.FreeMap.Claims
import SectorFS.Proofs.FreeMap.Histories
import SectorFS.Proofs.FreeMap.Packed
import SectorFS.Proofs.FreeMap.Represented
import SectorFS.Proofs.FreeMap.Stored
import SectorFS.Proofs.Size
import SectorFS.Proofs.Text.Rendering
import SectorFS.Proofs.Tool.Sessions
import SectorFS.Proofs.Tool.Tasks
import SectorFS.Proofs.Volume.Catalog
import SectorFS.Proofs.Volume.Create
import SectorFS.Proofs.Volume.Cut
import SectorFS.Proofs.Volume.Descriptors
import SectorFS.Proofs.Volume.Effect
import SectorFS.Proofs.Volume.Enter
import SectorFS.Proofs.Volume.Files
import SectorFS.Proofs.Volume.Format
import SectorFS.Proofs.Volume.Formatted
import SectorFS.Proofs.Volume.Insertion
import SectorFS.Proofs.Volume.Interlude
import SectorFS.Proofs.Volume.LaidOut
import SectorFS.Proofs.Volume.Listed
import SectorFS.Proofs.Volume.Listing
import SectorFS.Proofs.Volume.Lookup
import SectorFS.Proofs.Volume.Make
import SectorFS.Proofs.Volume.Mount
import SectorFS.Proofs.Volume.Namespace
import SectorFS.Proofs.Volume.Numbers
import SectorFS.Proofs.Volume.Observe
import SectorFS.Proofs.Volume.Ownership
import SectorFS.Proofs.Volume.Paths
import SectorFS.Proofs.Volume.Placement
import SectorFS.Proofs.Volume.Reachable
import SectorFS.Proofs.Volume.Refinement
import SectorFS.Proofs.Volume.Relink
import SectorFS.Proofs.Volume.Remount
import SectorFS.Proofs.Volume.Removal
import SectorFS.Proofs.Volume.Remove
import SectorFS.Proofs.Volume.Renumber
import SectorFS.Proofs.Volume.Run
import SectorFS.Proofs.Volume.Spelling
import SectorFS.Proofs.Volume.Steps
import SectorFS.Proofs.Volume.TakenOut
import SectorFS.Proofs.Volume.Traversal
import SectorFS.Proofs.Volume.Undo
import SectorFS.Proofs.Volume.Unreadable
import SectorFS.Proofs.Word
import SectorFS.Size
import SectorFS.Text.Printable
import SectorFS.Text.Quoted
import SectorFS.Text.Utf8
import SectorFS.Tool.Arguments
import SectorFS.Tool.Command
import SectorFS.Tool.Host
import SectorFS.Tool.Outcome
import SectorFS.Tool.Place
import SectorFS.Tool.Run
import SectorFS.Volume.Basic
import SectorFS.Volume.Create
import SectorFS.Volume.Descriptors
import SectorFS.Volume.Format
import SectorFS.Volume.Lookup
import SectorFS.Volume.Mount
import SectorFS.Volume.Remove
import SectorFS.Volume.Report
import SectorFS.Volume.Request
import SectorFS.Word
