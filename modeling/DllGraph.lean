import DllGraph.Main
import DllGraph.Proofs.Scan.Growth
import DllGraph.Proofs.Scan.Invariant
import DllGraph.Proofs.Scan.Roots
import DllGraph.Proofs.Scan.Dedup
import DllGraph.Proofs.Scan.Depth
import DllGraph.Proofs.Exports
import DllGraph.Proofs.Pairing
import DllGraph.Proofs.FileTree
import DllGraph.Proofs.TextNames
import DllGraph.Proofs.Imports
import DllGraph.Proofs.Lookup
import DllGraph.Proofs.Scan.Termination
import DllGraph.Proofs.Check
import DllGraph.Proofs.Scan.Location
import DllGraph.Proofs.Scan.Confluence
import DllGraph.Proofs.Scan.Contents
import DllGraph.Proofs.Scan.Closure
import DllGraph.Proofs.Scan.Loop
import DllGraph.Proofs.Scan.Mention
import DllGraph.Proofs.Image.Fault
import DllGraph.Proofs.Image.Reading
import DllGraph.Proofs.Image.Headers
import DllGraph.Proofs.Image.Writing
import DllGraph.Proofs.Image.Text
import DllGraph.Proofs.Image.Address
import DllGraph.Proofs.Image.Truncation
import DllGraph.Proofs.Image.RepeatedNames
import DllGraph.Proofs.Image.StoredImports
import DllGraph.Proofs.Image.Accounting
import DllGraph.Proofs.Image.StoredExports
import DllGraph.Proofs.Tree.Lines
import DllGraph.Proofs.Tree.Printing
import DllGraph.Proofs.Tree.Completeness
import DllGraph.Proofs.Image.Checked
import DllGraph.Proofs.Image.CheckedTables
import DllGraph.Proofs.Search.Spelling
import DllGraph.Proofs.Search.Yields
import DllGraph.Proofs.Search.Redirections
import DllGraph.Proofs.Search.Caching
import DllGraph.Proofs.Search.KnownDlls
import DllGraph.Proofs.Search.SafeMode
import DllGraph.Proofs.Findings
import DllGraph.Proofs.Image.Layout
import DllGraph.Proofs.Image.WellFormed
import DllGraph.Proofs.Image.Cutting
import DllGraph.Proofs.Listing
import DllGraph.Proofs.Image.Hints
import DllGraph.Proofs.Image.Ordinals
import DllGraph.Proofs.Image.Rebasing
import DllGraph.Proofs.Search.ImporterDirectory
import DllGraph.Proofs.Search.Declarations
import DllGraph.Proofs.Image.SectionOrder
import DllGraph.Proofs.Image.Sentinel
import DllGraph.Proofs.Image.TextWindow
import DllGraph.Proofs.Image.EntryKinds
import DllGraph.Proofs.Text.Lines
import DllGraph.Proofs.Search.PathFile
import DllGraph.Proofs.Search.KnownNames
