import StackDepth.AddressSet
import StackDepth.Analysis.Pass
import StackDepth.Analysis.Program
import StackDepth.CallGraph.Basic
import StackDepth.CallGraph.Catalogue
import StackDepth.CommandLine.Options
import StackDepth.CommandLine.Record
import StackDepth.CommandLine.Run
import StackDepth.Config
import StackDepth.Diagnostic
import StackDepth.Dump.Bytes
import StackDepth.Dump.Report
import StackDepth.Dump.Trace
import StackDepth.Files.FileTree
import StackDepth.Files.PathName
import StackDepth.Listing.Line
import StackDepth.Listing.Reading
import StackDepth.Listing.Scan
import StackDepth.Listing.StackPointer
import StackDepth.Main
import StackDepth.Proofs.Analysis.Accounting
import StackDepth.Proofs.Analysis.Containment
import StackDepth.Proofs.Analysis.Effect
import StackDepth.Proofs.Analysis.Figures
import StackDepth.Proofs.Analysis.FrameLoads
import StackDepth.Proofs.Analysis.Locality
import StackDepth.Proofs.Analysis.Nesting
import StackDepth.Proofs.Analysis.Ownership
import StackDepth.Proofs.Analysis.Partition
import StackDepth.Proofs.Analysis.Program
import StackDepth.Proofs.Analysis.ReserveRelease
import StackDepth.Proofs.Analysis.SmallFrames
import StackDepth.Proofs.Analysis.SourceText
import StackDepth.Proofs.Analysis.UsageBound
import StackDepth.Proofs.Analysis.Visits
import StackDepth.Proofs.CallGraph.Callers
import StackDepth.Proofs.CallGraph.FailedBuild
import StackDepth.Proofs.CallGraph.Intervals
import StackDepth.Proofs.CallGraph.Lookup
import StackDepth.Proofs.CallGraph.Resolution
import StackDepth.Proofs.CallGraph.Targets
import StackDepth.Proofs.CallGraph.WriteOnce
import StackDepth.Proofs.CommandLine.Reports
import StackDepth.Proofs.Dump.Language
import StackDepth.Proofs.Dump.Placement
import StackDepth.Proofs.Dump.Progress
import StackDepth.Proofs.Dump.RoundTrip
import StackDepth.Proofs.Dump.Tiling
import StackDepth.Proofs.Files.Writing
import StackDepth.Proofs.Listing.Disassembly
import StackDepth.Proofs.Listing.Label
import StackDepth.Proofs.Listing.LineEnds
import StackDepth.Proofs.Listing.Mnemonics
import StackDepth.Proofs.Listing.Printing
import StackDepth.Proofs.Listing.Readings
import StackDepth.Proofs.Listing.Recognition
import StackDepth.Proofs.Listing.SourceText
import StackDepth.Proofs.Listing.Update
import StackDepth.Proofs.Routine.ShortName
import StackDepth.Proofs.StackPath.CallChains
import StackDepth.Proofs.StackPath.Coverage
import StackDepth.Proofs.StackPath.Expansion
import StackDepth.Proofs.StackPath.Extent
import StackDepth.Proofs.StackPath.Monotonicity
import StackDepth.Proofs.StackPath.RunningTotals
import StackDepth.Proofs.StackPath.Survey
import StackDepth.Proofs.StackPath.Unfolding
import StackDepth.Proofs.StackPath.VisitSet
import StackDepth.Proofs.StackPath.WorstCaseBound
import StackDepth.Proofs.StackPath.WorstPath
import StackDepth.Proofs.Text.Utf8
import StackDepth.Routine.Basic
import StackDepth.Routine.ShortName
import StackDepth.StackPath.Basic
import StackDepth.StackPath.Report
import StackDepth.StackPath.Survey
import StackDepth.StackPath.Walk
import StackDepth.Text.Blank
import StackDepth.Text.CodeRange
import StackDepth.Text.DecimalDigit
import StackDepth.Text.Lines
import StackDepth.Text.Numeral
import StackDepth.Text.Printable
import StackDepth.Text.Quoted
import StackDepth.Text.Utf8
import StackDepth.Text.WordChar
