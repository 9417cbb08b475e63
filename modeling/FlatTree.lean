import FlatTree.Main
import FlatTree.View.Unfold
import FlatTree.Build.Tree
import FlatTree.Document.Load
import FlatTree.Document.Writer
import FlatTree.Proofs.Decode.Outcome
import FlatTree.Proofs.Buffer.Read
import FlatTree.Proofs.Buffer.Reference
import FlatTree.Proofs.Value.Entries
import FlatTree.Proofs.Tree.Promotion
import FlatTree.Proofs.Tree.Lookup
import FlatTree.Proofs.Decode.Unfolding
import FlatTree.Proofs.Decode.Eager
import FlatTree.Proofs.View.Traversal
import FlatTree.Proofs.View.Materialize
import FlatTree.Proofs.View.Lookup
import FlatTree.Proofs.Buffer.Word
import FlatTree.Proofs.Buffer.Layout
import FlatTree.Proofs.Buffer.Heap
import FlatTree.Proofs.Buffer.Tiling
import FlatTree.Proofs.Buffer.Scan
import FlatTree.Proofs.Buffer.Split
import FlatTree.Proofs.Build.Runs
import FlatTree.Proofs.Build.Stored
import FlatTree.Proofs.Build.BreadthFirst
import FlatTree.Proofs.View.Unfold
import FlatTree.Proofs.Build.RoundTrip
import FlatTree.Proofs.Build.Laid
import FlatTree.Proofs.Document.Segment
import FlatTree.Proofs.Document.Writer
import FlatTree.Proofs.Document.Census
import FlatTree.Proofs.Document.LayOut
import FlatTree.Proofs.Document.RoundTrip
import FlatTree.Proofs.Package.Column
import FlatTree.Proofs.Document.Json
import FlatTree.Proofs.Document.Table
import FlatTree.Proofs.Package.Load
import FlatTree.Proofs.Build.Cut
import FlatTree.Proofs.Document.Cut
import FlatTree.Proofs.Decode.Agreement
import FlatTree.Proofs.Decode.Bisimulation
import FlatTree.Proofs.Buffer.Interchange
import FlatTree.Proofs.View.Interchange
import FlatTree.Proofs.Build.Interchange
import FlatTree.Proofs.View.Navigation
import FlatTree.Proofs.View.Keys
import FlatTree.Proofs.Session.Bracket
import FlatTree.Proofs.Decode.Walk
import FlatTree.Proofs.Decode.Limit
import FlatTree.Proofs.Decode.Blame
import FlatTree.Proofs.View.Walk
import FlatTree.Proofs.View.Plain
import FlatTree.Proofs.View.Arguments
import FlatTree.Proofs.View.Selection
import FlatTree.Proofs.Document.Placement
import FlatTree.Proofs.Document.Steps
import FlatTree.Proofs.Document.Filled
import FlatTree.Proofs.Document.References
import FlatTree.Proofs.Document.Partition
import FlatTree.Proofs.Package.Interchange
import FlatTree.Proofs.Package.Slack
import FlatTree.Proofs.View.Stack
import FlatTree.Proofs.View.Halting
import FlatTree.Proofs.View.Blame
import FlatTree.Proofs.Document.Compression
import FlatTree.Proofs.Build.Stretch
import FlatTree.Proofs.Build.LongRuns
import FlatTree.Proofs.Build.ShortRuns
import FlatTree.Proofs.Buffer.ReadBack
import FlatTree.Proofs.Build.Entries
import FlatTree.Proofs.Build.Numbering
import FlatTree.Proofs.Text.Split
import FlatTree.Proofs.Url.Form
import FlatTree.Proofs.Url.Authority
import FlatTree.Proofs.Session.Request
import FlatTree.Proofs.Session.Dialogue
import FlatTree.Proofs.Document.Typed
import FlatTree.Proofs.Package.Tables
