import GoReach.Analysis
import GoReach.Codec
import GoReach.Command.Arguments
import GoReach.Command.Run
import GoReach.Declaration
import GoReach.Disk.Basic
import GoReach.Disk.Search
import GoReach.Entrypoint
import GoReach.Error
import GoReach.Go.Grammar
import GoReach.Go.Language
import GoReach.Go.Naming
import GoReach.Go.Reference
import GoReach.Go.SourceFile
import GoReach.Grammar.Alphabet
import GoReach.Grammar.Automaton
import GoReach.Grammar.Item
import GoReach.Grammar.Language
import GoReach.Grammar.Lexicon
import GoReach.Grammar.Merge
import GoReach.Grammar.Pattern
import GoReach.Grammar.Production
import GoReach.Grammar.Rule
import GoReach.Grammar.Scanner
import GoReach.Grammar.Table
import GoReach.Graph.Basic
import GoReach.Graph.Search
import GoReach.Import
import GoReach.Json.Literal
import GoReach.Json.Value
import GoReach.Main
import GoReach.Manifest
import GoReach.Module
import GoReach.NameTable
import GoReach.Parse.Machine
import GoReach.Parse.Recovery
import GoReach.Parse.Reduce
import GoReach.Parse.Source
import GoReach.Parse.Stack
import GoReach.Parse.Standing
import GoReach.Parse.Token
import GoReach.Parse.Tree
import GoReach.Parse.Visible
import GoReach.Path.Basic
import GoReach.Proofs.Analysis
import GoReach.Proofs.Attribution
import GoReach.Proofs.Codec
import GoReach.Proofs.Collisions
import GoReach.Proofs.Command.Visualize
import GoReach.Proofs.Comparison
import GoReach.Proofs.Completion
import GoReach.Proofs.DefiningNames
import GoReach.Proofs.Disk.Project
import GoReach.Proofs.Disk.Search
import GoReach.Proofs.Disk.Selection
import GoReach.Proofs.Disk.Writing
import GoReach.Proofs.Failure
import GoReach.Proofs.FileOrder
import GoReach.Proofs.Go.Definitions
import GoReach.Proofs.Go.Extraction
import GoReach.Proofs.Go.Names
import GoReach.Proofs.Go.Placement
import GoReach.Proofs.Go.Receiver
import GoReach.Proofs.Go.TopLevel
import GoReach.Proofs.Graph.Calls
import GoReach.Proofs.Graph.Consistency
import GoReach.Proofs.Graph.DepthFirst
import GoReach.Proofs.Graph.Reachability
import GoReach.Proofs.Growth
import GoReach.Proofs.Identity
import GoReach.Proofs.Json.RoundTrip
import GoReach.Proofs.Json.Values
import GoReach.Proofs.Locality
import GoReach.Proofs.Manifest.Line
import GoReach.Proofs.Manifest.ModulePath
import GoReach.Proofs.Module
import GoReach.Proofs.NameTable
import GoReach.Proofs.Omission
import GoReach.Proofs.Order
import GoReach.Proofs.Path
import GoReach.Proofs.Path.Below
import GoReach.Proofs.Path.Spelling
import GoReach.Proofs.Report.Clusters
import GoReach.Proofs.Report.Dot
import GoReach.Proofs.Report.Drawing
import GoReach.Proofs.Report.Listing
import GoReach.Proofs.Report.Quoting
import GoReach.Proofs.Report.Summary
import GoReach.Proofs.Resolution
import GoReach.Proofs.Sorted
import GoReach.Proofs.SortedSet
import GoReach.Proofs.Syntax.FirstFault
import GoReach.Proofs.Syntax.Preorder
import GoReach.Proofs.Syntax.Walk
import GoReach.Proofs.Targets
import GoReach.Proofs.Text.Bytes
import GoReach.Proofs.Text.Characters
import GoReach.Report.Dot
import GoReach.Report.Listing
import GoReach.Report.Summary
import GoReach.Resolution
import GoReach.Sorted
import GoReach.Syntax.Cursor
import GoReach.Syntax.Node
import GoReach.Text.CharSet
import GoReach.Text.Identifier
import GoReach.Text.Letter
import GoReach.Text.Position
