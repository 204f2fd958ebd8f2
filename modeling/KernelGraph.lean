import KernelGraph.Main
import KernelGraph.Proofs.Analysis.Advice
import KernelGraph.Proofs.Analysis.Agreement
import KernelGraph.Proofs.Analysis.Carried
import KernelGraph.Proofs.Analysis.Counts
import KernelGraph.Proofs.Analysis.Failure
import KernelGraph.Proofs.Analysis.Fields
import KernelGraph.Proofs.Analysis.Fixpoint
import KernelGraph.Proofs.Analysis.Flow
import KernelGraph.Proofs.Analysis.Increments
import KernelGraph.Proofs.Analysis.Integrity
import KernelGraph.Proofs.Analysis.Kernels
import KernelGraph.Proofs.Analysis.Operations
import KernelGraph.Proofs.Analysis.Order
import KernelGraph.Proofs.Analysis.Places
import KernelGraph.Proofs.Analysis.Portions
import KernelGraph.Proofs.Analysis.Positions
import KernelGraph.Proofs.Analysis.Reloading
import KernelGraph.Proofs.Analysis.Repetition
import KernelGraph.Proofs.Analysis.Stages
import KernelGraph.Proofs.Analysis.Templates
import KernelGraph.Proofs.Analysis.Traversal
import KernelGraph.Proofs.Analysis.Treatment
import KernelGraph.Proofs.Analysis.Warnings
import KernelGraph.Proofs.Call.History
import KernelGraph.Proofs.Call.Index
import KernelGraph.Proofs.Call.Lookup
import KernelGraph.Proofs.Call.Mixing
import KernelGraph.Proofs.Call.Reach
import KernelGraph.Proofs.Call.Settling
import KernelGraph.Proofs.Call.Spread
import KernelGraph.Proofs.Call.Steps
import KernelGraph.Proofs.Command.Product
import KernelGraph.Proofs.Command.Run
import KernelGraph.Proofs.Discovery
import KernelGraph.Proofs.Document.Regular
import KernelGraph.Proofs.Document.RoundTrip
import KernelGraph.Proofs.Dot.Reader
import KernelGraph.Proofs.Files
import KernelGraph.Proofs.Graph.Action
import KernelGraph.Proofs.Graph.Annotation
import KernelGraph.Proofs.Graph.Coherence
import KernelGraph.Proofs.Graph.Drawing
import KernelGraph.Proofs.Graph.Lowering
import KernelGraph.Proofs.Graph.Numbering
import KernelGraph.Proofs.Graph.Raising
import KernelGraph.Proofs.Graph.Renumbering
import KernelGraph.Proofs.Graph.Repeats
import KernelGraph.Proofs.Graph.Skeleton
import KernelGraph.Proofs.Graph.TemplateSet
import KernelGraph.Proofs.Host
import KernelGraph.Proofs.Json.Leaves
import KernelGraph.Proofs.Json.Regular
import KernelGraph.Proofs.Json.RoundTrip
import KernelGraph.Proofs.Platform
import KernelGraph.Proofs.Region.Catalog
import KernelGraph.Proofs.Region.Compaction
import KernelGraph.Proofs.Region.Listing
import KernelGraph.Proofs.Region.Narrowing
import KernelGraph.Proofs.Region.Promotion
import KernelGraph.Proofs.Region.Remainder
import KernelGraph.Proofs.Region.Repetition
