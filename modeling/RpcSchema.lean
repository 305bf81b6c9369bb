import RpcSchema.Files.Disk
import RpcSchema.Workspace
import RpcSchema.Settings.Read
import RpcSchema.Proofs.Bundle.Index
import RpcSchema.Proofs.Check.Names
import RpcSchema.Proofs.Check.Uses
import RpcSchema.Proofs.Check.Bodies
import RpcSchema.Proofs.Check.Circularity
import RpcSchema.Proofs.Check.Clean
import RpcSchema.Proofs.Source.Slice
import RpcSchema.Proofs.Source.Lines
import RpcSchema.Proofs.Source.Caret
import RpcSchema.Proofs.Token.Tiling
import RpcSchema.Proofs.Token.Lossless
import RpcSchema.Proofs.Grammar.Taking
import RpcSchema.Proofs.Grammar.FieldSoundness
import RpcSchema.Proofs.Grammar.Soundness
import RpcSchema.Proofs.Grammar.FieldCompleteness
import RpcSchema.Proofs.Grammar.Completeness
import RpcSchema.Proofs.Grammar.Acceptance
import RpcSchema.Proofs.Files.Path
import RpcSchema.Proofs.Bundle.Traversal
import RpcSchema.Proofs.Grammar.Spans
import RpcSchema.Proofs.Bundle.Following
import RpcSchema.Proofs.Schema.Docstrings
import RpcSchema.Proofs.Bundle.Merging
import RpcSchema.Proofs.Check.Discovery
import RpcSchema.Proofs.Check.Reports
import RpcSchema.Proofs.Bundle.Loaded
import RpcSchema.Proofs.Bundle.Version
import RpcSchema.Proofs.Bundle.Accounting
import RpcSchema.Proofs.Bundle.Records
import RpcSchema.Proofs.Schema.Edits
import RpcSchema.Proofs.Schema.Remarks
import RpcSchema.Proofs.Grammar.Remarks
import RpcSchema.Proofs.Files.NormalForm
import RpcSchema.Proofs.Bundle.Depth
import RpcSchema.Proofs.Bundle.Consulted
import RpcSchema.Proofs.Bundle.Termination
import RpcSchema.Proofs.Token.Spelling
import RpcSchema.Proofs.Token.Layout
import RpcSchema.Proofs.Token.Rendering
import RpcSchema.Proofs.Token.Places
import RpcSchema.Proofs.Grammar.Stream
import RpcSchema.Proofs.Grammar.Simulation
import RpcSchema.Proofs.Grammar.FieldSimulation
import RpcSchema.Proofs.Grammar.FileSimulation
import RpcSchema.Proofs.Grammar.Layout
import RpcSchema.Proofs.Grammar.Continuing
import RpcSchema.Proofs.Grammar.Pending
import RpcSchema.Proofs.Grammar.Tracking
import RpcSchema.Proofs.Grammar.FieldTracking
import RpcSchema.Proofs.Grammar.FileTracking
import RpcSchema.Proofs.Grammar.ViablePrefix
import RpcSchema.Proofs.Schema.Editing
import RpcSchema.Proofs.Check.Edited
import RpcSchema.Proofs.Check.Reordering
import RpcSchema.Proofs.Bundle.Rearranging
import RpcSchema.Proofs.Bundle.ImportOrder
import RpcSchema.Proofs.Bundle.Places
import RpcSchema.Proofs.Check.Applicability
import RpcSchema.Proofs.Token.Passing
import RpcSchema.Proofs.Token.Joining
import RpcSchema.Proofs.Grammar.Resuming
import RpcSchema.Proofs.Grammar.Concatenation
import RpcSchema.Proofs.Grammar.Excerpt
import RpcSchema.Proofs.Check.Mentions
import RpcSchema.Proofs.Check.Repetitions
import RpcSchema.Proofs.Bundle.References
import RpcSchema.Proofs.Token.Stretches
import RpcSchema.Proofs.Schema.Outline
import RpcSchema.Proofs.Grammar.Nesting
import RpcSchema.Proofs.Text.Escapes
import RpcSchema.Proofs.Grammar.Strings
import RpcSchema.Proofs.Files.Canonical
import RpcSchema.Proofs.Files.History
import RpcSchema.Proofs.Grammar.Prelexed
import RpcSchema.Proofs.Token.Illegal
