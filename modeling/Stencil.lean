import Stencil.CommandLine.Run
import Stencil.Main
import Stencil.Proofs.Placement
import Stencil.Proofs.Spelling
import Stencil.Proofs.Compilation
import Stencil.Proofs.Accumulation
import Stencil.Proofs.Rows
import Stencil.Proofs.Cleaning
import Stencil.Proofs.RoundTrip
import Stencil.Proofs.Grammar
import Stencil.Proofs.Directory
import Stencil.Proofs.TemplateLines
import Stencil.Proofs.RowOrder
import Stencil.Proofs.Respacing
import Stencil.Proofs.CommonBlocks
import Stencil.Proofs.BestMatch
import Stencil.Proofs.Surroundings
import Stencil.Proofs.Weaving
import Stencil.Proofs.Filling
import Stencil.Proofs.Resolving
import Stencil.Proofs.Lifetimes
import Stencil.Proofs.Overlap
import Stencil.Proofs.Assembling
import Stencil.Proofs.Replacing
import Stencil.Proofs.Renewal
import Stencil.Proofs.ShownScores
import Stencil.Proofs.JsonReading
import Stencil.Proofs.Calling
import Stencil.Proofs.Invocation
import Stencil.Proofs.ParseOutcome
import Stencil.Proofs.Strays
import Stencil.Proofs.Captures
import Stencil.Proofs.Cutoffs
import Stencil.Proofs.Linewise
import Stencil.Proofs.Tags
import Stencil.Proofs.OwnText
import Stencil.Proofs.LineValues
import Stencil.Proofs.Pagination
import Stencil.Proofs.SingleLine
import Stencil.Proofs.Notation
import Stencil.Proofs.Failing
import Stencil.Proofs.Retrying
import Stencil.Proofs.Decoding
import Stencil.Proofs.Names
import Stencil.Proofs.Invocation
import Stencil.Proofs.ShownScores
