import SpecForest.Outline.Emit
import SpecForest.Outline.Language
import SpecForest.Outline.Parser
import SpecForest.Outline.Plain
import SpecForest.Outline.Typed
import SpecForest.Proofs.Outline.Scopes
import SpecForest.Proofs.Source.Arity
import SpecForest.Proofs.Source.Concatenation
import SpecForest.Proofs.Source.Opacity
import SpecForest.Proofs.Source.Partners
import SpecForest.Proofs.Source.Qualifiers
import SpecForest.Proofs.Source.RoundTrip
import SpecForest.Proofs.Source.Signs
import SpecForest.Proofs.Source.Templates
import SpecForest.Proofs.Source.Totality
import SpecForest.Proofs.Tree.Dropping
import SpecForest.Proofs.Tree.LeafRows
import SpecForest.Proofs.Tree.PathFilter
import SpecForest.Proofs.Tree.Resolution
import SpecForest.Proofs.Tree.Uniformity
import SpecForest.Script
import SpecForest.Source.Folder
import SpecForest.Tree.Cursor
import SpecForest.Tree.Resolved
import SpecForest.Value.Target
import SpecForest.Proofs.Source.Quotation
import SpecForest.Proofs.Source.Integers
import SpecForest.Proofs.Source.Outermost
import SpecForest.Proofs.Tree.Iteration
import SpecForest.Proofs.Tree.AncestorFilter
import SpecForest.Proofs.Source.Spacing
import SpecForest.Proofs.Source.Verbatim
import SpecForest.Proofs.Tree.Warnings
import SpecForest.Proofs.Tree.Shape
import SpecForest.Proofs.Outline.Inspection
import SpecForest.Proofs.Outline.Places
import SpecForest.Proofs.Outline.BindingPlaces
import SpecForest.Proofs.Outline.Parallel
import SpecForest.Proofs.Outline.Parallel.Path
import SpecForest.Proofs.Outline.Parallel.Type
import SpecForest.Proofs.Outline.Parallel.Value
import SpecForest.Proofs.Outline.Parallel.Phrase
import SpecForest.Proofs.Outline.Accepted
import SpecForest.Proofs.Source.Splitting
import SpecForest.Proofs.Value.Options
