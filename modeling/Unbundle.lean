import Unbundle.Layering
import Unbundle.Main
import Unbundle.Split.Recorded
import Unbundle.Store.Change
import Unbundle.Proofs.Markup.Reading
import Unbundle.Proofs.Markup.Placement
import Unbundle.Proofs.Markup.Alike
import Unbundle.Proofs.Markup.Agreement
import Unbundle.Proofs.Markup.Element
import Unbundle.Proofs.Assets.Rewriting
import Unbundle.Proofs.Assets.Staying
import Unbundle.Proofs.Assets.Settling
import Unbundle.Proofs.Assets.Reference
import Unbundle.Proofs.Split.Answers
import Unbundle.Proofs.Split.Frame
import Unbundle.Proofs.Split.Fidelity
import Unbundle.Proofs.Split.Again
import Unbundle.Proofs.Split.Archiving
import Unbundle.Proofs.Split.Sequence
import Unbundle.Proofs.Assets.Letters
import Unbundle.Proofs.Markup.Preamble
import Unbundle.Proofs.Markup.Spelling
import Unbundle.Proofs.Assets.Landing
import Unbundle.Proofs.Markup.Boundary
import Unbundle.Proofs.Skeleton.Template
import Unbundle.Proofs.Skeleton.Manifest
import Unbundle.Proofs.Split.Emission
import Unbundle.Proofs.Path.Slug
import Unbundle.Proofs.Split.Sparing
import Unbundle.Proofs.Split.Reading
import Unbundle.Proofs.Options.Naming
import Unbundle.Proofs.Assets.Tally
import Unbundle.Proofs.Command.Counts
import Unbundle.Proofs.Command.Words
import Unbundle.Proofs.Command.Front
import Unbundle.Proofs.Layering
import Unbundle.Proofs.Markup.Arrangement
import Unbundle.Proofs.Markup.Grammar
