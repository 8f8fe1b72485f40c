import Facade.Files.Store
import Facade.Main
import Facade.Proofs.Outcome
import Facade.Proofs.Pool.Progress
import Facade.Proofs.Catalog
import Facade.Proofs.Extraction
import Facade.Proofs.Types
import Facade.Proofs.Outline.Compare
import Facade.Proofs.Outline.Spec
import Facade.Proofs.Generation
import Facade.Proofs.Stages
import Facade.Proofs.Accounting
import Facade.Proofs.Closure
import Facade.Proofs.Scheduling
import Facade.Proofs.Shape
import Facade.Proofs.Nullability
import Facade.Proofs.Safety
import Facade.Proofs.Conversion.Inverse
import Facade.Proofs.Alike.Types
import Facade.Proofs.Alike.Description
import Facade.Proofs.Alike.Outline
import Facade.Proofs.Alike.Rounds
import Facade.Proofs.Alike.Registration
import Facade.Proofs.Results
import Facade.Proofs.Independence
import Facade.Proofs.Files.Store
import Facade.Proofs.Paths
import Facade.Proofs.Places
import Facade.Proofs.Source.Lines
import Facade.Proofs.Source.Written
import Facade.Proofs.References
import Facade.Proofs.Delivery
import Facade.Proofs.Agreement
import Facade.Proofs.Outline.Names
import Facade.Proofs.Hygiene
import Facade.Proofs.Constants
import Facade.Proofs.Outline.Written
import Facade.Proofs.Outlines
import Facade.Proofs.Legality
import Facade.Proofs.Shadowing
import Facade.Proofs.Signature.Grammar
import Facade.Proofs.Text.Lines
import Facade.Proofs.Signature.Reading
import Facade.Proofs.NamePools
import Facade.Proofs.Json.Spelling
import Facade.Proofs.Json.Reading
import Facade.Proofs.Slots
import Facade.Proofs.Metadata
import Facade.Proofs.Flaws
import Facade.Proofs.Order
import Facade.Proofs.FirstClaims
import Facade.Proofs.Companions
import Facade.Proofs.Wrappers
import Facade.Proofs.Overloads
import Facade.Proofs.Conversion.Returned
import Facade.Proofs.Resolution
import Facade.Proofs.Signature.Blanks
import Facade.Proofs.Signature.Text
import Facade.Proofs.TypeTexts
import Facade.Proofs.OtherMethods
import Facade.Proofs.Padding
import Facade.Proofs.WriteBack
import Facade.Proofs.Ownership
import Facade.Proofs.Imports
import Facade.Proofs.Brackets.Nested
import Facade.Proofs.Brackets.Source
import Facade.Proofs.Brackets.Wrapper
import Facade.Proofs.Brackets.Batch
import Facade.Proofs.Termination
import Facade.Proofs.Repetitions
import Facade.Proofs.Errors
import Facade.Proofs.Toml.Lines
import Facade.Proofs.Starter
import Facade.Proofs.Input.Places
import Facade.Proofs.Input.Keys
import Facade.Proofs.Snapshots
import Facade.Proofs.Files.Changes
import Facade.Proofs.Previews
import Facade.Proofs.Declarations
import Facade.Proofs.Binding.Links
import Facade.Proofs.TypeNodes
import Facade.Proofs.Conversion.Starts
import Facade.Proofs.Conversion.Scopes
import Facade.Proofs.Source.Layout
