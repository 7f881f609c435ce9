import MacroLint.CommandLine
import MacroLint.Literal.Token
import MacroLint.Main
import MacroLint.Proofs.Plan.Families
import MacroLint.Proofs.Validation.Truncation
import MacroLint.Proofs.Validation.Shape
import MacroLint.Proofs.Literal.NormalForm
import MacroLint.Proofs.Validation.Concatenation
import MacroLint.Proofs.Literal.Essence
import MacroLint.Proofs.Literal.RoundTrip
import MacroLint.Proofs.Fragment.Stretches
import MacroLint.Proofs.Literal.Provenance
import MacroLint.Proofs.Plan.Readers
import MacroLint.Proofs.Fragment.Pieces
import MacroLint.Proofs.Validation.Provenance
import MacroLint.Proofs.Plan.Agreement
import MacroLint.Proofs.Plan.FieldOrder
import MacroLint.Proofs.Plan.Paging
import MacroLint.Proofs.Plan.Parameters
import MacroLint.Proofs.Literal.Markers
import MacroLint.Proofs.Literal.Segments
import MacroLint.Proofs.Validation.Flags
import MacroLint.Proofs.CommandLine.Input
import MacroLint.Proofs.Fragment.Parentheses
import MacroLint.Proofs.Fragment.References
import MacroLint.Proofs.Plan.Binding
import MacroLint.Proofs.Plan.Alignment
import MacroLint.Proofs.Literal.Cover
import MacroLint.Proofs.Literal.Spacing
import MacroLint.Proofs.Literal.Matches
import MacroLint.Proofs.Sql.Conditions
import MacroLint.Proofs.Sql.Reading
import MacroLint.Proofs.Validation.Composition
import MacroLint.Proofs.Plan.Undisturbed
import MacroLint.Proofs.Plan.RowChoice
import MacroLint.Proofs.Plan.FieldLists
import MacroLint.Proofs.Plan.UpdateForms
import MacroLint.Proofs.Fragment.Shapes
import MacroLint.Proofs.Plan.ColumnMappings
import MacroLint.Proofs.Plan.PagingBlocks
import MacroLint.Proofs.Plan.Queries
import MacroLint.Proofs.Fragment.Clauses
import MacroLint.Proofs.Fragment.Places
import MacroLint.Proofs.Literal.Balance
import MacroLint.Proofs.Literal.FlagLetters
