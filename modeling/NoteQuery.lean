import NoteQuery.Main
import NoteQuery.Sort
import NoteQuery.Proofs.Sort
import NoteQuery.Proofs.Calendar.Date
import NoteQuery.Proofs.Calendar.Count
import NoteQuery.Proofs.Calendar.Iso
import NoteQuery.Proofs.Number.Rounding
import NoteQuery.Proofs.Value.Entries
import NoteQuery.Proofs.Value.Number
import NoteQuery.Proofs.Value.Order
import NoteQuery.Proofs.Value.Kind
import NoteQuery.Proofs.Value.Moment
import NoteQuery.Proofs.Value.Relation
import NoteQuery.Proofs.Value.Undated
import NoteQuery.Proofs.Value.Rendered
import NoteQuery.Proofs.Value.Shifted
import NoteQuery.Proofs.Note.Ordinary
import NoteQuery.Proofs.Note.Store
import NoteQuery.Proofs.Note.Journal
import NoteQuery.Proofs.Note.Folder
import NoteQuery.Proofs.Note.Fence
import NoteQuery.Proofs.Note.Tag
import NoteQuery.Proofs.Expr.Parser
import NoteQuery.Proofs.Expr.Reach
import NoteQuery.Proofs.Expr.Plain
import NoteQuery.Proofs.Expr.Grammar
import NoteQuery.Proofs.Expr.Completeness
import NoteQuery.Proofs.Expr.Scanning
import NoteQuery.Proofs.Expr.Soundness
import NoteQuery.Proofs.Text.Letter
import NoteQuery.Proofs.Text.Search
import NoteQuery.Proofs.Number.Numeral
import NoteQuery.Proofs.Expr.Cutting
import NoteQuery.Proofs.Expr.Printing
import NoteQuery.Proofs.Expr.Enclosing
import NoteQuery.Proofs.Expr.Lexeme
import NoteQuery.Proofs.Formula.Account
import NoteQuery.Proofs.Formula.Reading
import NoteQuery.Proofs.Formula.Descent
import NoteQuery.Proofs.Formula.Meaning
import NoteQuery.Proofs.Formula.Confined
import NoteQuery.Proofs.Formula.Inquiry
import NoteQuery.Proofs.Formula.Rearrangement
import NoteQuery.Proofs.Formula.Lasting
import NoteQuery.Proofs.Formula.Acyclic
import NoteQuery.Proofs.Formula.Unwinding
import NoteQuery.Proofs.Query.Candidate
import NoteQuery.Proofs.Query.Matching
import NoteQuery.Proofs.Query.Order
import NoteQuery.Proofs.Query.Pool
import NoteQuery.Proofs.Query.Refinement
import NoteQuery.Proofs.Query.Given
import NoteQuery.Proofs.Query.Failure
import NoteQuery.Proofs.Query.Sorting
import NoteQuery.Proofs.Query.Column
import NoteQuery.Proofs.Query.Projection
import NoteQuery.Proofs.Query.Firm
import NoteQuery.Proofs.Query.Alike
import NoteQuery.Proofs.Query.Locality
import NoteQuery.Proofs.Query.Independence
import NoteQuery.Proofs.Query.Paging
import NoteQuery.Proofs.Query.Session
import NoteQuery.Proofs.Query.Truth
import NoteQuery.Proofs.Query.Coherence
import NoteQuery.Proofs.Query.History
import NoteQuery.Proofs.Query.Cancellation
import NoteQuery.Proofs.Query.Shown
import NoteQuery.Proofs.Query.Csv
import NoteQuery.Proofs.Query.MarkdownTable
import NoteQuery.Proofs.Query.JsonExport
import NoteQuery.Proofs.Query.Containment
import NoteQuery.Proofs.Query.Condition
import NoteQuery.Proofs.Query.Path
import NoteQuery.Proofs.Expr.Halting
import NoteQuery.Proofs.Expr.Cursor
import NoteQuery.Proofs.Expr.Place
import NoteQuery.Proofs.Expr.Exchange
import NoteQuery.Proofs.Expr.Whole
import NoteQuery.Proofs.Note.OwnText
import NoteQuery.Proofs.Value.Remainder
import NoteQuery.Proofs.Value.Rounded
import NoteQuery.Proofs.Checked
import NoteQuery.Proofs.Query.FilterForm
import NoteQuery.Proofs.Query.SortEntry
import NoteQuery.Proofs.Query.DefinitionForm
import NoteQuery.Proofs.Yaml.Scalar
import NoteQuery.Proofs.Yaml.Reading
import NoteQuery.Proofs.Yaml.Hollow
import NoteQuery.Proofs.Query.DefinitionText
import NoteQuery.Proofs.Note.FileName
import NoteQuery.Proofs.Note.Gathering
import NoteQuery.Proofs.FileTree
import NoteQuery.Proofs.Note.FrontMatter
import NoteQuery.Proofs.Note.Vault
