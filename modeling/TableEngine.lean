import TableEngine.Main
import TableEngine.Statement.Printer
import TableEngine.Proofs.Atomicity
import TableEngine.Proofs.RoundTrip
import TableEngine.Proofs.Selection
import TableEngine.Proofs.Agreement
import TableEngine.Proofs.Parsing
import TableEngine.Proofs.StatementParsing
import TableEngine.Proofs.Rejection
import TableEngine.Proofs.Exactness
import TableEngine.Proofs.Lexing
import TableEngine.Proofs.Lexemes
import TableEngine.Proofs.Leading
import TableEngine.Proofs.Printing
import TableEngine.Proofs.Scripts
import TableEngine.Proofs.Cutting
import TableEngine.Proofs.Segments
import TableEngine.Proofs.Comments
import TableEngine.Proofs.Transparency
import TableEngine.Proofs.Gathering
import TableEngine.Proofs.InUse
import TableEngine.Proofs.Ledger
import TableEngine.Proofs.Addressing
import TableEngine.Proofs.SortOrder
import TableEngine.Proofs.Sorting
import TableEngine.Proofs.Conditions
import TableEngine.Proofs.Expressions
import TableEngine.Proofs.Wildcards
import TableEngine.Proofs.Consistency
import TableEngine.Proofs.Coercion
import TableEngine.Proofs.TypePieces
import TableEngine.Proofs.TypeForms
import TableEngine.Proofs.Log
import TableEngine.Proofs.LegalNames
import TableEngine.Proofs.DeclaredTypes
import TableEngine.Proofs.TableCreation
import TableEngine.Proofs.Numerals
import TableEngine.Proofs.TableReading
import TableEngine.Proofs.TableImport
import TableEngine.Proofs.RowChanges
import TableEngine.Proofs.Spacing
import TableEngine.Proofs.Splitting
import TableEngine.Proofs.Chunks
import TableEngine.Proofs.Progress
import TableEngine.Proofs.Alignment
import TableEngine.Proofs.Scanning
import TableEngine.Proofs.Brackets
import TableEngine.Proofs.RowMaps
