import GoDecl.Text.Ranges
import GoDecl.Text.Letters
import GoDecl.Text.Numbers
import GoDecl.Text.Marks
import GoDecl.Text.Hidden
import GoDecl.Text.Classes
import GoDecl.Text.Position
import GoDecl.Text.Quoted
import GoDecl.Number.Single
import GoDecl.Number.Decimal
import GoDecl.Value
import GoDecl.Operator
import GoDecl.EvalError
import GoDecl.Arithmetic
import GoDecl.Expr.Shape
import GoDecl.Token.Basic
import GoDecl.Token.Number
import GoDecl.Token.Quote
import GoDecl.Token.Lexeme
import GoDecl.Token.Lexer
import GoDecl.Source.Piece
import GoDecl.Source.Normal
import GoDecl.ParseError
import GoDecl.Expr.Basic
import GoDecl.Grammar.Cursor
import GoDecl.Grammar.Parser
import GoDecl.Grammar.Tree
import GoDecl.Grammar.Layout
import GoDecl.Grammar.Rules
import GoDecl.Grammar.Attributes
import GoDecl.Grammar.Paths
import GoDecl.Grammar.Generics
import GoDecl.Grammar.Types
import GoDecl.Grammar.Trailers
import GoDecl.Grammar.Patterns
import GoDecl.Grammar.Functions
import GoDecl.Grammar.Fields
import GoDecl.Grammar.Members
import GoDecl.Grammar.Items
import GoDecl.Grammar.Control
import GoDecl.Grammar.Statements
import GoDecl.Grammar.Operands
import GoDecl.Grammar.Expressions
import GoDecl.Grammar.Reading
import GoDecl.Decl.Basic
import GoDecl.Decl.Parser
import GoDecl.Event
import GoDecl.Environment.Bindings
import GoDecl.Environment.Basic
import GoDecl.Settings
import GoDecl.Expr.Eval
import GoDecl.Decl.Eval
import GoDecl.Session
import GoDecl.Repl
import GoDecl.CommandLine
import GoDecl.Main
import GoDecl.Proofs.Evaluation
import GoDecl.Proofs.Kinds
import GoDecl.Proofs.History
import GoDecl.Proofs.Fences
import GoDecl.Proofs.Pieces
import GoDecl.Proofs.Readers
import GoDecl.Proofs.Places
import GoDecl.Proofs.Operands
import GoDecl.Proofs.Grouping
import GoDecl.Proofs.Precedence
import GoDecl.Proofs.TypeForms
import GoDecl.Proofs.Rendering
import GoDecl.Proofs.Declarations
import GoDecl.Proofs.Batches
import GoDecl.Proofs.Written
import GoDecl.Proofs.Spelling
import GoDecl.Proofs.Literals
import GoDecl.Proofs.RawStrings
import GoDecl.Proofs.Escapes
import GoDecl.Proofs.Substitution
import GoDecl.Proofs.Independence
import GoDecl.Proofs.Lines
import GoDecl.Proofs.TokenPlaces
import GoDecl.Proofs.Faults.Basic
import GoDecl.Proofs.Faults.Types
import GoDecl.Proofs.Faults.Items
import GoDecl.Proofs.Faults.Expressions
import GoDecl.Proofs.Diagnostics
import GoDecl.Proofs.QuotedLiterals
import GoDecl.Proofs.Conversation
import GoDecl.Proofs.ResultTypes
import GoDecl.Proofs.Leading
import GoDecl.Proofs.StringBodies
import GoDecl.Proofs.StringTokens
import GoDecl.Proofs.Words
import GoDecl.Proofs.DeclaredNames
import GoDecl.Proofs.Lexemes
import GoDecl.Proofs.Fronts
import GoDecl.Proofs.Scanners
import GoDecl.Proofs.LongestMatch
import GoDecl.Proofs.Sessions
import GoDecl.Proofs.Integers
import GoDecl.Proofs.CodePoints
import GoDecl.Proofs.Magnitudes
import GoDecl.Proofs.ByteOrder
import GoDecl.Proofs.Comparisons
import GoDecl.Proofs.Quotients
import GoDecl.Proofs.Numerals
import GoDecl.Proofs.IntegerTexts
import GoDecl.Proofs.Rounding
import GoDecl.Proofs.Scientific
import GoDecl.Proofs.WellFormed
import GoDecl.Proofs.EventRecord
import GoDecl.Proofs.Nearest
import GoDecl.Proofs.LeadingPoint
import GoDecl.Proofs.FloatParts
import GoDecl.Proofs.FloatTexts
