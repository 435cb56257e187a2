import PaymentFees.Book.Archive
import PaymentFees.Book.Basic
import PaymentFees.Book.Damage
import PaymentFees.Book.Tables
import PaymentFees.ByKey
import PaymentFees.CommandLine.Batch
import PaymentFees.CommandLine.Command
import PaymentFees.CommandLine.Database
import PaymentFees.CommandLine.Dialogue
import PaymentFees.CommandLine.EmptyFile
import PaymentFees.CommandLine.Options
import PaymentFees.CommandLine.Random
import PaymentFees.CommandLine.Run
import PaymentFees.Config
import PaymentFees.Curve.Basic
import PaymentFees.Curve.Fit
import PaymentFees.Curve.LeastSquares
import PaymentFees.Curve.MinimumNorm
import PaymentFees.Decimal.Basic
import PaymentFees.Decimal.Rounding
import PaymentFees.Decimal.Shortest
import PaymentFees.Decimal.Text
import PaymentFees.Event
import PaymentFees.Failure
import PaymentFees.Formula.Basic
import PaymentFees.Formula.Expr
import PaymentFees.Formula.Function
import PaymentFees.Formula.Lexer
import PaymentFees.Formula.Parser
import PaymentFees.Formula.Token
import PaymentFees.Instant
import PaymentFees.Json.Basic
import PaymentFees.Json.Decode
import PaymentFees.Json.Number
import PaymentFees.Json.Reader
import PaymentFees.Json.Writer
import PaymentFees.Ledger
import PaymentFees.Main
import PaymentFees.Money
import PaymentFees.Plan.Basic
import PaymentFees.Plan.Encoding
import PaymentFees.Plan.Fault
import PaymentFees.Plan.Range
import PaymentFees.Proofs.Binary.Arithmetic
import PaymentFees.Proofs.Binary.Encoding
import PaymentFees.Proofs.Binary.Extent
import PaymentFees.Proofs.Binary.Nearest
import PaymentFees.Proofs.Binary.Residue
import PaymentFees.Proofs.Binary.Whole
import PaymentFees.Proofs.Cents
import PaymentFees.Proofs.Chronicle
import PaymentFees.Proofs.Evaluation
import PaymentFees.Proofs.FeeBound
import PaymentFees.Proofs.Grammar.Derivation
import PaymentFees.Proofs.Grammar.Reading
import PaymentFees.Proofs.Listings
import PaymentFees.Proofs.Moves
import PaymentFees.Proofs.Operations
import PaymentFees.Proofs.Reconciled
import PaymentFees.Proofs.Shares
import PaymentFees.Proofs.Shortest
import PaymentFees.Proofs.Statements
import PaymentFees.Proofs.Tables
import PaymentFees.Proofs.Transactions
import PaymentFees.Quote
import PaymentFees.Request
import PaymentFees.Service
import PaymentFees.Store.Basic
import PaymentFees.Text.Blank
import PaymentFees.Text.Hexadecimal
import PaymentFees.Proofs.Abreast
import PaymentFees.Proofs.Isolation
import PaymentFees.Proofs.Json.Reading
import PaymentFees.Proofs.Json.Numerals
import PaymentFees.Proofs.Json.Numbers
import PaymentFees.Proofs.Json.Plans
import PaymentFees.Proofs.KeptPlans
import PaymentFees.Proofs.SavedPlans
import PaymentFees.Proofs.Questions
import PaymentFees.Proofs.Binary.Numbers
import PaymentFees.Proofs.Ranges
import PaymentFees.Proofs.Frequencies
import PaymentFees.Proofs.Integrity
import PaymentFees.Proofs.Grammar.Sentences
import PaymentFees.Proofs.Grammar.Variables
import PaymentFees.Proofs.Grammar.WrongTokens
import PaymentFees.Proofs.Honoured
import PaymentFees.Proofs.Nesting
import PaymentFees.Proofs.Recomputation
import PaymentFees.Proofs.Batches
import PaymentFees.Proofs.Json.Lines
import PaymentFees.Proofs.Retiming
import PaymentFees.Proofs.Dialogues
import PaymentFees.Proofs.Confined
import PaymentFees.Proofs.FirstCharges
import PaymentFees.Proofs.Receipts
import PaymentFees.Proofs.Deletions
import PaymentFees.Proofs.Refunds
import PaymentFees.Proofs.Partition
import PaymentFees.Proofs.RangePrices
import PaymentFees.Proofs.PlainDigits
import PaymentFees.Proofs.Keys
import PaymentFees.Proofs.Guarded.Bytes
import PaymentFees.Proofs.Guarded.Cursor
import PaymentFees.Proofs.Guarded.Literals
import PaymentFees.Proofs.Guarded.Tokens
import PaymentFees.Proofs.Guarded.Spans
import PaymentFees.Proofs.Guarded.Values
import PaymentFees.Proofs.Upserts
import PaymentFees.Proofs.Binary.Signed
import PaymentFees.Proofs.Payloads
import PaymentFees.Proofs.Merging
import PaymentFees.Proofs.Binary.Negation
import PaymentFees.Proofs.PrintedAmounts
import PaymentFees.Proofs.NearestCents
import PaymentFees.Proofs.Indexed.Cells
import PaymentFees.Proofs.Indexed.Elimination
import PaymentFees.Proofs.Indexed.Multiples
import PaymentFees.Proofs.Indexed.Fits
import PaymentFees.Store.Fragile
import PaymentFees.Proofs.Interruptions
