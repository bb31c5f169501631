import Tabletop.Amount
import Tabletop.CommandLine.Answer
import Tabletop.CommandLine.Arguments
import Tabletop.Dice
import Tabletop.Evaluation
import Tabletop.Event
import Tabletop.Interchange
import Tabletop.Json.Basic
import Tabletop.Json.Reader
import Tabletop.Json.Record
import Tabletop.Json.Token
import Tabletop.Main
import Tabletop.Modifiers
import Tabletop.Modifiers.Faces
import Tabletop.Modifiers.Selection
import Tabletop.Narration
import Tabletop.Notation
import Tabletop.Outcome
import Tabletop.Proofs.CommandLine.Answer
import Tabletop.Proofs.Evaluation.Arithmetic
import Tabletop.Proofs.Evaluation.Canonical
import Tabletop.Proofs.Evaluation.Fudge
import Tabletop.Proofs.Evaluation.Ledger
import Tabletop.Proofs.Evaluation.Narration
import Tabletop.Proofs.Evaluation.Outcome
import Tabletop.Proofs.Evaluation.Refusal
import Tabletop.Proofs.Evaluation.Saturation
import Tabletop.Proofs.Evaluation.Widths
import Tabletop.Proofs.Interchange
import Tabletop.Proofs.Json.Record
import Tabletop.Proofs.Json.Tokens
import Tabletop.Proofs.Json.Written
import Tabletop.Proofs.Modifiers.Faces
import Tabletop.Proofs.Modifiers.Saturation
import Tabletop.Proofs.Modifiers.Selection
import Tabletop.Proofs.Modifiers.Slice
import Tabletop.Proofs.Narration.Listing
import Tabletop.Proofs.Notation.Canonical
import Tabletop.Proofs.Notation.Grammar
import Tabletop.Proofs.Notation.Written
import Tabletop.Proofs.Roll.Dominance
import Tabletop.Proofs.Roll.Finish
import Tabletop.Proofs.Roll.Order
import Tabletop.Proofs.Roll.Possible
import Tabletop.Proofs.Roll.Score
import Tabletop.Proofs.Rolling.Course
import Tabletop.Proofs.Rolling.Explosion
import Tabletop.Proofs.Rolling.InStep
import Tabletop.Proofs.Rolling.Ledger
import Tabletop.Proofs.Rolling.Owed
import Tabletop.Proofs.Rolling.Pool
import Tabletop.Proofs.Rolling.Range
import Tabletop.Proofs.Rolling.Settled
import Tabletop.Proofs.Rolling.Steady
import Tabletop.Proofs.Source.Runs
import Tabletop.Proofs.Source.Steady
import Tabletop.Proofs.Source.Words
import Tabletop.Proofs.Suffix.Canonical
import Tabletop.Proofs.Suffix.Leftmost
import Tabletop.Proofs.Suffix.Overlay
import Tabletop.Proofs.Suffix.Reading
import Tabletop.Proofs.Suffix.Scan
import Tabletop.Proofs.Suffix.Spelling
import Tabletop.Proofs.Text.Digits
import Tabletop.Proofs.Text.Plain
import Tabletop.Proofs.Text.Sigma
import Tabletop.Proofs.Widths
import Tabletop.Reading
import Tabletop.Roll
import Tabletop.Roll.Possible
import Tabletop.RollError
import Tabletop.Rolling
import Tabletop.Settings
import Tabletop.Settings.Given
import Tabletop.Settings.Layers
import Tabletop.Settings.Load
import Tabletop.Source.Basic
import Tabletop.Source.ChaCha
import Tabletop.Source.Script
import Tabletop.Source.Supply
import Tabletop.Source.Words
import Tabletop.Suffix.Scan
import Tabletop.Suffix.Token
import Tabletop.Text.Blank
import Tabletop.Text.CaseTable
import Tabletop.Text.Decimal
import Tabletop.Text.Hexadecimal
import Tabletop.Text.Lowercase
import Tabletop.Threshold
import Tabletop.Toml.Basic
import Tabletop.Toml.Reader
import Tabletop.Toml.Scalar
import Tabletop.Toml.Table
import Tabletop.Proofs.Roll.Exact
import Tabletop.Proofs.Settings.Layers
