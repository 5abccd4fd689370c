import TabletopDice.Http.Service
import TabletopDice.Main
import TabletopDice.Proofs.Expression.Tree
import TabletopDice.Proofs.Expression.Evaluation
import TabletopDice.Proofs.Expression.Reading
import TabletopDice.Proofs.Expression.Acceptance
import TabletopDice.Proofs.Dice.Rolling
import TabletopDice.Proofs.Dice.Natural
import TabletopDice.Proofs.Roller.Validation
import TabletopDice.Proofs.Roller.Passes
import TabletopDice.Proofs.Roller.Rerolling
import TabletopDice.Proofs.Text.Cut
import TabletopDice.Proofs.Text.Numeral
import TabletopDice.Proofs.Text.Label
import TabletopDice.Proofs.Number.DecimalText
import TabletopDice.Proofs.Expression.Written
import TabletopDice.Proofs.Expression.Restoring
import TabletopDice.Proofs.Expression.Printing
import TabletopDice.Proofs.Expression.Reparsing
import TabletopDice.Proofs.Expression.Clauses
import TabletopDice.Proofs.Expression.Alphabet
import TabletopDice.Proofs.Dice.RoundTrip
import TabletopDice.Proofs.Text.Lines
import TabletopDice.Proofs.Json.Quotation
import TabletopDice.Proofs.Json.Values
import TabletopDice.Proofs.Json.Objects
import TabletopDice.Proofs.Json.Framing
import TabletopDice.Proofs.Preset.Records
import TabletopDice.Proofs.Preset.Truncation
import TabletopDice.Proofs.Preset.RoundTrip
import TabletopDice.Proofs.Dice.TreeRoll
import TabletopDice.Proofs.Expression.Spelling
import TabletopDice.Proofs.Expression.SpelledExpressions
import TabletopDice.Proofs.Number.Range
import TabletopDice.Proofs.Dice.Range
import TabletopDice.Proofs.Text.Messages
import TabletopDice.Proofs.Expression.Lengths
import TabletopDice.Proofs.Expression.Weight
import TabletopDice.Proofs.Roller.Clauses
import TabletopDice.Proofs.Roller.Lengths
import TabletopDice.Proofs.Roller.Modest
import TabletopDice.Proofs.Roller.Calls
import TabletopDice.Proofs.Roller.Keeping
import TabletopDice.Proofs.Roller.Consistency
import TabletopDice.Proofs.Roller.Secrecy
import TabletopDice.Proofs.Roller.Combinations
import TabletopDice.Proofs.Roller.Stopping
import TabletopDice.Proofs.Preset.Refusals
import TabletopDice.Proofs.Roller.Independence
import TabletopDice.Proofs.Roller.Work
import TabletopDice.Proofs.Text.Tail
import TabletopDice.Proofs.Expression.LimitOrder
import TabletopDice.Proofs.Roller.ClauseBlanks
import TabletopDice.Proofs.Roller.ClauseOrder
import TabletopDice.Proofs.Roller.Tails
import TabletopDice.Proofs.Roller.Reordering
import TabletopDice.Proofs.Roller.Refusal
import TabletopDice.Proofs.Dice.Maximum
import TabletopDice.Proofs.Roller.Maximum
import TabletopDice.Proofs.Roller.Receipts
import TabletopDice.Proofs.Json.WhiteSpace
import TabletopDice.Proofs.Preset.Layout
import TabletopDice.Proofs.Dice.Attempts
import TabletopDice.Proofs.Dice.SingleDie
import TabletopDice.Proofs.Dice.Limits
import TabletopDice.Proofs.Roller.Confirmation
import TabletopDice.Proofs.Dice.Composite
import TabletopDice.Proofs.Roller.Markers
import TabletopDice.Proofs.Roller.Targets
import TabletopDice.Proofs.Preset.TclList
import TabletopDice.Proofs.Preset.Legacy
import TabletopDice.Proofs.Roller.RunningSums
import TabletopDice.Proofs.Text.Words
import TabletopDice.Proofs.Expression.Parts
import TabletopDice.Proofs.Expression.Swallowing
import TabletopDice.Proofs.Expression.Padding
import TabletopDice.Proofs.Expression.Spacing
import TabletopDice.Proofs.Dice.AuditTrail
import TabletopDice.Proofs.Dice.BuiltDice
import TabletopDice.Proofs.Expression.OuterBlanks
import TabletopDice.Proofs.Roller.Plans
import TabletopDice.Proofs.Roller.Trimming
import TabletopDice.Proofs.Roller.Titles
import TabletopDice.Proofs.Roller.Mirroring
import TabletopDice.Proofs.Roller.Repetition
import TabletopDice.Proofs.Number.Quotient
import TabletopDice.Proofs.Expression.Integers
import TabletopDice.Proofs.Preset.Words
import TabletopDice.Proofs.Preset.TrailingText
import TabletopDice.Proofs.Expression.Waiting
import TabletopDice.Proofs.CommandLine.Dialogue
