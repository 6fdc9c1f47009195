import LineForth.Session
import LineForth.Number.Register
import LineForth.Main
import LineForth.Proofs.Concatenation
import LineForth.Proofs.TokenQueue
import LineForth.Proofs.Postfix
import LineForth.Proofs.DeepCells
import LineForth.Proofs.OwnWords
import LineForth.Proofs.Unbounded
import LineForth.Proofs.Layout
import LineForth.Proofs.CellKind
import LineForth.Proofs.Conversation
import LineForth.Proofs.Text.Lines
import LineForth.Proofs.Verbosity
import LineForth.Proofs.Contract
import LineForth.Proofs.Sequence
import LineForth.Proofs.Resolution
import LineForth.Proofs.Positions
import LineForth.Proofs.Work
import LineForth.Proofs.Account
import LineForth.Proofs.Interchange
import LineForth.Proofs.ShownStack
import LineForth.Proofs.Answers
import LineForth.Proofs.Number.Width
import LineForth.Proofs.Number.Division
import LineForth.Proofs.LiteralValue
