import LoxTokens.Text.Basic
import LoxTokens.Text.Utf8
import LoxTokens.Text.Blank
import LoxTokens.Text.Unprintable
import LoxTokens.Text.Quoted
import LoxTokens.Text.Terminal
import LoxTokens.Number.Decimal
import LoxTokens.Number.Binary64
import LoxTokens.Number.Shortest
import LoxTokens.Number.Basic
import LoxTokens.Options
import LoxTokens.Token.Keyword
import LoxTokens.Token.Punct
import LoxTokens.Token.Basic
import LoxTokens.Failure
import LoxTokens.LexError
import LoxTokens.Item
import LoxTokens.Span
import LoxTokens.Scanner.Cursor
import LoxTokens.Scanner.Basic
import LoxTokens.Log
import LoxTokens.Command.Invocation
import LoxTokens.Command.Outcome
import LoxTokens.Command.Session
import LoxTokens.Command.Program
import LoxTokens.Main
import LoxTokens.Proofs.Fits
import LoxTokens.Proofs.Run
import LoxTokens.Proofs.Tiling
import LoxTokens.Proofs.LongestMatch
import LoxTokens.Proofs.Modes
import LoxTokens.Proofs.Lines
import LoxTokens.Proofs.TokenText
import LoxTokens.Proofs.Adjacency
import LoxTokens.Proofs.Layout
import LoxTokens.Proofs.Restart
import LoxTokens.Proofs.Lookahead
import LoxTokens.Proofs.LineBreak
import LoxTokens.Proofs.Postprocess
import LoxTokens.Proofs.Blanking
import LoxTokens.Proofs.Recovery
import LoxTokens.Proofs.Quoting
import LoxTokens.Proofs.Escaping
import LoxTokens.Proofs.Display
import LoxTokens.Proofs.Output
import LoxTokens.Proofs.Lifecycle
import LoxTokens.Proofs.Chunks
import LoxTokens.Proofs.Prompt
import LoxTokens.Proofs.LineByLine
import LoxTokens.Proofs.Logging
import LoxTokens.Proofs.Grid
import LoxTokens.Proofs.Rounding
import LoxTokens.Proofs.Integers
import LoxTokens.Proofs.Fractions
import LoxTokens.Proofs.Shortest
import LoxTokens.Proofs.Readback
import LoxTokens.Proofs.Files
import LoxTokens.Proofs.Distinct
import LoxTokens.Proofs.Respelling
import LoxTokens.Proofs.LetterCase
import LoxTokens.Proofs.LineEndings
import LoxTokens.Proofs.Comments
import LoxTokens.Proofs.Keywords
import LoxTokens.Proofs.Offsets
import LoxTokens.Proofs.Records
