import MailAddress.Text
import MailAddress.Text.Printable
import MailAddress.Text.Literal
import MailAddress.Quoting
import MailAddress.Token
import MailAddress.Fault
import MailAddress.Lexeme
import MailAddress.Tokenization
import MailAddress.Address
import MailAddress.Matching.Rule
import MailAddress.Matching.Parser
import MailAddress.Matching.Grammar
import MailAddress.Matching.Trace
import MailAddress.Matching.Session
import MailAddress.Canonicalization
import MailAddress.Field
import MailAddress.Terminal
import MailAddress.Diagnostic.Rendering
import MailAddress.Toml.Binary64
import MailAddress.Toml.Moment
import MailAddress.Toml.Value
import MailAddress.Toml.Reader
import MailAddress.Toml.Document
import MailAddress.Settings
import MailAddress.FileTree
import MailAddress.Command.Run
import MailAddress.Command.Arguments
import MailAddress.Main
import MailAddress.Proofs.Matching.Productions
import MailAddress.Proofs.Matching.Soundness
import MailAddress.Proofs.Matching.Derivation
import MailAddress.Proofs.Matching.Completeness
import MailAddress.Proofs.Matching.Members
import MailAddress.Proofs.Matching.LongestPhrases
import MailAddress.Proofs.Matching.Tracing
import MailAddress.Proofs.Lexing.Lexemes
import MailAddress.Proofs.Lexing.Tokens
import MailAddress.Proofs.Lexing.Spans
import MailAddress.Proofs.Matching.Fields
import MailAddress.Proofs.Forms.Parts
import MailAddress.Proofs.Forms.Lines
import MailAddress.Proofs.Lexing.Quotation
import MailAddress.Proofs.Lexing.Reading
import MailAddress.Proofs.Forms.Settled
import MailAddress.Proofs.Forms.Display
import MailAddress.Proofs.Matching.AtSigns
import MailAddress.Proofs.Forms.Dangling
import MailAddress.Proofs.Forms.Stability
import MailAddress.Proofs.Lexing.Languages
import MailAddress.Proofs.Lexing.Layouts
import MailAddress.Proofs.Forms.Composition
import MailAddress.Proofs.Matching.Abandonment
import MailAddress.Proofs.Lexing.Offsets
import MailAddress.Proofs.Lexing.Readers
import MailAddress.Proofs.Lexing.Cursors
import MailAddress.Proofs.Lexing.Breaks
import MailAddress.Proofs.Matching.Progress
import MailAddress.Proofs.Matching.Joining
import MailAddress.Proofs.Matching.LongestMatches
import MailAddress.Proofs.Forms.Joined
import MailAddress.Proofs.Forms.Comments
import MailAddress.Proofs.Matching.Brackets
import MailAddress.Proofs.Matching.Insertions
import MailAddress.Proofs.Matching.Transparency
import MailAddress.Proofs.Matching.Prefixes
import MailAddress.Proofs.Matching.Bounds
import MailAddress.Proofs.Forms.Verdicts
import MailAddress.Proofs.Forms.InPlace
import MailAddress.Proofs.Forms.Splicing
import MailAddress.Proofs.Matching.Origins
import MailAddress.Proofs.Matching.Nesting
import MailAddress.Proofs.Forms.Grouping
import MailAddress.Proofs.Matching.Traces
import MailAddress.Proofs.Matching.Sessions
import MailAddress.Proofs.Matching.Walkers
import MailAddress.Proofs.Matching.Following
import MailAddress.Proofs.Matching.Positions
import MailAddress.Proofs.Showing.Escapes
import MailAddress.Proofs.Showing.Diagnostics
import MailAddress.Proofs.Showing.Configurations
import MailAddress.Proofs.Showing.Canonical
import MailAddress.Proofs.Showing.Commands
import MailAddress.Proofs.Showing.Commands
