import Ambient.Command.Arguments
import Ambient.Command.Disk
import Ambient.Command.FileSystem
import Ambient.Command.Path
import Ambient.Command.Program
import Ambient.Command.Run
import Ambient.Decimal.Notation
import Ambient.Decimal.Shortest
import Ambient.Diagnostic
import Ambient.Failure
import Ambient.Grammar.Declaration
import Ambient.Grammar.Import
import Ambient.Grammar.Member
import Ambient.Grammar.Modifier
import Ambient.Grammar.Name
import Ambient.Grammar.Rule
import Ambient.Grammar.Signature
import Ambient.Grammar.Statement
import Ambient.Grammar.Stream
import Ambient.Grammar.Type
import Ambient.Interchange.Decode
import Ambient.Interchange.Encode
import Ambient.Interchange.Issue
import Ambient.Interchange.Members
import Ambient.Json.Nesting
import Ambient.Json.Number
import Ambient.Json.Printer
import Ambient.Json.Reader
import Ambient.Json.Skip
import Ambient.Json.Value
import Ambient.Kind
import Ambient.Kind.Class
import Ambient.Lexeme
import Ambient.Lexeme.Documentation
import Ambient.Lexeme.Scan
import Ambient.Lexeme.Trivia
import Ambient.Main
import Ambient.Message
import Ambient.Options
import Ambient.Options.Reader
import Ambient.Parse
import Ambient.Proofs.Command.Account
import Ambient.Proofs.Command.Directory
import Ambient.Proofs.Command.Disk
import Ambient.Proofs.Command.Path
import Ambient.Proofs.Diagnostic.Substitution
import Ambient.Proofs.Grammar.Balanced
import Ambient.Proofs.Grammar.Collects
import Ambient.Proofs.Grammar.Declaration
import Ambient.Proofs.Grammar.Front
import Ambient.Proofs.Grammar.Furthest
import Ambient.Proofs.Grammar.Gives
import Ambient.Proofs.Grammar.Heritage
import Ambient.Proofs.Grammar.Import
import Ambient.Proofs.Grammar.Leads
import Ambient.Proofs.Grammar.Member
import Ambient.Proofs.Grammar.MemberForm
import Ambient.Proofs.Grammar.Modifiers
import Ambient.Proofs.Grammar.Name
import Ambient.Proofs.Grammar.Opening
import Ambient.Proofs.Grammar.Signature
import Ambient.Proofs.Grammar.Statement
import Ambient.Proofs.Grammar.Type
import Ambient.Proofs.Grammar.Unambiguous
import Ambient.Proofs.Grammar.Yields
import Ambient.Proofs.Ground.Blame
import Ambient.Proofs.Ground.Loops
import Ambient.Proofs.Interchange.Dispatch
import Ambient.Proofs.Interchange.Members
import Ambient.Proofs.Interchange.Normal
import Ambient.Proofs.Interchange.RoundTrip
import Ambient.Proofs.Json.Grammar
import Ambient.Proofs.Json.Guard
import Ambient.Proofs.Json.Layout
import Ambient.Proofs.Json.Nesting
import Ambient.Proofs.Json.ReadBack
import Ambient.Proofs.Json.Scalar
import Ambient.Proofs.Level.Discipline
import Ambient.Proofs.Level.Room
import Ambient.Proofs.Level.Type
import Ambient.Proofs.Lexeme.Append
import Ambient.Proofs.Lexeme.Gaps
import Ambient.Proofs.Lexeme.Genuine
import Ambient.Proofs.Lexeme.Leading
import Ambient.Proofs.Lexeme.LineEnds
import Ambient.Proofs.Lexeme.Relaid
import Ambient.Proofs.Lexeme.Scans
import Ambient.Proofs.Lexeme.Session
import Ambient.Proofs.Lexeme.Spelling
import Ambient.Proofs.Pairing.Basic
import Ambient.Proofs.Pairing.Choice
import Ambient.Proofs.Pairing.Declaration
import Ambient.Proofs.Pairing.DefaultExport
import Ambient.Proofs.Pairing.Entry
import Ambient.Proofs.Pairing.Member
import Ambient.Proofs.Pairing.Name
import Ambient.Proofs.Pairing.Repeat
import Ambient.Proofs.Pairing.Rule
import Ambient.Proofs.Pairing.Signature
import Ambient.Proofs.Pairing.Statement
import Ambient.Proofs.Pairing.Type
import Ambient.Proofs.Parse.Brackets
import Ambient.Proofs.Parse.Compose
import Ambient.Proofs.Parse.DocComment
import Ambient.Proofs.Parse.Documentation
import Ambient.Proofs.Parse.Layout
import Ambient.Proofs.Parse.Levels
import Ambient.Proofs.Parse.LineEnds
import Ambient.Proofs.Parse.Malformed
import Ambient.Proofs.Parse.MemberModifiers
import Ambient.Proofs.Parse.Modifiers
import Ambient.Proofs.Parse.Options
import Ambient.Proofs.Parse.Positions
import Ambient.Proofs.Parse.Reads
import Ambient.Proofs.Parse.RestParameter
import Ambient.Proofs.Parse.Strata
import Ambient.Proofs.Parse.Survival
import Ambient.Proofs.Parse.Termination
import Ambient.Proofs.Parse.TypeText
import Ambient.Proofs.Text.Offsets
import Ambient.Proofs.Tree.Comments
import Ambient.Proofs.Tree.Height
import Ambient.Proofs.Tree.Lawful
import Ambient.Proofs.Tree.Parts
import Ambient.Proofs.Tree.Visits
import Ambient.Proofs.Tree.WellKinded
import Ambient.Proofs.Tree.Words
import Ambient.Text.Characters
import Ambient.Text.HiddenRanges
import Ambient.Text.IdentifierRanges
import Ambient.Text.Position
import Ambient.Text.Quoted
import Ambient.Text.Ranges
import Ambient.Text.Trim
import Ambient.Tree.Declaration
import Ambient.Tree.Node
import Ambient.Tree.Shape
import Ambient.Tree.Walk
