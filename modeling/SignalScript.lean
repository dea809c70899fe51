import SignalScript.Assembler
import SignalScript.Builder
import SignalScript.Diagnostic
import SignalScript.Diagnostic.Encoding
import SignalScript.Json
import SignalScript.Json.Text
import SignalScript.Json.Token
import SignalScript.Operator
import SignalScript.Options
import SignalScript.Options.Encoding
import SignalScript.Options.Format
import SignalScript.Options.Load
import SignalScript.ParseError
import SignalScript.Parser
import SignalScript.Proofs.Builder.Awaiting
import SignalScript.Proofs.Builder.Closing
import SignalScript.Proofs.Builder.Consistency
import SignalScript.Proofs.Builder.ErrorLines
import SignalScript.Proofs.Builder.Evolution
import SignalScript.Proofs.Builder.Frames
import SignalScript.Proofs.Builder.Growth
import SignalScript.Proofs.Builder.Leaves
import SignalScript.Proofs.Builder.Levels
import SignalScript.Proofs.Builder.Limit
import SignalScript.Proofs.Builder.Nearest
import SignalScript.Proofs.Builder.Position
import SignalScript.Proofs.Builder.Returns
import SignalScript.Proofs.Builder.Shift
import SignalScript.Proofs.Builder.Simulation
import SignalScript.Proofs.Comment.Blank
import SignalScript.Proofs.Comment.Names
import SignalScript.Proofs.Comment.Parsing
import SignalScript.Proofs.Comment.Source
import SignalScript.Proofs.Comment.Tokens
import SignalScript.Proofs.Diagnostic.RoundTrip
import SignalScript.Proofs.Grammar.Completeness
import SignalScript.Proofs.Grammar.Derivation
import SignalScript.Proofs.Grammar.Leaves
import SignalScript.Proofs.Grammar.Lexemes
import SignalScript.Proofs.Grammar.Phrase
import SignalScript.Proofs.Grammar.Soundness
import SignalScript.Proofs.Json.Reading
import SignalScript.Proofs.Json.Spelling
import SignalScript.Proofs.Options.Documents
import SignalScript.Proofs.Parser.Alternates
import SignalScript.Proofs.Parser.Arena
import SignalScript.Proofs.Parser.Body
import SignalScript.Proofs.Parser.Calls
import SignalScript.Proofs.Parser.Casing
import SignalScript.Proofs.Parser.Closed
import SignalScript.Proofs.Parser.Completion
import SignalScript.Proofs.Parser.DepthLimit
import SignalScript.Proofs.Parser.Findings
import SignalScript.Proofs.Parser.Invariant
import SignalScript.Proofs.Parser.Laziness
import SignalScript.Proofs.Parser.Leaves
import SignalScript.Proofs.Parser.Links
import SignalScript.Proofs.Parser.Regions
import SignalScript.Proofs.Parser.Results
import SignalScript.Proofs.Parser.Returns
import SignalScript.Proofs.Parser.Safety
import SignalScript.Proofs.Parser.Scripts
import SignalScript.Proofs.Parser.Sections
import SignalScript.Proofs.Parser.Shift
import SignalScript.Proofs.Parser.Strictness
import SignalScript.Proofs.Parser.Warnings
import SignalScript.Proofs.Parser.WellFormed
import SignalScript.Proofs.Render.Header
import SignalScript.Proofs.Render.Lines
import SignalScript.Proofs.Render.Reading
import SignalScript.Proofs.Render.RoundTrip
import SignalScript.Proofs.Text.Casing
import SignalScript.Proofs.Text.Digits
import SignalScript.Proofs.Text.Lines
import SignalScript.Proofs.Token.Buffer
import SignalScript.Proofs.Token.Found
import SignalScript.Proofs.Token.Munch
import SignalScript.Proofs.Token.Names
import SignalScript.Proofs.Token.Respacing
import SignalScript.Proofs.Token.Segments
import SignalScript.Proofs.Token.Spelling
import SignalScript.Proofs.Token.Words
import SignalScript.Proofs.Tree.Arena
import SignalScript.Proofs.Tree.Branch
import SignalScript.Proofs.Tree.Evolution
import SignalScript.Proofs.Tree.Growth
import SignalScript.Proofs.Tree.Links
import SignalScript.Proofs.Tree.Numbering
import SignalScript.Proofs.Tree.Preorder
import SignalScript.Proofs.Tree.Slots
import SignalScript.Proofs.Tree.Spots
import SignalScript.Proofs.Tree.Stack
import SignalScript.Proofs.Tree.WellFormed
import SignalScript.Render
import SignalScript.Text.Digits
import SignalScript.Text.Lines
import SignalScript.Text.UpperCase
import SignalScript.Text.UpperCase.Table
import SignalScript.Token
import SignalScript.Token.Scan
import SignalScript.Token.Stream
import SignalScript.Tree
import SignalScript.Tree.Conditionals
import SignalScript.Tree.Node
import SignalScript.Tree.Script
import SignalScript.Yaml.Cursor
import SignalScript.Yaml.Document
import SignalScript.Yaml.Scalar
