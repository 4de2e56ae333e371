import Reckon.Text.Ranges
import Reckon.Text.Letter
import Reckon.Text.Printable
import Reckon.Text.Blank
import Reckon.Text.Quoted
import Reckon.Text.Separators
import Reckon.Text.Binary
import Reckon.Real.Binary
import Reckon.Real.Shortest
import Reckon.Real.Power
import Reckon.Real.Reading
import Reckon.Number.Basic
import Reckon.Number.Literal
import Reckon.Token.Basic
import Reckon.Token.Hash
import Reckon.Token.Map
import Reckon.Token.Lexer
import Reckon.Pattern.Match
import Reckon.Pattern.Substitute
import Reckon.Rule.Basic
import Reckon.Rule.Builtin
import Reckon.Rule.Library
import Reckon.Rule.Compile
import Reckon.Reduction.Basic
import Reckon.Session.Basic
import Reckon.Session.Call
import Reckon.Session.History
import Reckon.Session.Batch
import Reckon.Config.Basic
import Reckon.Log.Basic
import Reckon.Report.Step
import Reckon.Report.Result
import Reckon.Yaml.Token
import Reckon.Yaml.Scanner
import Reckon.Yaml.Parser
import Reckon.Yaml.Resolve
import Reckon.Yaml.Node
import Reckon.Yaml.Emit
import Reckon.Config.Yaml
import Reckon.Disk.Basic
import Reckon.Session.Input
import Reckon.Config.Load
import Reckon.Cli.Values
import Reckon.Cli.Flags
import Reckon.Cli.Commands
import Reckon.Cli.Help
import Reckon.Cli.Complete
import Reckon.Cli.Scripts
import Reckon.Cli.Console
import Reckon.Cli.Repl
import Reckon.Cli.Run
import Reckon.Main
import Reckon.Proofs.Session.Ledger
import Reckon.Proofs.Token.Equality
import Reckon.Proofs.Token.Maps
import Reckon.Proofs.Pattern.Enumeration
import Reckon.Proofs.Pattern.Instantiate
import Reckon.Proofs.Reduction.Budget
import Reckon.Proofs.Arith.Expr
import Reckon.Proofs.Arith.Rules
import Reckon.Proofs.Arith.Scan
import Reckon.Proofs.Arith.Stuck
import Reckon.Proofs.Arith.Text
import Reckon.Proofs.Arith.Evaluate
import Reckon.Proofs.Rule.Screen
import Reckon.Proofs.Rule.Definition
import Reckon.Proofs.Brackets.Basic
import Reckon.Proofs.Brackets.Values
import Reckon.Proofs.Brackets.Builtin
import Reckon.Proofs.Brackets.Compile
import Reckon.Proofs.Brackets.Reduction
import Reckon.Proofs.Context.Shift
import Reckon.Proofs.Context.Closing
import Reckon.Proofs.Context.Continuation
import Reckon.Proofs.Pattern.Written
import Reckon.Proofs.Brackets.Folding
import Reckon.Proofs.Token.Lookups
import Reckon.Proofs.Pattern.Rebuild
import Reckon.Proofs.Session.Roundtrip
import Reckon.Proofs.Rule.Conditional
import Reckon.Proofs.Number.Power
import Reckon.Proofs.Number.Order
import Reckon.Proofs.Logic.Formula
import Reckon.Proofs.Logic.Rules
import Reckon.Proofs.Logic.Scan
import Reckon.Proofs.Logic.Text
import Reckon.Proofs.Logic.Evaluate
import Reckon.Proofs.Nested.Term
import Reckon.Proofs.Nested.Scan
import Reckon.Proofs.Nested.Evaluate
import Reckon.Proofs.Nested.Between
import Reckon.Proofs.Nested.Parts
import Reckon.Proofs.Number.Integer
import Reckon.Proofs.Lexing.Readable
import Reckon.Proofs.Lexing.Reprint
import Reckon.Proofs.Rule.Binding
import Reckon.Proofs.Reduction.Numbering
import Reckon.Proofs.Increment.Reduction
import Reckon.Proofs.Increment.Text
