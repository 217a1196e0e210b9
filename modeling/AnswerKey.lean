import AnswerKey.Main
import AnswerKey.Proofs.Script.Record
import AnswerKey.Proofs.Script.Agreement
import AnswerKey.Proofs.Code.Automaton
import AnswerKey.Proofs.Script.Unscannable
import AnswerKey.Proofs.Script.Indentation
import AnswerKey.Proofs.Script.Insertion
import AnswerKey.Proofs.Script.Remainder
import AnswerKey.Proofs.Challenge.Regeneration
import AnswerKey.Proofs.Challenge.Stages
import AnswerKey.Proofs.Challenge.Events
import AnswerKey.Proofs.Text.Lines
import AnswerKey.Proofs.Text.Utf8
import AnswerKey.Proofs.Execution.Result
import AnswerKey.Proofs.Json.Printer
import AnswerKey.Proofs.Dialect.Newlines
import AnswerKey.Proofs.Script.Newlines
import AnswerKey.Proofs.Execution.Staging
import AnswerKey.Proofs.Dialect.Collected
import AnswerKey.Proofs.Answer.JsonLiteral
import AnswerKey.Proofs.Execution.ValueLimit
import AnswerKey.Proofs.CommandLine.Reports
import AnswerKey.Proofs.Json.Items
import AnswerKey.Proofs.Json.Proper
import AnswerKey.Proofs.Answer.Comparison
import AnswerKey.Proofs.Json.Written
import AnswerKey.Proofs.Answer.Elements
import AnswerKey.Proofs.Answer.OuterComma
import AnswerKey.Proofs.Answer.PythonLiteral
import AnswerKey.Proofs.Answer.Readings
import AnswerKey.Proofs.Answer.Numerical
import AnswerKey.Proofs.Code.Balance
import AnswerKey.Proofs.Code.Splitting
import AnswerKey.Proofs.Dialect.Commentary
import AnswerKey.Proofs.Dialect.Headings
import AnswerKey.Proofs.Snippet.Functions
import AnswerKey.Proofs.Execution.Capture
import AnswerKey.Proofs.Execution.LastResult
import AnswerKey.Proofs.Snippet.ReturnType
import AnswerKey.Proofs.Script.Feeding
import AnswerKey.Proofs.Answer.Characters
import AnswerKey.Proofs.Execution.LaunchedClass
import AnswerKey.Proofs.Text.Dedent
import AnswerKey.Proofs.Snippet.LineEnds
import AnswerKey.Proofs.Execution.Bindings
import AnswerKey.Proofs.Snippet.Methods
import AnswerKey.Proofs.Script.Roles

