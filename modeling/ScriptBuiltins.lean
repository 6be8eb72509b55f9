import ScriptBuiltins.Argument
import ScriptBuiltins.Binding
import ScriptBuiltins.Builtin
import ScriptBuiltins.Calendar
import ScriptBuiltins.Call
import ScriptBuiltins.Client
import ScriptBuiltins.CommandLine
import ScriptBuiltins.CommandLine.Reader
import ScriptBuiltins.CommandLine.Run
import ScriptBuiltins.DateFormat
import ScriptBuiltins.Decimal
import ScriptBuiltins.Event
import ScriptBuiltins.Fixture
import ScriptBuiltins.Fixture.Reader
import ScriptBuiltins.Flatten
import ScriptBuiltins.Handler.Application
import ScriptBuiltins.Handler.Connections
import ScriptBuiltins.Handler.Texts
import ScriptBuiltins.Handler.Values
import ScriptBuiltins.Host
import ScriptBuiltins.Integer
import ScriptBuiltins.Json
import ScriptBuiltins.Json.Number
import ScriptBuiltins.Json.Printer
import ScriptBuiltins.Json.Quoted
import ScriptBuiltins.Json.Reader
import ScriptBuiltins.Main
import ScriptBuiltins.Message
import ScriptBuiltins.Moment
import ScriptBuiltins.OrderedMap
import ScriptBuiltins.Registry
import ScriptBuiltins.Signature
import ScriptBuiltins.SparseArray
import ScriptBuiltins.Text.Base64
import ScriptBuiltins.Text.Blank
import ScriptBuiltins.Text.Escape
import ScriptBuiltins.Text.Hex
import ScriptBuiltins.Text.LetterCase
import ScriptBuiltins.Text.Markup
import ScriptBuiltins.Text.Utf8
import ScriptBuiltins.Value
import ScriptBuiltins.Proofs.SparseArray
import ScriptBuiltins.Proofs.Equality
import ScriptBuiltins.Proofs.SparseArray.History
import ScriptBuiltins.Proofs.Call
import ScriptBuiltins.Proofs.Flatten
import ScriptBuiltins.Proofs.Binding
import ScriptBuiltins.Proofs.Warnings
import ScriptBuiltins.Proofs.Registry.History
import ScriptBuiltins.Proofs.Text.Blank
import ScriptBuiltins.Proofs.Integer.Digits
import ScriptBuiltins.Proofs.Integer.Numeral
import ScriptBuiltins.Proofs.Ids
import ScriptBuiltins.Proofs.Calendar
import ScriptBuiltins.Proofs.Dates
import ScriptBuiltins.Proofs.OrderedMap
import ScriptBuiltins.Proofs.Value
import ScriptBuiltins.Proofs.Argument
import ScriptBuiltins.Proofs.OrderedMap.History
import ScriptBuiltins.Proofs.Equality.Content
import ScriptBuiltins.Proofs.Client.History
import ScriptBuiltins.Proofs.Text.Base64
import ScriptBuiltins.Proofs.Text.Utf8
import ScriptBuiltins.Proofs.Text.Base64.Written
import ScriptBuiltins.Proofs.CallingWindow
import ScriptBuiltins.Proofs.Client.Offline
import ScriptBuiltins.Proofs.Dates.Order
import ScriptBuiltins.Proofs.Trace
import ScriptBuiltins.Proofs.Coercion
import ScriptBuiltins.Proofs.Text.Escape
import ScriptBuiltins.Proofs.Dates.Offset
import ScriptBuiltins.Proofs.Dates.Composite
import ScriptBuiltins.Proofs.Dates.Year
import ScriptBuiltins.Proofs.Dates.Width
import ScriptBuiltins.Proofs.Json.Number
import ScriptBuiltins.Proofs.Argument.Integer
import ScriptBuiltins.Proofs.Dates.HalfDay
import ScriptBuiltins.Proofs.Fixture
import ScriptBuiltins.Proofs.Flatten.Text
import ScriptBuiltins.Proofs.Text.Hex
