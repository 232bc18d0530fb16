import LambdaQuery.Bindings
import LambdaQuery.Collection.Aggregate
import LambdaQuery.Collection.Each
import LambdaQuery.Collection.Element
import LambdaQuery.Collection.Error
import LambdaQuery.Collection.Group
import LambdaQuery.Collection.Set
import LambdaQuery.Collection.Sort
import LambdaQuery.Collection.StableSort
import LambdaQuery.Collection.Table
import LambdaQuery.Double.Basic
import LambdaQuery.Double.Layout
import LambdaQuery.Double.Magnitude
import LambdaQuery.Double.Reader
import LambdaQuery.Double.Shortest
import LambdaQuery.Expr.Basic
import LambdaQuery.Expr.Binder
import LambdaQuery.Expr.Error
import LambdaQuery.Expr.Eval
import LambdaQuery.Expr.Method
import LambdaQuery.Expr.Operation
import LambdaQuery.Expr.Typing
import LambdaQuery.Integer.Width
import LambdaQuery.Json.Basic
import LambdaQuery.Json.Document
import LambdaQuery.Json.Number
import LambdaQuery.Operator.Basic
import LambdaQuery.Operator.Shape
import LambdaQuery.Proofs.AcceptedCalls
import LambdaQuery.Proofs.AssignabilityOrder
import LambdaQuery.Proofs.BoundValues
import LambdaQuery.Proofs.CalendarDays
import LambdaQuery.Proofs.CallAcceptance
import LambdaQuery.Proofs.CallLayout
import LambdaQuery.Proofs.ChainedOrderings
import LambdaQuery.Proofs.ClosedReading
import LambdaQuery.Proofs.CollectionTyping
import LambdaQuery.Proofs.CommonTypes
import LambdaQuery.Proofs.ComparisonCoherence
import LambdaQuery.Proofs.Denotation
import LambdaQuery.Proofs.DoubleEquality
import LambdaQuery.Proofs.Equality
import LambdaQuery.Proofs.ExprSoundness
import LambdaQuery.Proofs.ExprTyping
import LambdaQuery.Proofs.ExtremesBySorting
import LambdaQuery.Proofs.FrameDiscipline
import LambdaQuery.Proofs.FurtherBindings
import LambdaQuery.Proofs.FurtherParameters
import LambdaQuery.Proofs.FusedForms
import LambdaQuery.Proofs.Grouping
import LambdaQuery.Proofs.ImplicitParameter
import LambdaQuery.Proofs.InPlaceTyping
import LambdaQuery.Proofs.InferredTypes
import LambdaQuery.Proofs.IntegerArithmetic
import LambdaQuery.Proofs.IntegerLiterals
import LambdaQuery.Proofs.IntegerRounding
import LambdaQuery.Proofs.IntegerSums
import LambdaQuery.Proofs.Joining
import LambdaQuery.Proofs.JsonNumbers
import LambdaQuery.Proofs.JsonText
import LambdaQuery.Proofs.KeyHashing
import LambdaQuery.Proofs.KeySorting
import LambdaQuery.Proofs.LookAhead
import LambdaQuery.Proofs.Membership
import LambdaQuery.Proofs.Merging
import LambdaQuery.Proofs.MethodAgreement
import LambdaQuery.Proofs.NameLookup
import LambdaQuery.Proofs.NumberDelimiting
import LambdaQuery.Proofs.Outcome
import LambdaQuery.Proofs.OverloadChoice
import LambdaQuery.Proofs.ParserCorrectness
import LambdaQuery.Proofs.Partitioning
import LambdaQuery.Proofs.PlacedRuns
import LambdaQuery.Proofs.QueryBuilding
import LambdaQuery.Proofs.QuerySoundness
import LambdaQuery.Proofs.QueryTyping
import LambdaQuery.Proofs.ReadingProgress
import LambdaQuery.Proofs.Relocation
import LambdaQuery.Proofs.RunSorting
import LambdaQuery.Proofs.SameValues
import LambdaQuery.Proofs.Sequencing
import LambdaQuery.Proofs.SetOperators
import LambdaQuery.Proofs.SmallSorting
import LambdaQuery.Proofs.SpelledTexts
import LambdaQuery.Proofs.StableSorting
import LambdaQuery.Proofs.TermWriting
import LambdaQuery.Proofs.TimestampText
import LambdaQuery.Proofs.TokenProgress
import LambdaQuery.Proofs.TokenSpelling
import LambdaQuery.Proofs.TokenTails
import LambdaQuery.Proofs.TypedJson
import LambdaQuery.Proofs.UntypedJson
import LambdaQuery.Proofs.ValueOrder
import LambdaQuery.Proofs.ValueTyping
import LambdaQuery.Proofs.WellScoped
import LambdaQuery.Query.Apply
import LambdaQuery.Query.Basic
import LambdaQuery.Query.Build
import LambdaQuery.Query.Error
import LambdaQuery.Query.Function
import LambdaQuery.Query.Method
import LambdaQuery.Query.Operation
import LambdaQuery.Query.Run
import LambdaQuery.Query.Source
import LambdaQuery.Signature.Basic
import LambdaQuery.Signature.Library
import LambdaQuery.Signature.Pattern
import LambdaQuery.Term.Basic
import LambdaQuery.Term.Parser
import LambdaQuery.Text.Blank
import LambdaQuery.Text.Case
import LambdaQuery.Text.Hex
import LambdaQuery.Text.Letter
import LambdaQuery.Text.Numeral
import LambdaQuery.Text.Quoted
import LambdaQuery.Text.Ranges
import LambdaQuery.Text.Visible
import LambdaQuery.Timestamp.Basic
import LambdaQuery.Timestamp.Calendar
import LambdaQuery.Timestamp.Text
import LambdaQuery.Token.Basic
import LambdaQuery.Token.Lexer
import LambdaQuery.Ty.Assignable
import LambdaQuery.Ty.Basic
import LambdaQuery.Ty.Display
import LambdaQuery.Value.Basic
import LambdaQuery.Value.Display
import LambdaQuery.Value.Error
import LambdaQuery.Value.Json
import LambdaQuery.Value.Key
import LambdaQuery.Value.Order
