import TagLang.Arena
import TagLang.Bindings
import TagLang.Branching
import TagLang.EnumLayout
import TagLang.Environment
import TagLang.EvalError
import TagLang.Expr
import TagLang.ExprId
import TagLang.Family
import TagLang.InternTable
import TagLang.Interner
import TagLang.Method.Dispatch
import TagLang.Method.Table
import TagLang.Mode
import TagLang.Name
import TagLang.Node
import TagLang.Number
import TagLang.Operation
import TagLang.Operator
import TagLang.OperatorChain
import TagLang.Proofs.ArenaAllocations
import TagLang.Proofs.ArithmeticOutcomes
import TagLang.Proofs.ArmSelection
import TagLang.Proofs.BindingLaws
import TagLang.Proofs.ByteOrder
import TagLang.Proofs.CallAccounts
import TagLang.Proofs.CallLimits
import TagLang.Proofs.CallbackWalks
import TagLang.Proofs.CanonicalLayouts
import TagLang.Proofs.ChainClimbing
import TagLang.Proofs.ChainEffects
import TagLang.Proofs.ChainGrouping
import TagLang.Proofs.ChainUniqueness
import TagLang.Proofs.ClosedPrograms
import TagLang.Proofs.CongruentValues
import TagLang.Proofs.Correspondence
import TagLang.Proofs.ErrorPropagation
import TagLang.Proofs.ErrorReports
import TagLang.Proofs.EvaluationAnswers
import TagLang.Proofs.EvaluationEffects
import TagLang.Proofs.FieldsByText
import TagLang.Proofs.ForeignVariants
import TagLang.Proofs.HereditaryValues
import TagLang.Proofs.InterningRuns
import TagLang.Proofs.MatchedEvaluation
import TagLang.Proofs.MatchedOutcomes
import TagLang.Proofs.MethodResolution
import TagLang.Proofs.MethodReturns
import TagLang.Proofs.ModeRelaxation
import TagLang.Proofs.NumberDivision
import TagLang.Proofs.NumberPowers
import TagLang.Proofs.OperatorMethods
import TagLang.Proofs.PairedEvaluation
import TagLang.Proofs.RecordExtensionality
import TagLang.Proofs.RecordUpdates
import TagLang.Proofs.RepeatedVariants
import TagLang.Proofs.RunAnswers
import TagLang.Proofs.RunTermination
import TagLang.Proofs.ScopeRuns
import TagLang.Proofs.SessionFrame
import TagLang.Proofs.SpanIndependence
import TagLang.Proofs.TagInverses
import TagLang.Proofs.TextPositions
import TagLang.Proofs.TextRoundTrip
import TagLang.Proofs.TextSeams
import TagLang.Proofs.ValueEquality
import TagLang.Proofs.VariantTags
import TagLang.Proofs.VisibleBindings
import TagLang.Proofs.WellFormedValues
import TagLang.Record
import TagLang.Session.Basic
import TagLang.Session.Evaluate
import TagLang.Session.Plan
import TagLang.Session.Run
import TagLang.Span
import TagLang.Text.Basic
import TagLang.Text.GraphemeExtend
import TagLang.Text.Quoted
import TagLang.Text.Unprintable
import TagLang.Value.Basic
import TagLang.Value.Display
import TagLang.Value.Equality
import TagLang.Value.Inspect
