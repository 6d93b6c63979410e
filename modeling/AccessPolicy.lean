import AccessPolicy.Codec.Answer
import AccessPolicy.Engine
import AccessPolicy.Expr.Shape
import AccessPolicy.Json.Reader
import AccessPolicy.Json.Writer
import AccessPolicy.Pattern.Matching
import AccessPolicy.Store.Ancestry
import AccessPolicy.Value.Text
import AccessPolicy.Value.WellFormed
import AccessPolicy.Proofs.EvaluationPlan
import AccessPolicy.Proofs.EvaluationDepth
import AccessPolicy.Proofs.PartialFolding
import AccessPolicy.Proofs.RequestExtension
import AccessPolicy.Proofs.ResidualSoundness
import AccessPolicy.Proofs.PolicyOutcome
import AccessPolicy.Proofs.PartialAuthorization
import AccessPolicy.Proofs.ConditionClauses
import AccessPolicy.Proofs.ResidualConditions
import AccessPolicy.Proofs.ResponseCompletion
import AccessPolicy.Proofs.EntityAncestry
import AccessPolicy.Proofs.DeclarativeAuthorization
import AccessPolicy.Proofs.PartialDiagnostics
import AccessPolicy.Proofs.RepeatedFields
import AccessPolicy.Proofs.ResidualDepth
import AccessPolicy.Proofs.PolicySetRevision
import AccessPolicy.Proofs.UnmentionedSlots
import AccessPolicy.Proofs.AlikeValues
import AccessPolicy.Proofs.AlikeOperands
import AccessPolicy.Proofs.SetOrder
import AccessPolicy.Proofs.PrincipalListing
import AccessPolicy.Proofs.EngineRuns
import AccessPolicy.Proofs.RangeArithmetic
import AccessPolicy.Proofs.ValueFormation
import AccessPolicy.Proofs.WellFormedEvaluation
import AccessPolicy.Proofs.TextCutting
import AccessPolicy.Proofs.AddressNotation
import AccessPolicy.Proofs.ValueEncoding
import AccessPolicy.Proofs.PolicyEncoding
import AccessPolicy.Proofs.BuiltValues
import AccessPolicy.Proofs.PatternMatching
import AccessPolicy.Proofs.StoreRebuilding
import AccessPolicy.Proofs.CalendarDays
import AccessPolicy.Proofs.CalendarArithmetic
import AccessPolicy.Proofs.NumeralReading
import AccessPolicy.Proofs.InstantReading
import AccessPolicy.Proofs.OperationFailures
import AccessPolicy.Proofs.DepthLimit
import AccessPolicy.Proofs.ResidualFixedPoints
import AccessPolicy.Proofs.InstantArithmetic
import AccessPolicy.Proofs.InstantRendering
import AccessPolicy.Proofs.DurationReading
import AccessPolicy.Proofs.DurationRendering
import AccessPolicy.Proofs.DecimalNotation
import AccessPolicy.Proofs.RangeInclusion
import AccessPolicy.Proofs.RangeNotation
import AccessPolicy.Proofs.PatternNotation
import AccessPolicy.Proofs.QuotedText
import AccessPolicy.Proofs.ByteOffsets
import AccessPolicy.Proofs.TypeNames
import AccessPolicy.Proofs.EntityNotation
import AccessPolicy.Proofs.IntegerExpressions
import AccessPolicy.Proofs.DistinctKeys
import AccessPolicy.Proofs.PolicyAddition
import AccessPolicy.Proofs.InstantDays
import AccessPolicy.Proofs.SetBuilding
import AccessPolicy.Proofs.ByteOrder
import AccessPolicy.Proofs.ActionListing
