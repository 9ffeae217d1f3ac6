import RecordQuery.Main
import RecordQuery.Query.Decode
import RecordQuery.Proofs.Assembly.Replay
import RecordQuery.Proofs.Grammar.Derivation
import RecordQuery.Proofs.Grammar.Passage
import RecordQuery.Proofs.Grammar.Soundness
import RecordQuery.Proofs.Grammar.Completeness
import RecordQuery.Proofs.Grammar.Clauses
import RecordQuery.Proofs.Grammar.Acceptance
import RecordQuery.Proofs.Compilation
import RecordQuery.Proofs.Text.Numeral
import RecordQuery.Proofs.Token.Scanning
import RecordQuery.Proofs.Vocabulary
import RecordQuery.Proofs.Query.Rendering
import RecordQuery.Proofs.Query.RoundTrip
import RecordQuery.Proofs.Query.Recompiling
import RecordQuery.Proofs.Text.Integer
import RecordQuery.Proofs.Grammar.NumberWord
import RecordQuery.Proofs.Json.Scalar
import RecordQuery.Proofs.Json.Depth
import RecordQuery.Proofs.Json.Record
import RecordQuery.Proofs.Query.JsonForm
import RecordQuery.Proofs.Query.Parts
import RecordQuery.Proofs.Query.JsonRoundTrip
import RecordQuery.Proofs.Query.CompiledForm
import RecordQuery.Proofs.Grammar.Production
import RecordQuery.Proofs.Token.Stream
import RecordQuery.Proofs.Token.Locality
import RecordQuery.Proofs.Grammar.Stream
import RecordQuery.Proofs.Grammar.Lockstep
import RecordQuery.Proofs.Grammar.TokenClass
import RecordQuery.Proofs.Grammar.Completion
import RecordQuery.Proofs.Grammar.CorrectPrefix
import RecordQuery.Proofs.Grammar.Gap
import RecordQuery.Proofs.Query.StringContent
import RecordQuery.Proofs.Assembly.Step
import RecordQuery.Proofs.Assembly.Contract
import RecordQuery.Proofs.Token.Tiling
import RecordQuery.Proofs.Token.Trimming
import RecordQuery.Proofs.Command.Input
import RecordQuery.Proofs.Grammar.Room
import RecordQuery.Proofs.Grammar.Level
import RecordQuery.Proofs.Grammar.TooDeep
import RecordQuery.Proofs.Grammar.CutOff
import RecordQuery.Proofs.Grammar.Report
import RecordQuery.Proofs.Grammar.Payload
import RecordQuery.Proofs.Assembly.Criteria
import RecordQuery.Proofs.Vocabulary.Checking
import RecordQuery.Proofs.Token.Outcome
import RecordQuery.Proofs.Token.Position
import RecordQuery.Proofs.Token.Progress
import RecordQuery.Proofs.Pattern.Matching
import RecordQuery.Proofs.Vocabulary.StandardNames
import RecordQuery.Proofs.Vocabulary.ConfigText
import RecordQuery.Proofs.Token.Concatenation
import RecordQuery.Proofs.Query.JsonIdentity
import RecordQuery.Proofs.Json.MemberOrder
import RecordQuery.Proofs.Json.ReorderedValue
import RecordQuery.Proofs.Query.MemberOrder
import RecordQuery.Proofs.Grammar.LexicalError
import RecordQuery.Proofs.Token.Quoted
import RecordQuery.Proofs.Text.Listing
import RecordQuery.Proofs.Command.Listing
import RecordQuery.Proofs.Json.Field
import RecordQuery.Proofs.Query.DataModel
import RecordQuery.Proofs.Grammar.Composition
import RecordQuery.Proofs.Grammar.Displacement
import RecordQuery.Proofs.Token.Surrounding
import RecordQuery.Proofs.Grammar.Trimming
import RecordQuery.Proofs.Grammar.Message
import RecordQuery.Proofs.Command.ReportedPlace
import RecordQuery.Proofs.Grammar.Moment
import RecordQuery.Proofs.Grammar.Stepwise
import RecordQuery.Proofs.Grammar.DepthCounter
import RecordQuery.Proofs.Grammar.OpenLevels
import RecordQuery.Proofs.Grammar.Balance
