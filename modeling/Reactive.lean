import Reactive.Number.Nearest
import Reactive.Patch
import Reactive.Value.Text
import Reactive.StateTree
import Reactive.Timestamp.Reading
import Reactive.Trace
import Reactive.Definition
import Reactive.Automaton
import Reactive.Emission
import Reactive.Exchange
import Reactive.Signal
import Reactive.Encoding
import Reactive.Inspect
import Reactive.Proofs.Refinement
import Reactive.Proofs.Fields
import Reactive.Proofs.Coupling
import Reactive.Proofs.BaseSignals
import Reactive.Proofs.GeneratorPulls
import Reactive.Proofs.ObserverPulls
import Reactive.Proofs.Combination
import Reactive.Proofs.Networks
import Reactive.Proofs.Passages
import Reactive.Proofs.Subtrees
import Reactive.Proofs.Integrity
import Reactive.Proofs.History
import Reactive.Proofs.Departures
import Reactive.Proofs.Outputs
import Reactive.Proofs.Replays
import Reactive.Proofs.Halts
import Reactive.Proofs.Traces
import Reactive.Proofs.Validation
import Reactive.Proofs.CrashedComparisons
import Reactive.Proofs.Worlds
import Reactive.Proofs.Subjects
import Reactive.Proofs.Followers
import Reactive.Proofs.Happenings
import Reactive.Proofs.Audience
import Reactive.Proofs.BasePulls
import Reactive.Proofs.Notes
import Reactive.Proofs.Plans
import Reactive.Proofs.PlanPulls
import Reactive.Proofs.Shelves
import Reactive.Proofs.Attachment
import Reactive.Proofs.Ends
import Reactive.Proofs.Positions
import Reactive.Proofs.Places
import Reactive.Proofs.Atomicity
import Reactive.Proofs.Effects
import Reactive.Proofs.Members
import Reactive.Proofs.Undoing
import Reactive.Proofs.Independence
import Reactive.Proofs.PointerTexts
import Reactive.Proofs.Merging
import Reactive.Proofs.Limits
import Reactive.Proofs.Levels
import Reactive.Proofs.Descents
import Reactive.Proofs.Retention
import Reactive.Proofs.Rearrangements
import Reactive.Proofs.Rules
import Reactive.Proofs.Fusion
import Reactive.Proofs.Flattening
import Reactive.Proofs.FollowUps
import Reactive.Proofs.Spellings
import Reactive.Proofs.TimestampTexts
import Reactive.Proofs.WrittenForms
