import Eventual.Main
import Eventual.Proofs.Alarm
import Eventual.Proofs.AnyOrder
import Eventual.Proofs.Batch
import Eventual.Proofs.Behalf
import Eventual.Proofs.Calls
import Eventual.Proofs.Capture
import Eventual.Proofs.Chores
import Eventual.Proofs.Composed
import Eventual.Proofs.Confluence
import Eventual.Proofs.Consistency
import Eventual.Proofs.Delivery
import Eventual.Proofs.Elision
import Eventual.Proofs.Exhaustion
import Eventual.Proofs.Handover
import Eventual.Proofs.Independence
import Eventual.Proofs.JoinLaw
import Eventual.Proofs.Joining
import Eventual.Proofs.Likeness
import Eventual.Proofs.Limit
import Eventual.Proofs.Listening
import Eventual.Proofs.Lockstep
import Eventual.Proofs.Measuring
import Eventual.Proofs.Pieces
import Eventual.Proofs.Pipeline
import Eventual.Proofs.Propagation
import Eventual.Proofs.Racing
import Eventual.Proofs.Report
import Eventual.Proofs.RetryLaw
import Eventual.Proofs.RetryStage
import Eventual.Proofs.Scope
import Eventual.Proofs.Selecting
import Eventual.Proofs.SessionLikeness
import Eventual.Proofs.TimedJoin
import Eventual.Session.Run
import Eventual.Proofs.Ownership
import Eventual.Proofs.Sequencing
import Eventual.Proofs.Laws
import Eventual.Proofs.Agreement
import Eventual.Proofs.Placeholder
import Eventual.Proofs.Precedence
import Eventual.Proofs.Restoring
import Eventual.Proofs.SettingTexts
import Eventual.Proofs.Walking
import Eventual.Proofs.Cutting
import Eventual.Proofs.Filling
import Eventual.Proofs.Display
