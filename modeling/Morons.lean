import Morons.Library.Attempt
import Morons.Library.Ledger
import Morons.Library.Table
import Morons.Library.Transition
import Morons.Records
import Morons.Run.Acceptance
import Morons.Run.Cancellation
import Morons.Run.Execution
import Morons.Tool.Recovery
import Morons.Command.Execution
import Morons.Session.Creation
import Morons.Session.Delete
import Morons.Write.Blocks
import Morons.Operation
import Morons.Write.Session
import Morons.Write.Run
import Morons.Write.Tool
import Morons.Invariant.Numbering
import Morons.Invariant.Identity
import Morons.Invariant.Session
import Morons.Invariant.Run
import Morons.Invariant.Projection
import Morons.Invariant.History
import Morons.Invariant.Occupancy
import Morons.Invariant.Transcript
import Morons.Invariant.Command
import Morons.Invariant.Sound
import Morons.Guarantee.Commands
import Morons.Startup.Commands
import Morons.Guarantee.Cancellation
import Morons.Invariant.Call
import Morons.Run.Budget
import Morons.Guarantee.Accounting
import Morons.Steering.Mutation
import Morons.Guarantee.Credentials
import Morons.Steering.Queue
import Morons.Invariant.Steering
import Morons.Invariant.Sources
import Morons.Steering.Queries
import Morons.Startup.Steering
import Morons.Guarantee.Steering
import Morons.Submission
import Morons.Invariant.Claims
import Morons.Guarantee.Retries
import Morons.Guarantee.Failures
import Morons.Guarantee.Usage
import Morons.Guarantee.Compaction
import Morons.Guarantee.Draft
import Morons.Guarantee.Events
import Morons.Guarantee.Replay
import Morons.Credential.Format
import Morons.Events.Protocol
import Morons.Provider.SseGrammar
import Morons.Cli.Operations
import Morons.Cli.Transcript
import Morons.Cli.Viewport
import Morons.Library.Runs
import Morons.Provider.Messages
import Morons.Provider.Conversation
import Morons.Guarantee.Reading
import Morons.Guarantee.Editing
import Morons.Guarantee.Children
import Morons.Guarantee.SessionView
import Morons.Guarantee.Refresh
import Morons.Guarantee.Guidance
import Morons.Guarantee.Markdown
import Morons.Guarantee.Projection
import Morons.Invariant.Places
import Morons.Guarantee.Rebuild
import Morons.Guarantee.Snapshots
import Morons.Guarantee.Transcript
