import CommandShell.Buffer
import CommandShell.Completion
import CommandShell.Main
import CommandShell.Pipeline.Rehearsal
import CommandShell.Proofs.Command.Composition
import CommandShell.Proofs.Command.RoundTrip
import CommandShell.Proofs.Completion.SortedSet
import CommandShell.Proofs.History.Appending
import CommandShell.Proofs.History.Reloading
import CommandShell.Proofs.Pipeline.Delivery
import CommandShell.Proofs.Search.Agreement
import CommandShell.Proofs.Session.Echo
import CommandShell.Proofs.Session.Interleaving
import CommandShell.Proofs.Shell.Evaluation
import CommandShell.Proofs.Shell.StoredHistory
import CommandShell.Proofs.Stage.Streams
import CommandShell.Proofs.World.Changes
import CommandShell.Proofs.Completion.Offers
import CommandShell.Proofs.Token.Kept
import CommandShell.Proofs.Completion.FirstWord
import CommandShell.Proofs.Stage.Dispatch
import CommandShell.Proofs.Stage.Lifecycle
import CommandShell.Proofs.Token.Closing
import CommandShell.Proofs.Session.WellFormed
import CommandShell.Proofs.Search.Joining
import CommandShell.Proofs.FileSystem.Openings
import CommandShell.Proofs.Stage.FailedStart
import CommandShell.Proofs.Builtin.Replies
import CommandShell.Proofs.Fanout.Independence
import CommandShell.Proofs.Builtin.Frame
import CommandShell.Proofs.Builtin.Listing
import CommandShell.Proofs.Builtin.Leaving
import CommandShell.Proofs.Token.Automaton
import CommandShell.Proofs.Command.Progress
