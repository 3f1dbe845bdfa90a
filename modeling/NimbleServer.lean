import NimbleServer.Lib.Run
import NimbleServer.Model.State
import NimbleServer.Model.Participants
import NimbleServer.Model.Parties
import NimbleServer.Model.Composing
import NimbleServer.Model.Connections
import NimbleServer.Model.Requests
import NimbleServer.Model.Server
import NimbleServer.Model.Operations
import NimbleServer.Model.PlainExternal
import NimbleServer.Lib.FreeList
import NimbleServer.Proofs.Outcomes
import NimbleServer.Proofs.Pool
import NimbleServer.Model.PlainServer
import NimbleServer.Model.Update
import NimbleServer.Proofs.CircularBuffer
import NimbleServer.Proofs.Lookup
import NimbleServer.Proofs.PartyCount
import NimbleServer.Proofs.PartyBinding
import NimbleServer.Proofs.Ownership
import NimbleServer.Proofs.ConnectionTable
import NimbleServer.Proofs.References
import NimbleServer.Lib.Format
import NimbleServer.Lib.Fitting
import NimbleServer.Proofs.Encoding
import NimbleServer.Proofs.ComposeWalk
import NimbleServer.Proofs.Round
import NimbleServer.Proofs.ComposedSteps
import NimbleServer.Proofs.Contribution
import NimbleServer.Proofs.StepRanges
import NimbleServer.Lib.Sessions
import NimbleServer.Proofs.History
import NimbleServer.Proofs.Lifecycle
import NimbleServer.Lib.Window
import NimbleServer.Proofs.Weaving
import NimbleServer.Proofs.FailedRounds
import NimbleServer.Proofs.StartingStep
import NimbleServer.Proofs.Feed
import NimbleServer.Proofs.ReceiveLoop
import NimbleServer.Proofs.BackReferences
import NimbleServer.Proofs.JoinHandling
import NimbleServer.Lib.Numbered
import NimbleServer.Proofs.Acknowledgement
import NimbleServer.Proofs.AuthoritativeBuffer
import NimbleServer.Proofs.Disconnect
import NimbleServer.Proofs.HostMigration
import NimbleServer.Proofs.CommandLoop
import NimbleServer.Lib.Trace
import NimbleServer.Proofs.Transfers
import NimbleServer.Proofs.Downloads
import NimbleServer.Proofs.CompleteRequests
import NimbleServer.Proofs.Determinism
import NimbleServer.Lib.SuffixSums
import NimbleServer.Proofs.PartyTicks
import NimbleServer.Proofs.PartyPlay
import NimbleServer.Proofs.DisconnectLaw
import NimbleServer.Proofs.GracePeriod
import NimbleServer.Proofs.ConnectRequests
import NimbleServer.Proofs.Rejoining
import NimbleServer.Lib.Lockstep
import NimbleServer.Proofs.LockstepRefinement
import NimbleServer.Proofs.Throughput
import NimbleServer.Proofs.Replicas
import NimbleServer.Lib.Streak
import NimbleServer.Model.UpdateQuality
import NimbleServer.Proofs.HostRuns
import NimbleServer.Proofs.SilentClients
import NimbleServer.Proofs.MigratedGame
import NimbleServer.Proofs.LostPlaces
import NimbleServer.Proofs.Stops
import NimbleServer.Proofs.DatagramStops
import NimbleServer.Lib.Isolation
import NimbleServer.Proofs.Isolation
import NimbleServer.Proofs.ParticipantLookups
