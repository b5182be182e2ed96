import ScalableServer.AnnouncedLengths
import ScalableServer.Attribution
import ScalableServer.Audit
import ScalableServer.Bypass
import ScalableServer.Client.Cancellation
import ScalableServer.Client.Descriptors
import ScalableServer.Client.Interpreter
import ScalableServer.Client.Payload
import ScalableServer.Client.ReadData
import ScalableServer.Client.StartFailure
import ScalableServer.Client.ThreadPool
import ScalableServer.ClientController.Descriptors
import ScalableServer.ClientController.StartCommand
import ScalableServer.ClientController.Streams
import ScalableServer.Conversations.Agreement
import ScalableServer.Conversations.Commands
import ScalableServer.Conversations.Experiment
import ScalableServer.Conversations.Framing
import ScalableServer.Conversations.Headers
import ScalableServer.Core.ExactTransfer
import ScalableServer.Lending
import ScalableServer.OneToOne.Clients
import ScalableServer.OneToOne.Descriptors
import ScalableServer.OneToOne.HandleClient
import ScalableServer.ParsePort
import ScalableServer.PayloadBounds
import ScalableServer.PollServer.ConnectionTable
import ScalableServer.PollServer.Descriptors
import ScalableServer.PollServer.Failures
import ScalableServer.ProcessServer.Capacity
import ScalableServer.ProcessServer.Containment
import ScalableServer.ProcessServer.Descriptors
import ScalableServer.ProcessServer.Handoff
import ScalableServer.ProcessServer.Logging
import ScalableServer.ProcessServer.ReplyOrder
import ScalableServer.ProcessServer.Rest
import ScalableServer.ProcessServer.SetupFailure
import ScalableServer.ProcessServer.Teardown
import ScalableServer.ProcessServer.Waiting
import ScalableServer.Shutdown
import ScalableServer.StreamEnds
import ScalableServer.Timestamps
import ScalableServer.UnreadMessages
