import FdbKafkaBridge.Protobuf.Varint
import FdbKafkaBridge.Protobuf.Wire
import FdbKafkaBridge.Slicing.Partition
import FdbKafkaBridge.Slicing.Elements
import FdbKafkaBridge.Interaction.Prog
import FdbKafkaBridge.Interaction.Monitor
import FdbKafkaBridge.Interaction.Runs
import FdbKafkaBridge.Interaction.Descriptions
import FdbKafkaBridge.Interaction.Calls
import FdbKafkaBridge.Interaction.Exceptions
import FdbKafkaBridge.Interaction.Followed
import FdbKafkaBridge.Interaction.Environment
import FdbKafkaBridge.Storage.Disk
import FdbKafkaBridge.Storage.Replacement
import FdbKafkaBridge.Storage.Register
import FdbKafkaBridge.ReplayLog.GapFree
import FdbKafkaBridge.ReplayLog.Segment
import FdbKafkaBridge.Messaging.Outbox
import FdbKafkaBridge.Python
import FdbKafkaBridge.Serialization.Errors
import FdbKafkaBridge.Serialization.Model
import FdbKafkaBridge.Serialization.MutationsPb
import FdbKafkaBridge.Serialization.Checks
import FdbKafkaBridge.Serialization.Wire
import FdbKafkaBridge.Serialization.Serializer
import FdbKafkaBridge.Serialization.VersionGroup
import FdbKafkaBridge.Serialization.Deserializer
import FdbKafkaBridge.Serialization.Proofs.MessageProofs
import FdbKafkaBridge.Serialization.Proofs.CheckProofs
import FdbKafkaBridge.Serialization.Proofs.RoundTripProofs
import FdbKafkaBridge.Serialization.Proofs.VersionGroupProofs
import FdbKafkaBridge.Serialization.Proofs.SlicingProofs
import FdbKafkaBridge.Serialization.Proofs.OutcomeProofs
import FdbKafkaBridge.Serialization.Proofs.TruncationProofs
import FdbKafkaBridge.Serialization.Proofs.AcceptanceProofs
import FdbKafkaBridge.Exceptions
import FdbKafkaBridge.Native
import FdbKafkaBridge.Cdc.Client
import FdbKafkaBridge.Cdc.Reply
import FdbKafkaBridge.Cdc.Entries
import FdbKafkaBridge.Cdc.Listener
import FdbKafkaBridge.Cdc.Methods
import FdbKafkaBridge.Cdc.Proofs.ClientProofs
import FdbKafkaBridge.Cdc.Proofs.ReplyProofs
import FdbKafkaBridge.Cdc.Proofs.StartProofs
import FdbKafkaBridge.Cdc.Proofs.PollProofs
import FdbKafkaBridge.Cdc.Proofs.GuardProofs
import FdbKafkaBridge.Cdc.Proofs.ResumeProofs
import FdbKafkaBridge.Cdc.Proofs.ReacknowledgeProofs
import FdbKafkaBridge.Cdc.Proofs.RestoredProofs
import FdbKafkaBridge.Kafka.Producer
import FdbKafkaBridge.Kafka.Methods
import FdbKafkaBridge.Kafka.Proofs.MethodProofs
import FdbKafkaBridge.Kafka.Proofs.LegalityProofs
import FdbKafkaBridge.Kafka.Proofs.DeliveryProofs
import FdbKafkaBridge.Bridge.CursorFile
import FdbKafkaBridge.Bridge.CursorDisk
import FdbKafkaBridge.Bridge.Pipeline
import FdbKafkaBridge.Bridge.Bridge
import FdbKafkaBridge.Bridge.Daemon
import FdbKafkaBridge.Bridge.Components
import FdbKafkaBridge.Bridge.Config
import FdbKafkaBridge.Bridge.Protocol
import FdbKafkaBridge.Bridge.History
import FdbKafkaBridge.Bridge.Proofs.ConfigProofs
import FdbKafkaBridge.Bridge.Proofs.SinkProofs
import FdbKafkaBridge.Bridge.Proofs.ListenerProofs
import FdbKafkaBridge.Bridge.Proofs.ProducerProofs
import FdbKafkaBridge.Bridge.Proofs.PipelineProofs
import FdbKafkaBridge.Bridge.Proofs.RaisedProofs
import FdbKafkaBridge.Bridge.Proofs.StepProofs
import FdbKafkaBridge.Bridge.Proofs.MoveProofs
import FdbKafkaBridge.Bridge.Proofs.HistoryProofs
import FdbKafkaBridge.Bridge.Proofs.StepRunProofs
import FdbKafkaBridge.Bridge.Proofs.CursorFileProofs
import FdbKafkaBridge.Bridge.Proofs.LifecycleProofs
import FdbKafkaBridge.Bridge.Proofs.FinishProofs
import FdbKafkaBridge.Bridge.Proofs.StopProofs
import FdbKafkaBridge.Bridge.Proofs.BoundProofs
import FdbKafkaBridge.Bridge.Proofs.DaemonProofs
import FdbKafkaBridge.Bridge.Proofs.BuildProofs
import FdbKafkaBridge.Bridge.Proofs.LinkProofs
import FdbKafkaBridge.Bridge.Proofs.TallyProofs
import FdbKafkaBridge.Bridge.Proofs.DaemonLinkProofs
import FdbKafkaBridge.Bridge.Proofs.RunLoopProofs
import FdbKafkaBridge.Bridge.Proofs.CommitProofs
import FdbKafkaBridge.Bridge.Proofs.MetricsProofs
import FdbKafkaBridge.Bridge.Proofs.LoadingProofs
import FdbKafkaBridge.Bridge.Proofs.SavedCursorProofs
import FdbKafkaBridge.Bridge.Proofs.UnusableCursorProofs
import FdbKafkaBridge.Keys.PrefixRange
import FdbKafkaBridge.Cdc.KeyRange
import FdbKafkaBridge.Cdc.Proofs.KeyRangeProofs
import FdbKafkaBridge.Collections.Dict
import FdbKafkaBridge.Relational.Outcome
import FdbKafkaBridge.Serialization.Proofs.SecrecyProofs
import FdbKafkaBridge.Demo.Workload
import FdbKafkaBridge.Demo.Output
import FdbKafkaBridge.Demo.Proofs.KeyProofs
import FdbKafkaBridge.Demo.Proofs.VerifyProofs
import FdbKafkaBridge.Demo.Proofs.OutputProofs
