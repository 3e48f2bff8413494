import Rollio.AcceptedProjects
import Rollio.AirbotChannels
import Rollio.AnnexBFraming
import Rollio.AnsweringWorkers
import Rollio.AssemblerProcess
import Rollio.AssemblerShutdown
import Rollio.Av1Headers
import Rollio.BackpressureLockout
import Rollio.BusMessages
import Rollio.CameraFrames
import Rollio.CartesianRuns
import Rollio.CartesianSync
import Rollio.ChannelLogs
import Rollio.CheckedEdits
import Rollio.CheckedSettings
import Rollio.ChildProcesses
import Rollio.ChildTermination
import Rollio.Clocks
import Rollio.CodecSessions
import Rollio.CollectChildren
import Rollio.CollectLoop
import Rollio.CollectPipeline
import Rollio.CollectSessions
import Rollio.CompleteEpisodes
import Rollio.ComposedRuns
import Rollio.ControlClients
import Rollio.ControlEvents
import Rollio.ControllerEpisode
import Rollio.DataloopStorage
import Rollio.DatasetDescription
import Rollio.DatasetResume
import Rollio.DecimalNames
import Rollio.DelayLines
import Rollio.DerivedConfigs
import Rollio.DeviceConfigs
import Rollio.DeviceDiscovery
import Rollio.DeviceDocuments
import Rollio.DeviceHandOff
import Rollio.DeviceLines
import Rollio.DeviceReader
import Rollio.DistinctNames
import Rollio.DriverQueries
import Rollio.DroppingQueues
import Rollio.EditedProjects
import Rollio.EncoderBatching
import Rollio.EncoderConfigs
import Rollio.EncoderForwarding
import Rollio.EncoderProcess
import Rollio.EncoderStreams
import Rollio.EpisodeClosing
import Rollio.EpisodeMetadata
import Rollio.EpisodeRows
import Rollio.EpisodeTurns
import Rollio.EpisodeWhereabouts
import Rollio.FallibleRuns
import Rollio.FileTrees
import Rollio.FirstMatch
import Rollio.FixedStrings
import Rollio.FollowerModes
import Rollio.FollowerWriters
import Rollio.ForwardedCommands
import Rollio.FramePlanes
import Rollio.HardwareConservation
import Rollio.HardwareSessions
import Rollio.HarmlessCommands
import Rollio.HeadOfEpisode
import Rollio.HeldSamples
import Rollio.IdentifyLed
import Rollio.InvocationPaths
import Rollio.JointSync
import Rollio.JsonFields
import Rollio.KeyBindings
import Rollio.Leb128
import Rollio.LerobotDataset
import Rollio.LerobotDispatch
import Rollio.LerobotEpisodeConservation
import Rollio.LerobotEpisodeManager
import Rollio.LerobotMerge
import Rollio.LerobotMuxing
import Rollio.LerobotPackets
import Rollio.LittleEndian
import Rollio.LocalStorage
import Rollio.Mailboxes
import Rollio.MappedJoints
import Rollio.McapAssembler
import Rollio.McapEpisodeManager
import Rollio.McapHandovers
import Rollio.McapPackets
import Rollio.McapSession
import Rollio.McapStaging
import Rollio.McapValidation
import Rollio.MergeEffects
import Rollio.MergeProgress
import Rollio.MergedDataset
import Rollio.MirroredRows
import Rollio.NaluUnits
import Rollio.Namesakes
import Rollio.NeroArm
import Rollio.NeroCommands
import Rollio.NeroGripper
import Rollio.NeroParking
import Rollio.NeroSlew
import Rollio.NumberedStreams
import Rollio.OrderedTables
import Rollio.Outcomes
import Rollio.OwnedTables
import Rollio.PacketDeliveries
import Rollio.PacketTiming
import Rollio.PairingPicker
import Rollio.PairingValidity
import Rollio.ParameterSets
import Rollio.PartialRuns
import Rollio.PassthroughPreview
import Rollio.PipelineTopics
import Rollio.Placeholders
import Rollio.PoseFrames
import Rollio.PreviewAgreement
import Rollio.PreviewBatches
import Rollio.PreviewDecoders
import Rollio.PreviewFrames
import Rollio.PreviewMessages
import Rollio.PreviewRuntime
import Rollio.PreviewSizes
import Rollio.ProjectConfigs
import Rollio.ProjectSlots
import Rollio.PtsSequences
import Rollio.QuaternionRotations
import Rollio.Queues
import Rollio.RampSafety
import Rollio.RampedRuns
import Rollio.RateLimiting
import Rollio.RawDump
import Rollio.RealsenseStream
import Rollio.ReconnectingSockets
import Rollio.RecordedStates
import Rollio.RecordingEncoder
import Rollio.ResolvedChannels
import Rollio.ResumedNumbering
import Rollio.RuntimeConfig
import Rollio.RvlArtifacts
import Rollio.SampledTimelines
import Rollio.SavedProjects
import Rollio.SeparatedNames
import Rollio.SessionSteps
import Rollio.SetupCommands
import Rollio.SetupDevices
import Rollio.SetupEffects
import Rollio.SetupPairings
import Rollio.SetupSettings
import Rollio.SetupState
import Rollio.SetupSubpanel
import Rollio.ShutdownStorage
import Rollio.SocketLifecycles
import Rollio.StagedValidation
import Rollio.StartableProjects
import Rollio.StorageProcess
import Rollio.StorageRuns
import Rollio.StoreRetry
import Rollio.StreamNumbering
import Rollio.StridedRows
import Rollio.SyncGroups
import Rollio.TeleopConfig
import Rollio.TeleopMapping
import Rollio.TeleopRouter
import Rollio.TeleopStartup
import Rollio.TerminalOutcomes
import Rollio.TerminatingRuns
import Rollio.Text
import Rollio.TomlText
import Rollio.TopicNames
import Rollio.TopicWiring
import Rollio.UnixPaths
import Rollio.V4l2Capture
import Rollio.V4l2Query
import Rollio.WizardReports
