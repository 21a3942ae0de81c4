import JsonScada.Processor.HistorianLex
import JsonScada.System.BeepAlarm
import JsonScada.System.BeepList
import JsonScada.System.Counters
import JsonScada.System.Hysteresis
import JsonScada.System.Acknowledged
import JsonScada.Processor.HistorianSql
import JsonScada.System.HistorianFile
import JsonScada.Lib.Collection
import JsonScada.Server.Command
import JsonScada.System.Addressing
import JsonScada.Server.EventAck
import JsonScada.Server.Properties
import JsonScada.Server.Write
import JsonScada.System.Confinement
import JsonScada.Server.Read
import JsonScada.Server.History
import JsonScada.System.Noninterference
import JsonScada.Lib.Watchdog
import JsonScada.Redundancy.Poll
import JsonScada.System.DriverStandby
import JsonScada.System.Standby
import JsonScada.Iec104.Types
import JsonScada.Iec104Server.Command
import JsonScada.System.SelectExecute
import JsonScada.Iec104.Objects
import JsonScada.Iec104Server.Monitor
import JsonScada.System.OneValue
import JsonScada.Dnp3Server.Documents
import JsonScada.Dnp3Server.Control
import JsonScada.System.CommandRouting
import JsonScada.Lib.Allotment
import JsonScada.Dnp3Server.Distribute
import JsonScada.System.AutoAddresses
import JsonScada.Iec104Client.Commands
import JsonScada.System.ClientSelect
import JsonScada.Iec104Client.Update
import JsonScada.System.CommandAck
import JsonScada.System.LostConnection
import JsonScada.Dnp3Client.AutoCreate
import JsonScada.Iec104Client.TagsCreation
import JsonScada.MqttSparkplug.AutoTag
import JsonScada.System.TagCreation
import JsonScada.System.MetricCreation
import JsonScada.System.AutoTags
import JsonScada.Dnp3Client.Acquisition
import JsonScada.System.UntimedValue
import JsonScada.Lib.Endian
import JsonScada.Lib.Interchange
import JsonScada.Plc4xClient.Values
import JsonScada.System.WriteRead
import JsonScada.Plc4xClient.Commands
import JsonScada.Plc4xClient.Extraction
import JsonScada.System.AtMostOnce
import JsonScada.Iec104Client.Receive
import JsonScada.Lib.Single
import JsonScada.System.MonitorRoundTrip
import JsonScada.Calculations.Formulas
import JsonScada.System.FormulaConformity
import JsonScada.Calculations.Dependence
import JsonScada.Calculations.Engine
import JsonScada.Lib.Dataflow
import JsonScada.System.CalculationCycle
import JsonScada.System.Settling
import JsonScada.Lib.JsObject
import JsonScada.Replication.Forward
import JsonScada.Replication.Write
import JsonScada.System.BackfillReplay
import JsonScada.MqttSparkplug.Receive
import JsonScada.System.SparkplugSession
import JsonScada.MqttSparkplug.Publish
import JsonScada.System.SparkplugRoundTrip
import JsonScada.MqttSparkplug.Command
import JsonScada.System.SparkplugAddress
import JsonScada.MqttSparkplug.SparkplugClient
import JsonScada.System.SequenceNumbers
import JsonScada.System.UpdateRuns
import JsonScada.Telegraf.Listener
import JsonScada.System.TelegrafQueue
import JsonScada.I104M.Driver
import JsonScada.System.Datagram
import JsonScada.IccpServer.Points
import JsonScada.IccpServer.Server
import JsonScada.System.PointNaming
import JsonScada.IccpServer.Sessions
import JsonScada.System.TopicAccess
import JsonScada.System.ModelFreshness
import JsonScada.OpcUaServer.Convert
import JsonScada.OpcUaServer.Startup
import JsonScada.System.RealtimeMirror
import JsonScada.OpcUaServer.Command
import JsonScada.System.CommandAnswers
import JsonScada.System.DeadBand
import JsonScada.Processor.Mirror
import JsonScada.System.SqlMirror
import JsonScada.System.ProtectionEvents
import JsonScada.System.HistoricalBackfill
import JsonScada.Processor.ChangeStream
import JsonScada.System.ResumeToken
import JsonScada.Calculations.Indexing
import JsonScada.System.ObjectIndependence
import JsonScada.System.WriteAnswers
import JsonScada.Server.Signin
import JsonScada.System.RoleUnion
import JsonScada.Replication.Packets
import JsonScada.System.ForwardSize
import JsonScada.Lib.Gaps
import JsonScada.System.LossCount
import JsonScada.Lib.Pattern
import JsonScada.MqttSparkplug.Invalidate
import JsonScada.MqttSparkplug.TopicFilter
import JsonScada.System.PathInvalidation
import JsonScada.System.TopicSubscription
import JsonScada.MqttSparkplug.Update
import JsonScada.System.MetricFlags
import JsonScada.Lib.Decimal
import JsonScada.System.CommandClamp
import JsonScada.MqttSparkplug.EdgeNode
import JsonScada.System.DeathSequence
import JsonScada.Iec104.Asdu
import JsonScada.Iec104Server.Interrogation
import JsonScada.System.InterrogationReply
import JsonScada.Iec104Server.Spontaneous
import JsonScada.System.SpontaneousQueue
import JsonScada.Iec104Server.Handling
import JsonScada.System.CommandConfirmation
import JsonScada.System.CommandTranslation
import JsonScada.Iec104Client.Encoding
import JsonScada.System.CommandDisposition
import JsonScada.Dnp3Client.WriteLoop
import JsonScada.Iec104Client.WriteLoop
import JsonScada.Lib.Custody
import JsonScada.System.DatabaseFailure
import JsonScada.System.ValueExtraction
import JsonScada.Lib.Separated
import JsonScada.System.SeriesNaming
import JsonScada.Plc4xClient.AutoTag
import JsonScada.System.TagRetry
import JsonScada.MqttSparkplug.DeviceCommand
import JsonScada.System.CommandRelay
import JsonScada.System.AliasResolution
import JsonScada.Iec104Client.TimeTag
import JsonScada.System.ShortTime
import JsonScada.System.ObjectSaturation
import JsonScada.Iec104Server.TagsDestinations
import JsonScada.System.TagDistribution
import JsonScada.IccpServer.DataSets
import JsonScada.System.DataSetPartition
import JsonScada.System.IntegerVariant
import JsonScada.OpcUaServer.Folders
import JsonScada.System.FolderTree
import JsonScada.Cs104.ClientConnection
import JsonScada.Cs104.Framing
import JsonScada.Cs104.Link
import JsonScada.Cs104.QueueContents
import JsonScada.Cs104.Session
import JsonScada.Cs104.Station
import JsonScada.System.LinkInvariant
import JsonScada.System.LinkSafety
import JsonScada.System.NothingLost
import JsonScada.System.RepeatedAsdus
import JsonScada.Iec104.Codec
import JsonScada.Iec104.Wire
import JsonScada.System.AsduRoundTrip
import JsonScada.Cs101.Unbalanced
