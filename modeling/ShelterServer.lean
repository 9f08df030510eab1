import ShelterServer.Foundations.ByteString
import ShelterServer.Foundations.CInt
import ShelterServer.Foundations.ReflectedSum
import ShelterServer.Foundations.ClampedLedger
import ShelterServer.Foundations.FirstSeen
import ShelterServer.Foundations.BoundedTable
import ShelterServer.Foundations.DescriptorTable
import ShelterServer.Foundations.Framing
import ShelterServer.Foundations.Runs
import ShelterServer.Foundations.Faulting
import ShelterServer.Foundations.IpNotation
import ShelterServer.Foundations.Utf8
import ShelterServer.Foundations.TextInput
import ShelterServer.Foundations.CheckedLoop
import ShelterServer.Json
import ShelterServer.Supplies
import ShelterServer.SupplyArithmetic
import ShelterServer.ReceiveBuffers
import ShelterServer.ClientTables
import ShelterServer.Server
import ShelterServer.Requests
import ShelterServer.TcpClient
import ShelterServer.RequestFraming
import ShelterServer.Alerts
import ShelterServer.AlertDelivery
import ShelterServer.Events
import ShelterServer.Effects
import ShelterServer.Faults
import ShelterServer.StringSafety
import ShelterServer.EndpointCache
import ShelterServer.ConnectedClients
import ShelterServer.Coupling
import ShelterServer.Noninterference
import ShelterServer.LedgerRefinement
import ShelterServer.SelectLoop
import ShelterServer.DescriptorBookkeeping
import ShelterServer.SelectPass
import ShelterServer.LoopSimulation
import ShelterServer.EmergencyRecord
import ShelterServer.Transports
import ShelterServer.SegmentSafety
import ShelterServer.EmergencyNotices
import ShelterServer.ServerWrites
import ShelterServer.PeerResets
import ShelterServer.Shutdown
import ShelterServer.CommandLine
import ShelterServer.NoticeFraming
import ShelterServer.ClientSession
import ShelterServer.SessionEnd
import ShelterServer.SessionRequests
import ShelterServer.SessionAnswers
import ShelterServer.SessionAuthentication
import ShelterServer.SupplyTable
import ShelterServer.UpdateSequences
import ShelterServer.SupplyReplies
import ShelterServer.UdpClient
import ShelterServer.MenuUpdates
import ShelterServer.ClientArguments
import ShelterServer.HostnameEncoding
import ShelterServer.HostnameMemory
import ShelterServer.OsRelease
import ShelterServer.Sensors
import ShelterServer.TableCalls
import ShelterServer.EventLog
import ShelterServer.Foundations.Decimal
import ShelterServer.Foundations.GrowingBuffer
import ShelterServer.Foundations.Ownership
import ShelterServer.Foundations.TextReader
import ShelterServer.JsonArrivals
import ShelterServer.JsonHeap
import ShelterServer.RequestAuthenticity
import ShelterServer.TreeBuilding
import ShelterServer.TreeMembers
