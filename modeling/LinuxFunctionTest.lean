import LinuxFunctionTest.Library.Machine
import LinuxFunctionTest.Library.Cyclic
import LinuxFunctionTest.Library.Bytes
import LinuxFunctionTest.Library.Slots
import LinuxFunctionTest.Sketh.Adapter
import LinuxFunctionTest.Sketh.Transmit
import LinuxFunctionTest.Sketh.TransmitConservation
import LinuxFunctionTest.Sketh.TransmitOwnership
import LinuxFunctionTest.Sketh.Receive
import LinuxFunctionTest.Sketh.ReceiveConservation
import LinuxFunctionTest.SoftDma.Accounting
import LinuxFunctionTest.VirtualPcie.Packet
import LinuxFunctionTest.VirtualPcie.Protocol
import LinuxFunctionTest.VirtualPcie.Wire
import LinuxFunctionTest.DummyUsb.Transport
import LinuxFunctionTest.DummyUsb.TransportRoundTrip
import LinuxFunctionTest.DummyUsb.Controller
import LinuxFunctionTest.DummyUsb.RequestConservation
import LinuxFunctionTest.DummyUsb.InTransfer
import LinuxFunctionTest.Library.Outline
import LinuxFunctionTest.VirtualPcie.Connection
import LinuxFunctionTest.VirtualPcie.ConnectionState
import LinuxFunctionTest.DummyUsb.Hub
import LinuxFunctionTest.Sketh.DescriptorAgreement
import LinuxFunctionTest.DummyUsb.PortStatus
import LinuxFunctionTest.DummyUsb.PortChange
import LinuxFunctionTest.VirtualPcie.TxQueue
import LinuxFunctionTest.VirtualPcie.PacketOwnership
import LinuxFunctionTest.SoftDma.Termination
import LinuxFunctionTest.SoftDma.Status
import LinuxFunctionTest.DummyUsb.Control
import LinuxFunctionTest.DummyUsb.Teardown
import LinuxFunctionTest.DummyUsb.PollLoop
import LinuxFunctionTest.DummyUsb.PollReplies
import LinuxFunctionTest.DummyUsb.ReplyAddress
import LinuxFunctionTest.DummyUsb.UrbLists
import LinuxFunctionTest.Library.ByteStore
import LinuxFunctionTest.VirtualPcie.ConfigSpace
import LinuxFunctionTest.Library.Chunks
import LinuxFunctionTest.LibusbTest.Framing
import LinuxFunctionTest.LibusbTest.ForkedUpload
import LinuxFunctionTest.VirtualPcie.FileLifetime
import LinuxFunctionTest.Sketh.ReceiveFrames
import LinuxFunctionTest.Library.Fallible
import LinuxFunctionTest.Sketh.Lifecycle
import LinuxFunctionTest.Sketh.Bare
import LinuxFunctionTest.Sketh.Probe
import LinuxFunctionTest.Sketh.PointerSafety
import LinuxFunctionTest.Sketh.Reopening
import LinuxFunctionTest.Sketh.Leaks
import LinuxFunctionTest.Library.Window
import LinuxFunctionTest.VirtualPcie.ConfigBounds
import LinuxFunctionTest.VirtualPcie.BarWindows
import LinuxFunctionTest.VirtualPcie.PayloadBounds
import LinuxFunctionTest.DummyUsb.RecvLengths
import LinuxFunctionTest.Sketh.TransmitCleaning
import LinuxFunctionTest.Sketh.MtuChange
import LinuxFunctionTest.Sketh.ReceiveRefill
import LinuxFunctionTest.Sketh.PacketRegions
import LinuxFunctionTest.DummyUsb.Halts
import LinuxFunctionTest.VirtualPcie.BarTable
import LinuxFunctionTest.VirtualPcie.AddressField
import LinuxFunctionTest.DummyUsb.FifoRequest
import LinuxFunctionTest.Sketh.InterruptBalance
import LinuxFunctionTest.DummyUsb.HostThreads
import LinuxFunctionTest.DummyUsb.Handlers
import LinuxFunctionTest.DummyUsb.UdcStop
import LinuxFunctionTest.DummyUsb.LockBalance
import LinuxFunctionTest.VirtualPcie.DeviceExit
import LinuxFunctionTest.VirtualPcie.SelfJoin
import LinuxFunctionTest.VirtualPcie.DisconnectAlone
import LinuxFunctionTest.Library.Scanf
import LinuxFunctionTest.SerialRegread.Devmem
import LinuxFunctionTest.SerialRegread.Line
import LinuxFunctionTest.SerialRegread.Registers
import LinuxFunctionTest.Sketh.DropStats
import LinuxFunctionTest.Sketh.QueueSelection
import LinuxFunctionTest.Library.Paths
import LinuxFunctionTest.LibusbTest.FileServer
import LinuxFunctionTest.CdcWdm.Read
import LinuxFunctionTest.LibusbTest.ServerHistory
import LinuxFunctionTest.Library.Alignment
import LinuxFunctionTest.Library.Image
import LinuxFunctionTest.Ncm.Format
import LinuxFunctionTest.Ncm.Receive
import LinuxFunctionTest.Ncm.Block
import LinuxFunctionTest.Ncm.Transmit
import LinuxFunctionTest.Ncm.Collecting
import LinuxFunctionTest.Ncm.Aggregation
import LinuxFunctionTest.Ncm.Configuration
import LinuxFunctionTest.Ncm.Delivery
import LinuxFunctionTest.CdcWdm.Stream
import LinuxFunctionTest.CdcWdm.Write
import LinuxFunctionTest.CdcWdm.WriteRuns
