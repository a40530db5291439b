import SuperEthd.AddressViews
import SuperEthd.ArrivalOrder
import SuperEthd.Broadcast
import SuperEthd.BufferMonitor
import SuperEthd.ChecksumVerification
import SuperEthd.CompressorFailure
import SuperEthd.DatagramBounds
import SuperEthd.Demultiplexing
import SuperEthd.EncoderThread
import SuperEthd.EncoderTurns
import SuperEthd.EnoughBuffers
import SuperEthd.HeaderFields
import SuperEthd.HeaderLayout
import SuperEthd.LengthFields
import SuperEthd.Link
import SuperEthd.LoopProgress
import SuperEthd.OptionValidity
import SuperEthd.Ownership
import SuperEthd.PoolQueue
import SuperEthd.ReaderProgress
import SuperEthd.Reassembly
import SuperEthd.ReceiveProgress
import SuperEthd.ReceiveStall
import SuperEthd.Reception
import SuperEthd.SplitLoop
import SuperEthd.TCPFields
import SuperEthd.TapWriter
import SuperEthd.TransmissionSize
import SuperEthd.TransmitProgress
import SuperEthd.TransmitRuns
import SuperEthd.TransmitSide
import SuperEthd.TransmitStall
import SuperEthd.TransmitStream
import SuperEthd.TurnOwnership
import SuperEthd.TurnProgress
