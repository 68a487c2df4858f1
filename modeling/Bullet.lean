import Bullet.Lib.PartialRun
import Bullet.Lib.StampedList
import Bullet.Stream.Packet
import Bullet.Stream.VideoDecoder
import Bullet.Stream.DecoderSteps
import Bullet.Stream.DecoderProgress
import Bullet.Stream.DecoderHistory
import Bullet.Stream.DecoderDeadline
import Bullet.Stream.DecoderConsistency
import Bullet.Stream.DecoderAcks
import Bullet.Stream.FrameAck
import Bullet.Stream.PacketGroup
import Bullet.Stream.GroupDelivery
import Bullet.Stream.ExactlyOnce
import Bullet.Stream.SentBatch
import Bullet.Stream.FecRecovery
import Bullet.Stream.PacketReceiver
import Bullet.Stream.GroupLifecycle
import Bullet.Lib.FirstFit
import Bullet.Lib.Blocks
import Bullet.Mac.Dci
import Bullet.Mac.UlHarq
import Bullet.Mac.UlHarqKept
import Bullet.Mac.DlHarq
import Bullet.Lib.ShelfPacking
import Bullet.Mac.DlHarqBeam
import Bullet.Mac.DlHarqServed
import Bullet.Lib.Shares
import Bullet.Lib.Bitmask
import Bullet.Mac.UlAssign
import Bullet.Mac.UlDci
import Bullet.Mac.UlShares
import Bullet.Mac.UlConservation
import Bullet.Mac.OfdmaNewData
import Bullet.Mac.TdmaNewData
import Bullet.Lib.Occupancy
import Bullet.Mac.HarqTable
import Bullet.Mac.HarqTableSound
import Bullet.Mac.HarqRuns
import Bullet.Lib.RecentHistory
import Bullet.Lib.OrderedMap
import Bullet.Trigger.BulletTrigger
import Bullet.Trigger.History
import Bullet.Trigger.Detection
import Bullet.Trigger.Indexing
import Bullet.Lib.Samples
import Bullet.Trigger.Conservation
import Bullet.Trigger.ConfidentDemand
import Bullet.Mac.ShortBsr
import Bullet.Ue.NrUeMac
import Bullet.Ue.GrantBudget
import Bullet.Ue.GrantFits
import Bullet.Ue.Opportunity
import Bullet.Ue.SchedulingRequest
import Bullet.Lib.NestedMap
import Bullet.Stream.Sender
import Bullet.Stream.SenderBatches
import Bullet.Stream.Retransmission
import Bullet.Stream.RetransmissionCheck
import Bullet.Stream.SenderHistory
import Bullet.Stream.SenderGroups
import Bullet.Stream.SendQueue
import Bullet.Stream.RtxAfterSend
import Bullet.Lib.SlidingWindow
import Bullet.Stream.SenderWindows
import Bullet.Lib.RunningMean
import Bullet.Lib.BitFields
import Bullet.Phy.SfnSf
import Bullet.Lib.Rekey
import Bullet.Phy.NrPhy
import Bullet.Phy.SlotOrder
import Bullet.Phy.SlotArithmetic
import Bullet.Phy.PostponedSlots
import Bullet.Lib.Windows
import Bullet.Ue.SrOccasions
import Bullet.Lib.Wire
import Bullet.Lib.Binary64
import Bullet.Stream.PacketHeader
import Bullet.Stream.HeaderFormat
import Bullet.Stream.RttStatistics
import Bullet.Stream.NetworkPacket
import Bullet.Stream.WireRoundTrip
import Bullet.Stream.FecPacketSize
import Bullet.Stream.FecPolicy
import Bullet.Stream.TcpFrames
import Bullet.Stream.FrameReassembly
import Bullet.Stream.FecFidelity
import Bullet.Lib.CyclicTable
import Bullet.Lib.KeyedLists
import Bullet.Phy.TddPattern
import Bullet.Phy.PatternSearch
import Bullet.Phy.PatternTables
import Bullet.Phy.SlotIndication
import Bullet.Phy.NrEesmErrorModel
import Bullet.Phy.CodeBlocks
import Bullet.Phy.NrAmc
import Bullet.Lib.ValueMap
import Bullet.Mac.UeLifecycle
import Bullet.Mac.LifecycleRuns
import Bullet.Lib.LastOutput
import Bullet.Mac.UlQueues
import Bullet.Trigger.StageDemand
import Bullet.Lib.Faults
import Bullet.Mac.UlDivisions
import Bullet.Mac.BeamSymbols
import Bullet.Mac.UlDataDivisions
import Bullet.Lib.HeldValues
import Bullet.Mac.SrsOffsets
import Bullet.Mac.SrsTurns
import Bullet.Lib.FirstOfEach
import Bullet.Mac.RepeatedFeedbacks
import Bullet.Mac.DlGrants
import Bullet.Rlc.SequenceNumber
import Bullet.Rlc.LengthIndicators
import Bullet.Rlc.UmHeader
import Bullet.Rlc.UmRoundTrip
import Bullet.Rlc.AmHeader
import Bullet.Rlc.AmRoundTrip
import Bullet.Lib.SizedTable
import Bullet.Rlc.Am
import Bullet.Rlc.AmOpportunity
import Bullet.Rlc.AmReceive
import Bullet.Rlc.AmAssembly
import Bullet.Rlc.AmPackets
import Bullet.Rlc.AmBuffers
import Bullet.Rlc.AmStatus
import Bullet.Rlc.AmReceiver
import Bullet.Rlc.AmTransmitter
import Bullet.Rlc.AmRuns
import Bullet.Ue.DlHarqFeedback
import Bullet.Mac.NrGnbMac
import Bullet.Mac.LcAccounting
import Bullet.Mac.SchedulingRequests
import Bullet.Mac.BeamShares
import Bullet.Lib.FairRounds
import Bullet.Lib.StaleMembers
import Bullet.Mac.RoundRobin
import Bullet.Lib.PointUpdates
import Bullet.Mac.Policies
import Bullet.Mac.UlStages
import Bullet.Mac.SlotSteps
import Bullet.Mac.PfUl
import Bullet.Mac.PfDl
import Bullet.Mac.PfTdma
import Bullet.Mac.PfHistory
import Bullet.Mac.UnneededStreams
import Bullet.Lib.SerialNumber
import Bullet.Lib.SortedInsert
import Bullet.Stream.NetRecord
import Bullet.Stream.ReceiveWindow
import Bullet.Lib.RunLength
import Bullet.Stream.FeedbackScan
import Bullet.Stream.LossStatistics
import Bullet.Stream.FeedbackOrder
import Bullet.Stream.BurstGrouping
import Bullet.Stream.BurstAverages
import Bullet.Stream.GroupStatistics
import Bullet.Trigger.GaussianEstimator
import Bullet.Trigger.ProactiveDemand
import Bullet.Trigger.DemandBound
import Bullet.Trigger.TriggerSlots
import Bullet.Rlc.AmReception
import Bullet.Rlc.AmStatusContent
import Bullet.Rlc.SequenceWord
import Bullet.Mac.ResourceTrace
import Bullet.Stream.SenderBasedController
import Bullet.Stream.ControllerHistories
import Bullet.Lib.ReorderingWindow
import Bullet.Lib.Segmentation
import Bullet.Rlc.Um
import Bullet.Rlc.UmBuffer
import Bullet.Rlc.UmWindow
import Bullet.Rlc.UmReassembly
import Bullet.Rlc.UmTransmitter
import Bullet.Rlc.UmReception
import Bullet.Mac.UlAllocations
import Bullet.Lib.LeastSquares
import Bullet.Stream.OveruseEstimator
import Bullet.Stream.OveruseDetector
import Bullet.Stream.DelayBasedRate
import Bullet.Stream.GccController
import Bullet.Stream.GccRuns
import Bullet.Stream.Cargo
import Bullet.Stream.SenderCargo
import Bullet.Stream.SenderPlaces
import Bullet.Stream.Session
import Bullet.Rlc.AmDelivery
import Bullet.Rlc.AmRetention
import Bullet.Rlc.AmLink
import Bullet.Rlc.AmLinkRuns
import Bullet.Lib.Tiles
import Bullet.Mac.NewDataLayout
import Bullet.Mac.SchedulerLayout
import Bullet.Mac.Slots
import Bullet.Mac.SlotLayout
import Bullet.Mac.SlotRuns
