import Multisync.ByteLayout
import Multisync.FileStreams
import Multisync.OrderedMap
import Multisync.Metadata
import Multisync.Effects
import Multisync.Message
import Multisync.BlockSocket
import Multisync.Framing
import Multisync.WireRoundTrip
import Multisync.BlockClient
import Multisync.BlockServer
import Multisync.ServerRuns
import Multisync.ServerExit
import Multisync.ClientRuns
import Multisync.MessageFormats
import Multisync.Records
import Multisync.BlockAssembly
import Multisync.Publication
import Multisync.NonInterference
import Multisync.ClientInvariants
import Multisync.Robustness
import Multisync.Addressing
import Multisync.Transfer
import Multisync.TransferRefinement
import Multisync.Completion
import Multisync.ServerPosts
import Multisync.Retransmission
import Multisync.Slicing
import Multisync.BlockLoss
import Multisync.BlockAccounting
import Multisync.BlockWrites
import Multisync.Goodbyes
import Multisync.GoodbyeAnswers
import Multisync.RepeatedGoodbyes
import Multisync.Histories
import Multisync.Acknowledgements
import Multisync.InPlace
import Multisync.Destinations
import Multisync.Gathering
import Multisync.Sending
import Multisync.EndToEnd
import Multisync.Delivery
import Multisync.FileIdentity
import Multisync.ReadHistory
import Multisync.QueueBound
import Multisync.SendQueue
import Multisync.UnreadableSource
import Multisync.WrittenBlocks
import Multisync.Absorption
import Multisync.Md5
import Multisync.Md5Absorption
import Multisync.Md5Digests
import Multisync.FileDigests
import Multisync.Md5Rounds
import Multisync.LossyNetwork
import Multisync.ClosedNetwork
import Multisync.SparseAssembly
import Multisync.Agreement
import Multisync.LostBlocks
import Multisync.Unattended
import Multisync.FileFootprint
import Multisync.Footprint
import Multisync.ServerTraffic
import Multisync.Endurance
import Multisync.Listener
import Multisync.FileSources
import Multisync.Provenance
import Multisync.Lifecycle
import Multisync.Progress
