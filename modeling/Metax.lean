import Metax.Library.Ledger
import Metax.Library.Run
import Metax.Platform.Package
import Metax.Platform.DbJson
import Metax.Storage.Task
import Metax.Platform.DbJsonSizes
import Metax.Storage.Accounting
import Metax.Storage.CacheAccounting
import Metax.Storage.Quota
import Metax.Storage.ReadYourWrites
import Metax.Kernel.Data
import Metax.Kernel.Save
import Metax.Kernel.Step
import Metax.Library.History
import Metax.Kernel.Neutral
import Metax.Kernel.Frame
import Metax.Kernel.Moves
import Metax.Kernel.SaveStart
import Metax.Kernel.SaveConfirm
import Metax.Kernel.Confirmed
import Metax.Kernel.Updated
import Metax.Kernel.Slots
import Metax.Kernel.PendingQueues
import Metax.Kernel.Asides
import Metax.Kernel.FlowControl
import Metax.Kernel.FlowAnswers
import Metax.Kernel.FlowStart
import Metax.Kernel.SlotAccounting
import Metax.Kernel.QueueProgress
import Metax.Library.BigEndian
import Metax.Library.Scan
import Metax.Protocol.Command
import Metax.Protocol.RouterData
import Metax.Protocol.LinkData
import Metax.Protocol.DecodeSafety
import Metax.Router.Data
import Metax.Router.KernelInput
import Metax.Router.LinkInput
import Metax.Router.Step
import Metax.Router.Change
import Metax.Router.TenderTables
import Metax.Router.Duplicates
import Metax.Protocol.RoundTrip
import Metax.Protocol.WireFormat
import Metax.Library.ChunkedStream
import Metax.Protocol.SocketFraming
import Metax.Router.Sending
import Metax.Router.Decoding
import Metax.Router.GetReply
import Metax.Router.Survival
import Metax.Network.Data
import Metax.Network.HopBudget
import Metax.Router.Announcement
import Metax.Network.FloodCoverage
import Metax.Network.Trails
import Metax.Network.ReplyRouting
import Metax.Backup.Data
import Metax.Library.Text
import Metax.Platform.UuidText
import Metax.Backup.Task
import Metax.Backup.StaleJournal
import Metax.Backup.Robustness
import Metax.Pairing.Data
import Metax.Pairing.Secrecy
import Metax.Sync.Kernel
import Metax.Sync.Session
import Metax.UserManager.Data
import Metax.UserManager.Task
import Metax.UserManager.Keys
import Metax.Router.SyncRelease
import Metax.Sync.Release
import Metax.Backup.JournalText
import Metax.Sync.Cluster
import Metax.Sync.Completeness
import Metax.WebApi.Range
import Metax.Kernel.Chunking
import Metax.Streaming.Data
import Metax.Streaming.Ranges
import Metax.Streaming.Delivery
import Metax.Link.Balancing
import Metax.Livestream.Data
import Metax.Livestream.Recording
import Metax.WebApi.Adapter
import Metax.WebApi.Answers
import Metax.Kernel.Onward
import Metax.Kernel.Buried
import Metax.Kernel.FailedSave
import Metax.Library.MaxHeap
import Metax.Router.Timeline
import Metax.Storage.FailedWrites
import Metax.Deletion.Data
import Metax.Storage.CacheCleanup
import Metax.Deletion.Invariant
import Metax.Deletion.KeepChunks
import Metax.Deletion.Reporting
import Metax.KeyManager.Portions
import Metax.KeyManager.Replacing
import Metax.Getting.Budget
import Metax.Livestream.RemoteListeners
import Metax.Livestream.LocalListeners.Changes
import Metax.Livestream.LocalListeners.Law
import Metax.Backup.Expiry
import Metax.Backup.LifeCycle
import Metax.Link.Delivery
import Metax.Backup.JournalRoundTrip
import Metax.UserManager.Replacement
import Metax.Copying.Reading
import Metax.Platform.Waiting
import Metax.Retrieval.Content
import Metax.Trust.Pinning
import Metax.Trust.Admission
import Metax.Sharing.Keys
import Metax.Messages.Delivery
import Metax.Link.KeepAlive
import Metax.Link.Reconnecting
