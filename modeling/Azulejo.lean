import Azulejo.Adapters.Canonical
import Azulejo.Adapters.KeySearch
import Azulejo.Adapters.Loading
import Azulejo.Adapters.RoundTrip
import Azulejo.Adapters.Traversal
import Azulejo.Basic
import Azulejo.DatabaseAdapters.Calls
import Azulejo.DatabaseAdapters.EntityAdapters
import Azulejo.DatabaseAdapters.EntitySpecs
import Azulejo.DatabaseAdapters.FaultSpecs
import Azulejo.DatabaseAdapters.HierarchyFaults
import Azulejo.DatabaseAdapters.PlainEngine
import Azulejo.DatabaseAdapters.ResourceAdapters
import Azulejo.DatabaseAdapters.RowStore
import Azulejo.DatabaseAdapters.Specs
import Azulejo.DatabaseAdapters.Sqlite
import Azulejo.DatabaseAdapters.TableSpecs
import Azulejo.Entities.Copy
import Azulejo.Entities.Entity
import Azulejo.Entities.EntityHierarchy
import Azulejo.Entities.IStreamableEntity
import Azulejo.Entities.ObjectSpecs
import Azulejo.Entities.ObjectTrees
import Azulejo.Entities.Objects
import Azulejo.Events.EventChannel
import Azulejo.Events.Lifetimes
import Azulejo.Events.Specs
import Azulejo.FilesystemAdapters.EntityAdapters
import Azulejo.FilesystemAdapters.FileLock
import Azulejo.FilesystemAdapters.FileStore
import Azulejo.FilesystemAdapters.ResourceAdapters
import Azulejo.FilesystemAdapters.Specs
import Azulejo.Interprocess.AcceptLoop
import Azulejo.Interprocess.ChatServer
import Azulejo.Interprocess.ConnectionHandler
import Azulejo.Interprocess.Outgoing
import Azulejo.Interprocess.RESTClient
import Azulejo.Interprocess.RESTServer
import Azulejo.Interprocess.SharedMemory
import Azulejo.Interprocess.Specs
import Azulejo.Interprocess.TCPServer
import Azulejo.Interprocess.TcpConnection
import Azulejo.Intraprocess.Atomicity
import Azulejo.Intraprocess.CriticalSections
import Azulejo.Intraprocess.History
import Azulejo.Intraprocess.Invariants
import Azulejo.Intraprocess.Progress
import Azulejo.Intraprocess.Specs
import Azulejo.Intraprocess.ThreadPool
import Azulejo.Lib.AssocList
import Azulejo.Lib.DecimalText
import Azulejo.Lib.LabelledTree
import Azulejo.Lib.LevelOrder
import Azulejo.Lib.LittleEndian
import Azulejo.Lib.LockOrder
import Azulejo.Lib.Ownership
import Azulejo.Lib.Parties
import Azulejo.Lib.Runs
import Azulejo.Lib.SeparatedWords
import Azulejo.Lib.SqlText
import Azulejo.Lib.Stateful
import Azulejo.Lib.Transitions
import Azulejo.Lib.TreeWays
import Azulejo.Properties.AcceptChain
import Azulejo.Properties.AtomicCreate
import Azulejo.Properties.BlobSizes
import Azulejo.Properties.ChangeDetection
import Azulejo.Properties.ChatHistory
import Azulejo.Properties.Conversation
import Azulejo.Properties.CopyAgreement
import Azulejo.Properties.CopyChain
import Azulejo.Properties.CopySeparation
import Azulejo.Properties.EmptyMessage
import Azulejo.Properties.EntityRoundTrip
import Azulejo.Properties.EntitySlots
import Azulejo.Properties.EventDelivery
import Azulejo.Properties.EventWiring
import Azulejo.Properties.FailedAssignment
import Azulejo.Properties.FailedLoading
import Azulejo.Properties.FailedOpening
import Azulejo.Properties.FailedSave
import Azulejo.Properties.FileLocking
import Azulejo.Properties.FirstOccurrence
import Azulejo.Properties.FrameHeaders
import Azulejo.Properties.FrameWidths
import Azulejo.Properties.HierarchyBlob
import Azulejo.Properties.HierarchySessions
import Azulejo.Properties.JsonSessions
import Azulejo.Properties.KeysAsData
import Azulejo.Properties.LatestWrite
import Azulejo.Properties.LazyLoading
import Azulejo.Properties.LeakedStatements
import Azulejo.Properties.LoadedCopies
import Azulejo.Properties.MalformedFiles
import Azulejo.Properties.MessageDelivery
import Azulejo.Properties.OutgoingFrames
import Azulejo.Properties.OwnDatabase
import Azulejo.Properties.PeerBytes
import Azulejo.Properties.PoolJoin
import Azulejo.Properties.PoolSafety
import Azulejo.Properties.PoolStop
import Azulejo.Properties.ReceivedStream
import Azulejo.Properties.RefusedEmitter
import Azulejo.Properties.RegistrationOrder
import Azulejo.Properties.RejectedStreams
import Azulejo.Properties.RemovedMembers
import Azulejo.Properties.RepeatedLoading
import Azulejo.Properties.ResourceFile
import Azulejo.Properties.ResourceTable
import Azulejo.Properties.RestMap
import Azulejo.Properties.RestReplies
import Azulejo.Properties.RestSession
import Azulejo.Properties.RestoredAdapters
import Azulejo.Properties.RetriedSave
import Azulejo.Properties.ReusedKeys
import Azulejo.Properties.RootLoading
import Azulejo.Properties.SaveEffect
import Azulejo.Properties.SavedCopies
import Azulejo.Properties.SharedMemoryOwners
import Azulejo.Properties.StartRetry
import Azulejo.Properties.StoredFiles
import Azulejo.Properties.StoredRows
import Azulejo.Properties.StreamPairs
import Azulejo.Properties.StreamedLines
import Azulejo.Properties.StreamingOrder
import Azulejo.Properties.WriteThrough
import Azulejo.Resources.IResource
