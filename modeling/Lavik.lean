import Lavik.Tx.Seal
import Lavik.Tx.Serializability
import Lavik.Cluster.LeaseSafety
import Lavik.Cluster.FencePermanence
import Lavik.Cluster.LargeObject
import Lavik.Storage.HashGroupMap
import Lavik.Storage.TornWrite
import Lavik.Storage.Shielding
import Lavik.Storage.OrderedRouting
import Lavik.Storage.OrderedHistory
import Lavik.Meta.AuditReplay
import Lavik.Meta.AutomaticFailover
import Lavik.Meta.AuthoritySafety
import Lavik.Meta.FailoverFrame
import Lavik.Meta.TopologyEpoch
import Lavik.Redis.Bitmap
import Lavik.Redis.Glob
import Lavik.Redis.StreamTrim
import Lavik.Redis.KeyPositions
import Lavik.Redis.RespStream
import Lavik.Replication.DirectiveOrder
import Lavik.Replication.PopulationProof
import Lavik.Raft.LogAccounting
