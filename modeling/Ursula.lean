import Ursula.Control.CatchUp
import Ursula.Control.Drain
import Ursula.Control.Hosting
import Ursula.Control.Lives
import Ursula.Control.Progress
import Ursula.Fence.Believed
import Ursula.Raft.RemovalLedger
import Ursula.Runtime.ChunkCompaction
import Ursula.Runtime.RetentionGc
import Ursula.Sse.Delivered
import Ursula.Stream.Bootstrap
import Ursula.Stream.ExactlyOnce
import Ursula.Stream.Incarnations
import Ursula.Stream.Preview
import Ursula.Stream.ProducerCap
import Ursula.Wal.Gate
import Ursula.Wal.TornSegment
