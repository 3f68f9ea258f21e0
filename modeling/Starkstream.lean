import Starkstream.Chain.ReorgWalk
import Starkstream.Chain.Restore
import Starkstream.Chain.Representation
import Starkstream.Ingestion.Recovery
import Starkstream.Provider.HeadCursor
import Starkstream.Ingestion.Finality
import Starkstream.ChainView.Segmentation
import Starkstream.DataStream.GapFree
import Starkstream.ChainView.SyncOrder
import Starkstream.Ingestion.Pipeline
import Starkstream.Ingestion.Progress
import Starkstream.Ingestion.FinalizedOrder
import Starkstream.Starknet.EventSelection
import Starkstream.DataStream.GroupPhase
import Starkstream.DataStream.Encoding
import Starkstream.Ingestion.StateClient
import Starkstream.Ingestion.PendingReads
import Starkstream.ChainView.Waiting
import Starkstream.Ingestion.Contest
import Starkstream.Compaction.Recompaction
import Starkstream.DataStream.PendingHead
import Starkstream.DataStream.SegmentCover
import Starkstream.Ingestion.Stocked
import Starkstream.Compaction.Cluster
import Starkstream.Compaction.Services
import Starkstream.Compaction.LongChain
import Starkstream.Starknet.Consistency
import Starkstream.Starknet.Conversion
import Starkstream.Starknet.PendingBlock
import Starkstream.DataStream.PendingContent
import Starkstream.ChainView.Validation
import Starkstream.ChainView.Migration
import Starkstream.Compaction.Buffered
import Starkstream.Ingestion.NoModelError
import Starkstream.ObjectStore.Envelope
import Starkstream.Provider.NewHeads
import Starkstream.Query.Archived
import Starkstream.BlockStore.ObjectKeys
import Starkstream.Protocol.Scalars
import Starkstream.Chain.Recover
