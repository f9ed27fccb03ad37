import DiskAnn.Neighbor
import DiskAnn.ComputeDists
import DiskAnn.Prune
import DiskAnn.Layout
import DiskAnn.NodeRecords
import DiskAnn.ReadNodes
import DiskAnn.Search.Basic
import DiskAnn.Search.Run
import DiskAnn.Search.Parallel
import DiskAnn.Search.Invariants
import DiskAnn.Search.Outcome
import DiskAnn.Search.Cache
import DiskAnn.Search.Memo
import DiskAnn.Search.Termination
import DiskAnn.Search.Finish
import DiskAnn.Search.Dedup
import DiskAnn.Search.Range
import DiskAnn.Search.SampleCache
import DiskAnn.Load
import DiskAnn.CacheBfs
import DiskAnn.Labels
import DiskAnn.Getline
import DiskAnn.FilterTables
import DiskAnn.LoadIndex
import DiskAnn.Fetch
import DiskAnn.MetricReduction
import DiskAnn.StaticDiskIndex
