import NvmeDriver.PrpWalk
import NvmeDriver.Capacity
import NvmeDriver.ScanGeometry
import NvmeDriver.Ownership.Safe
import NvmeDriver.Ownership.Story
import NvmeDriver.Refine.Request
import NvmeDriver.Ownership.CidTable
import NvmeDriver.CompletionRing
import NvmeDriver.Lib.Replay
import NvmeDriver.Rescan
import NvmeDriver.Refine.Chunks
import NvmeDriver.Refine.Admin
import NvmeDriver.Refine.Completion
import NvmeDriver.Refine.Dispatch
import NvmeDriver.Refine.Loop
import NvmeDriver.Refine.Pass
import NvmeDriver.Refine.Reset
import NvmeDriver.Refine.Run
import NvmeDriver.Ownership.Exact
import NvmeDriver.Runs.Clients
import NvmeDriver.Ownership.RingCount
import NvmeDriver.Runs.Abort
import NvmeDriver.Limits
import NvmeDriver.Runs.Transfers
import NvmeDriver.Runs.ChunkErrors
import NvmeDriver.Handover
import NvmeDriver.Passthru
import NvmeDriver.ScanSweep
import NvmeDriver.UnitFlags
import NvmeDriver.ScanLists
import NvmeDriver.Notices
import NvmeDriver.Runs.Exit
import NvmeDriver.Refine.IoSide
import NvmeDriver.Runs.AdminTable
import NvmeDriver.Runs.Rearm
import NvmeDriver.Runs.Events
import NvmeDriver.AdminPrps
import NvmeDriver.Deadlines
import NvmeDriver.Runs.Rejected
import NvmeDriver.Runs.Flush
import NvmeDriver.DsmRanges
import NvmeDriver.LengthDiscovery
import NvmeDriver.HostMemoryLayout
import NvmeDriver.SqDoorbell
import NvmeDriver.Runs.AbortIo
import NvmeDriver.SmartData
import NvmeDriver.CdbReads
import NvmeDriver.NsDescriptors
import NvmeDriver.Runs.Retries
import NvmeDriver.Runs.Stripes
import NvmeDriver.Topology
import NvmeDriver.Runs.Rings
import NvmeDriver.Runs.Phases
import NvmeDriver.Interrupts
import NvmeDriver.Lifecycle.Exposure
import NvmeDriver.Lifecycle.Residence
import NvmeDriver.Lifecycle.Waits
import NvmeDriver.Lifecycle.LastClose
import NvmeDriver.FirmwareDownload
