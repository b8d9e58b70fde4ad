import UserPaging.Extmem.FloorSearch
import UserPaging.Extmem.RangeCheck
import UserPaging.Extmem.Replay
import UserPaging.Extmem.Transparency
import UserPaging.Foundation.BitSet
import UserPaging.Foundation.Bits
import UserPaging.Foundation.Counter
import UserPaging.Foundation.Csv
import UserPaging.Foundation.CsvReader
import UserPaging.Foundation.Differences
import UserPaging.Foundation.Ledger
import UserPaging.Foundation.ListHead
import UserPaging.Foundation.Memory
import UserPaging.Foundation.Observe
import UserPaging.Foundation.Partition
import UserPaging.Foundation.RefCount
import UserPaging.Foundation.RobinHood
import UserPaging.Foundation.Run
import UserPaging.Foundation.Runs
import UserPaging.Foundation.Scan
import UserPaging.Foundation.StableSort
import UserPaging.Foundation.Stores
import UserPaging.Gem5.Atomicity
import UserPaging.Gem5.Delivery
import UserPaging.Gem5.FaultRouting
import UserPaging.Gem5.FaultingReturn
import UserPaging.Gem5.MicroOp
import UserPaging.Gem5.Reentry
import UserPaging.Gem5.RoundTrip
import UserPaging.Gem5.Senduipi
import UserPaging.Gem5.Stub
import UserPaging.Gem5.Task
import UserPaging.Gem5.Translate
import UserPaging.Gem5.UintrOp
import UserPaging.Gem5.UserAccess
import UserPaging.Linux.Cr4Switch
import UserPaging.Linux.FreshTask
import UserPaging.Linux.HandlerSwitch
import UserPaging.Linux.History
import UserPaging.Linux.Scheduling
import UserPaging.Linux.TracePf
import UserPaging.Linux.Ufault
import UserPaging.Linux.UffSwitch
import UserPaging.Linux.Uintr
import UserPaging.Linux.UintrCalls
import UserPaging.Linux.UintrFaults
import UserPaging.Linux.UintrNotify
import UserPaging.Linux.UintrNotifyDue
import UserPaging.Linux.UintrNotifyInv
import UserPaging.Linux.UintrNotifyLoss
import UserPaging.Linux.UintrNotifyOwed
import UserPaging.Linux.UintrNotifySteps
import UserPaging.Linux.UintrRefs
import UserPaging.Linux.UintrSafety
import UserPaging.Linux.UintrTables
import UserPaging.Timings.Chart
import UserPaging.Timings.Collector
import UserPaging.Timings.StackedChart
import UserPaging.Timings.SumAndRemap
import UserPaging.Usm.BasicAlloc
import UserPaging.Usm.Books
import UserPaging.Usm.Bypass
import UserPaging.Usm.ChooseWorker
import UserPaging.Usm.DefaultPolicy
import UserPaging.Usm.Dispatch
import UserPaging.Usm.DispatchOrder
import UserPaging.Usm.ExtraPages
import UserPaging.Usm.ExtraTargets
import UserPaging.Usm.FailedAlloc
import UserPaging.Usm.FirstTouch
import UserPaging.Usm.FramesKept
import UserPaging.Usm.HashMap
import UserPaging.Usm.HashMapRun
import UserPaging.Usm.HashMapSpec
import UserPaging.Usm.History
import UserPaging.Usm.PageBooks
import UserPaging.Usm.Policies
import UserPaging.Usm.PolicyKinds
import UserPaging.Usm.PolicyLookup
import UserPaging.Usm.PolicyMaps
import UserPaging.Usm.Pool
import UserPaging.Usm.PoolDevice
import UserPaging.Usm.Protocol
import UserPaging.Usm.ProtocolSafety
import UserPaging.Usm.RunArea
import UserPaging.Usm.RunEncoding
import UserPaging.Usm.SetSched
import UserPaging.Usm.SharedPage
import UserPaging.Usm.SlotBooks
import UserPaging.Usm.Soldiers
import UserPaging.Usm.SwapAnswer
import UserPaging.Usm.SwapDevice
import UserPaging.Usm.SwapEntry
import UserPaging.Usm.SwapIn
import UserPaging.Usm.SwapOut
import UserPaging.Usm.SwapSurvival
import UserPaging.Usm.TaskIds
