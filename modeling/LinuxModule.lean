import LinuxModule.Base.Walk
import LinuxModule.Base.Heap
import LinuxModule.Base.Acquire
import LinuxModule.Base.Buckets
import LinuxModule.Base.CInt
import LinuxModule.Base.Words
import LinuxModule.Base.Sightings
import LinuxModule.Base.InputCore
import LinuxModule.Base.Kernel
import LinuxModule.Base.Scanf
import LinuxModule.Base.Runs
import LinuxModule.Base.Watchdog
import LinuxModule.Base.Shares
import LinuxModule.Base.Semaphore
import LinuxModule.Base.UserCopy
import LinuxModule.SteTop.State
import LinuxModule.SteTop.Refresh
import LinuxModule.SteTop.Frame
import LinuxModule.SteTop.Samples
import LinuxModule.SteTop.Rows
import LinuxModule.SteTop.Walked
import LinuxModule.SteTop.RefreshLoop
import LinuxModule.SteTop.Generations
import LinuxModule.SteTop.Sorting
import LinuxModule.SteTop.FrameLoop
import LinuxModule.SteTop.Exit
import LinuxModule.SteTop.Writers
import LinuxModule.SteTop.Memory
import LinuxModule.SteTop.SafeCalls
import LinuxModule.SteTop.Unload
import LinuxModule.SteTop.PerMille
import LinuxModule.SteTop.OnlineSums
import LinuxModule.SteTop.CpuColumn
import LinuxModule.SteTop.FreshRows
import LinuxModule.SteTop.Deltas
import LinuxModule.SteTop.Credentials
import LinuxModule.Softwdt.Monitor
import LinuxModule.Softwdt.Control
import LinuxModule.Softwdt.LoadSoftwdt
import LinuxModule.Softwdt.LoadSoftwdt2
import LinuxModule.Softwdt.LoadSoftwdt3
import LinuxModule.Softwdt.Timeouts
import LinuxModule.Softwdt.Deadline
import LinuxModule.Softwdt.Refactoring
import LinuxModule.Softwdt.Teardown
import LinuxModule.Softwdt.Hotplug
import LinuxModule.Softwdt.Percent
import LinuxModule.Softwdt.Agreement
import LinuxModule.Softwdt.CpuNumbers
import LinuxModule.Softwdt.Loading
import LinuxModule.Softwdt.UsageWork
import LinuxModule.Softwdt.WatchdogExit
import LinuxModule.CpuUsage.CpuUsage3
import LinuxModule.CpuUsage.GetCpuUsage
import LinuxModule.CpuUsage.Cpu
import LinuxModule.CpuUsage.ProcStat
import LinuxModule.CpuUsage.ConvertedLines
import LinuxModule.CpuUsage.CursorSafety
import LinuxModule.CpuUsage.AggregateLine
import LinuxModule.CpuUsage.Attribution
import LinuxModule.CpuUsage.Ticks
import LinuxModule.Sema.SemaModule
import LinuxModule.Sema.Exclusive
import LinuxModule.Sema.Load
import LinuxModule.CpuUsage.TimerExit
import LinuxModule.Base.HashNodes
import LinuxModule.CpuUsage.ProcessCpuUsage
import LinuxModule.CpuUsage.Snapshots
import LinuxModule.CpuUsage.Deltas
import LinuxModule.SeqFile.TaskRing
import LinuxModule.SeqFile.SeqFileTest
import LinuxModule.SeqFile.Session
import LinuxModule.SeqFile.Readers
import LinuxModule.SeqFile.Start
import LinuxModule.DebugFs.DebugfsTest1
import LinuxModule.CharDev.CdevDriver
import LinuxModule.CharDev.Loading
import LinuxModule.Base.Ends
import LinuxModule.Base.Pool
import LinuxModule.Base.Owned
import LinuxModule.Base.Shadow
import LinuxModule.Base.Decimal
import LinuxModule.Base.Stdio
import LinuxModule.Base.Qsort
import LinuxModule.Top.State
import LinuxModule.Top.StatLine
import LinuxModule.Top.ReadProcs
import LinuxModule.Top.PrintProcs
import LinuxModule.Top.Records
import LinuxModule.Top.Passes
import LinuxModule.Top.Readings
import LinuxModule.Top.Table
import LinuxModule.Top.Recycled
import LinuxModule.Top.Arguments
import LinuxModule.Top.Header
import LinuxModule.Livepatch.State
import LinuxModule.Input.Presses
import LinuxModule.Livepatch.Events
import LinuxModule.Livepatch.Leaks
import LinuxModule.Livepatch.Lifetimes
import LinuxModule.Base.Kstrto
import LinuxModule.Base.Refcount
import LinuxModule.Base.Kobject
import LinuxModule.Sysfs.Attributes
import LinuxModule.Sysfs.KsetExample
import LinuxModule.Sysfs.KsetObjects
import LinuxModule.Sysfs.KobjectExample
