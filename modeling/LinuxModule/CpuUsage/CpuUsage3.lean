import LinuxModule.SteTop.Frame

set_option autoImplicit false

namespace LinuxModule.CpuUsage3

-- The sums and the figures are written out in the init function, line for line those
-- of update_cpu_times and print_cpu_usage_statistics. first and second are the
-- counters of the CPUs online before and after the msleep(100).
def cpuUsageInit (first second : List (KCpuStat UInt64)) : Option SteTop.AllCpuTime :=
  let start := first.foldl SteTop.addCpu SteTop.AllCpuTime.zero
  let end_ := second.foldl SteTop.addCpu SteTop.AllCpuTime.zero
  SteTop.printCpuUsageStatistics end_ start

end LinuxModule.CpuUsage3
