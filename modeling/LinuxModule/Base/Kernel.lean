set_option autoImplicit false

namespace LinuxModule

-- The ten fields of struct kernel_cpustat the modules read, in a counter type the
-- reader chooses: u64 in ste_top, unsigned long of either width in the watchdogs.
structure KCpuStat (κ : Type) where
  user : κ
  nice : κ
  system : κ
  idle : κ
  iowait : κ
  irq : κ
  softirq : κ
  steal : κ
  guest : κ
  guestNice : κ
deriving DecidableEq

end LinuxModule
