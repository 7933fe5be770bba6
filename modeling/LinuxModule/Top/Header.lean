import LinuxModule.Base.Shares
import LinuxModule.Top.Table
import Mathlib.Algebra.Order.BigOperators.Group.List

set_option autoImplicit false

namespace LinuxModule.Top

def CpuInfo.times (cpu : CpuInfo) : List UInt64 :=
  [cpu.utime, cpu.ntime, cpu.stime, cpu.itime, cpu.iowtime, cpu.irqtime, cpu.sirqtime]

-- Counters that only grow, and are small enough for a percentage of them to be computed.
structure Grows (old new : CpuInfo) : Prop where
  each : List.Forall₂ (fun before now => before.toNat ≤ now.toNat) old.times new.times
  fits : 100 * (new.times.map UInt64.toNat).sum < 2 ^ 64

-- The time that went by on one counter.
def spent (before now : UInt64) : Nat := now.toNat - before.toNat

-- The parts of the time that went by: user, system, iow, irq, and the idle rest.
def shares (old new : CpuInfo) : List Nat :=
  [spent old.utime new.utime + spent old.ntime new.ntime, spent old.stime new.stime, spent old.iowtime new.iowtime,
    spent old.irqtime new.irqtime + spent old.sirqtime new.sirqtime]

def elapsed (old new : CpuInfo) : Nat := (shares old new).sum + spent old.itime new.itime

end LinuxModule.Top
