import Mathlib.Algebra.Group.Int.Defs
import Mathlib.Algebra.Group.Nat.Defs

set_option autoImplicit false

namespace LinuxModule

-- Signed C arithmetic as the kernel is built: two's complement wrap-around.
def cInt (x : Int) : Int := x.bmod (2 ^ 32)

def cLong (x : Int) : Int := x.bmod (2 ^ 64)

theorem c_int_fits (x : Int) (low : -2 ^ 31 ≤ x) (high : x < 2 ^ 31) : cInt x = x := by
  simp only [cInt, Int.bmod]
  omega

theorem c_int_overflows (x : Int) (low : 2 ^ 31 ≤ x) (high : x < 2 ^ 32) : cInt x = x - 2 ^ 32 := by
  simp only [cInt, Int.bmod]
  omega

end LinuxModule
