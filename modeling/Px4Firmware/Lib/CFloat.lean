import Mathlib.Algebra.Group.Nat.Defs
import Mathlib.Algebra.Ring.Int.Defs

/-!
# Px4Firmware.Lib.CFloat

Floating-point values as they cross into integer code. Arithmetic on floats is
not modelled here; what is modelled is the *conversion* of a received float to an
integer or a flag, for every value a float can carry. A finite float is the
rational it denotes. A conversion whose result does not fit is undefined in C; the
definitions follow the ARM conversion instructions, which saturate and take NaN
to zero.
-/

namespace Px4Firmware.Lib

/-- A floating-point value. -/
inductive CFloat
  | finite (q : Rat)
  | infinity (negative : Bool)
  | nan
  deriving DecidableEq

namespace CFloat

/-- Rounding towards zero. -/
def truncate (q : Rat) : Int := q.num.tdiv q.den

/-- Clamp to the range `[lo, hi]`. -/
def clamp (lo hi x : Int) : Int := max lo (min hi x)

/-- `(int)x`. -/
def toInt : CFloat → Int
  | finite q => clamp (-2 ^ 31) (2 ^ 31 - 1) (truncate q)
  | infinity negative => if negative then -2 ^ 31 else 2 ^ 31 - 1
  | nan => 0

/-- `(uint8_t)x`: a conversion to `unsigned` whose low byte is kept. -/
def toUInt8 : CFloat → UInt8
  | finite q => UInt8.ofNat (clamp 0 (2 ^ 32 - 1) (truncate q)).toNat
  | infinity negative => if negative then 0 else 255
  | nan => 0

/-- `(bool)x`: every value but zero is true. -/
def toBool : CFloat → Bool
  | finite q => q ≠ 0
  | _ => true

/-- `x < y`: a comparison with NaN is false. -/
def lt : CFloat → CFloat → Bool
  | finite p, finite q => p < q
  | finite _, infinity negative => !negative
  | infinity negative, finite _ => negative
  | infinity negative, infinity negative' => negative && !negative'
  | _, _ => false

/-- `(float)n`: 24 bits are significant; a tie goes to the even neighbour. -/
def ofNat (n : Nat) : CFloat :=
  let ulp := 2 ^ (Nat.log2 n - 23)
  let below := n / ulp
  let above := ulp < 2 * (n % ulp) ∨ (ulp = 2 * (n % ulp) ∧ below % 2 = 1)
  finite (((if above then below + 1 else below) * ulp : Nat) : Int)

end CFloat

end Px4Firmware.Lib
