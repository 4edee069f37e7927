/-!
The parts of a binary floating-point number, and how it becomes an integer.
-/

namespace Calculator

/-- A finite number is `significand * 2 ^ exponent` with a sign; zero has both signs. -/
inductive Binary
  | nan
  | infinite (negative : Bool)
  | finite (negative : Bool) (significand : Nat) (exponent : Int)
  deriving DecidableEq, Repr

namespace Binary

/-- The smallest significand with all its 53 bits in use. -/
def hiddenBit : Nat := 4503599627370496

def minExponent : Int := -1074

def ofBits (bits : Nat) : Binary :=
  let negative := bits.testBit 63
  let scale := bits / hiddenBit % 2048
  let fraction := bits % hiddenBit
  if scale = 2047 then
    if fraction = 0 then infinite negative else nan
  else if scale = 0 then finite negative fraction minExponent
  else finite negative (hiddenBit + fraction) (minExponent + (scale - 1 : Nat))

def ofFloat (x : Float) : Binary := ofBits x.toBits.toNat

/-- The integer that is left when the digits after the point are dropped. -/
def truncate? : Binary → Option Int
  | finite negative significand exponent =>
      let whole : Nat :=
        if 0 ≤ exponent then significand <<< exponent.toNat
        else significand >>> (-exponent).toNat
      some (if negative then -(whole : Int) else whole)
  | _ => none

end Binary

end Calculator
