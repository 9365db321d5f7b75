/-
`programs/zkp2p_solana/src/math.rs`: the checked fixed-point helpers.
-/
import Zkp2pSolana.Lib.Checked
import Zkp2pSolana.Error
import Zkp2pSolana.Constants

set_option autoImplicit false

namespace Zkp2pSolana

open Result Zkp2pError

/-- `amount * rate / 1e18`, rounding down. -/
def precise_mul_floor (amount rate : ℕ) : ProgramResult ℕ := do
  let product ← ok_or (Checked.mul 128 amount rate) ArithmeticOverflow
  let quotient := product / PRECISE_UNIT
  require (quotient < 2 ^ 64) ArithmeticOverflow
  return quotient

/-- Applies a signed basis-point spread and rounds up. -/
def spread_rate_ceil (market_rate : ℕ) (spread_bps : ℤ) : ProgramResult ℕ := do
  let multiplier := BPS + spread_bps
  require (0 < multiplier) InvalidSpread
  let product ← ok_or (Checked.mul 128 market_rate multiplier.toNat) ArithmeticOverflow
  let rounded ← ok_or (Checked.add 128 product (BPS.toNat - 1)) ArithmeticOverflow
  return rounded / BPS.toNat

end Zkp2pSolana
