import Mathlib.Algebra.Order.Round
import Mathlib.Data.Rat.Floor

/-! Rounding the terms of a sum against rounding the sum. -/
namespace Linea.RoundedSums

section Sums
variable {α : Type*} [Field α] [LinearOrder α] [IsStrictOrderedRing α] [FloorRing α]

end Sums

end Linea.RoundedSums
