import Linea.NodeSteps
import Linea.RoundedSums
import Linea.Usage

/-! The cost of a step. The tokens of its completions are added up and priced once, at a rate that
for one model depends on the number of input tokens. Prices are taken as exact rationals. -/
namespace Linea.Spending
open Metering
open Usage (ModelPrice getModelPrice)

/-- `calculateCostMicros` at exact prices, those of the table in thousandths: the price of one
completion on its own tokens, rounded half up. -/
def completionCost (model : String) (tokens : TokenUsage) : Option ℤ :=
  (getModelPrice model tokens.1).map fun price =>
    (2 * ((tokens.1 : ℤ) * price.inputPerToken + tokens.2 * price.outputPerToken) + 1000).fdiv 2000

/-- `costMicros`, of a step that succeeds as of one that fails. -/
def NodeStep.costMicros (step : NodeStep) : Option ℤ :=
  match step.model,step.tokens with
  | some model,some tokens => completionCost model tokens
  | _,_ => none

section Rates

end Rates

section Tier

end Tier

section Steps

variable {V : Type}

end Steps
end Linea.Spending
