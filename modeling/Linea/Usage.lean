import Linea.Doubles
import Linea.Worker

/-! Token and cost accounting: what a step adds to the running totals of `InterpreterService.run`, and
what `getResumeTokenTotals` rebuilds from the step rows. Prices are in thousandths of a micro. -/
namespace Linea.Usage
open Doubles

/-- Token counts, as numbers of a kind. -/
structure TokenUsage (N : Type) where
  tokensInput : N
  tokensOutput : N
  deriving DecidableEq

/-- The node types that call a model. -/
def callsModel (type : NodeType) : Bool :=
  type = .ai ∨ type = .extract ∨ type = .evaluator

def resolveNodeModel (node : WorkflowNode) : Option String :=
  if callsModel node.type then
    match Value.field node.config "model" with
    | .string model => some model
    | _ => none
  else none

structure ModelPrice where
  inputPerToken : ℕ
  outputPerToken : ℕ
  deriving DecidableEq

def modelPricing : List (String × ModelPrice) :=
  [("claude-opus-5", ⟨5000, 25000⟩), ("claude-sonnet-5", ⟨2000, 10000⟩),
    ("claude-fable-5", ⟨10000, 50000⟩), ("claude-haiku-4-5-20251001", ⟨1000, 5000⟩),
    ("gpt-5", ⟨1250, 10000⟩), ("gpt-5-mini", ⟨250, 2000⟩), ("gpt-4.1", ⟨2000, 8000⟩),
    ("gpt-4o", ⟨2500, 10000⟩), ("openai/gpt-oss-120b", ⟨150, 600⟩),
    ("openai/gpt-oss-20b", ⟨75, 300⟩)]

def getModelPrice (model : String) (tokensInput : ℤ) : Option ModelPrice :=
  if model = "grok-4.5" then
    if 200000 ≤ tokensInput then some ⟨4000, 12000⟩ else some ⟨2000, 6000⟩
  else (modelPricing.find? fun p => p.1 = model).map Prod.snd

/-- The number that the code has for a price of so many thousandths. -/
def micros (thousandths : ℕ) : ℚ := nearest (thousandths / 1000)

/-- `Math.round` of the price as floating point computes it; `none` for a model without one. -/
def calculateCostMicros (model : String) (usage : TokenUsage ℤ) : Option ℤ :=
  (getModelPrice model usage.tokensInput).map fun price =>
    round (nearest (nearest (usage.tokensInput * micros price.inputPerToken) +
      nearest (usage.tokensOutput * micros price.outputPerToken)))

/-- A step as the totals see it: whether it succeeded, and the `tokensInput` and `tokensOutput` that
reach `recordStep`. -/
structure StepUsage (N : Type) where
  node : WorkflowNode
  succeeded : Bool
  usage : Option (TokenUsage N)

/-- `costUnpriced` is true, false or null. -/
structure Totals (N : Type) where
  tokensInput : N
  tokensOutput : N
  costMicros : ℤ
  costUnpriced : Option Bool
  deriving DecidableEq

/-- True beats null beats false. -/
def mergeCostUnpriced (a b : Option Bool) : Option Bool :=
  if a = some true ∨ b = some true then some true
  else if a = none ∨ b = none then none
  else some false

section Accounts

variable {N : Type} [Add N] (price : String → TokenUsage N → Option ℤ)

namespace StepUsage

def cost (step : StepUsage N) : Option ℤ :=
  match step.usage, resolveNodeModel step.node with
  | some usage, some model => price model usage
  | _, _ => none

/-- `stepCostUnpriced`: set only for usage of a known model. -/
def costUnpriced (step : StepUsage N) : Option Bool :=
  match step.usage, resolveNodeModel step.node with
  | some usage, some model => some (price model usage).isNone
  | _, _ => none

/-- The usage that is added to the totals: a failed step is counted only with a model. -/
def counted (step : StepUsage N) : Option (TokenUsage N) :=
  if step.succeeded ∨ (resolveNodeModel step.node).isSome then step.usage else none

end StepUsage

/-- One round of the loop in `run`. -/
def account (totals : Totals N) (step : StepUsage N) : Totals N where
  tokensInput := match step.counted with
    | some usage => totals.tokensInput + usage.tokensInput
    | none => totals.tokensInput
  tokensOutput := match step.counted with
    | some usage => totals.tokensOutput + usage.tokensOutput
    | none => totals.tokensOutput
  costMicros := totals.costMicros + (step.cost price).getD 0
  costUnpriced :=
    match step.costUnpriced price with
    | some unpriced => mergeCostUnpriced totals.costUnpriced (some unpriced)
    | none => totals.costUnpriced

end Accounts

/-! ### The rows -/

/-- The usage columns of a step row. -/
structure UsageRow where
  name : String
  succeeded : Bool
  tokensInput : ℤ
  tokensOutput : ℤ
  costMicros : ℤ
  costUnpriced : Option Bool
  deriving DecidableEq, Repr

/-- The row of a step. Its counts are whole numbers, as the columns take no others. -/
def StepUsage.row (step : StepUsage ℤ) : UsageRow where
  name := Worker.nodeTypeName step.node.type
  succeeded := step.succeeded
  tokensInput := (step.usage.map TokenUsage.tokensInput).getD 0
  tokensOutput := (step.usage.map TokenUsage.tokensOutput).getD 0
  costMicros := (step.cost calculateCostMicros).getD 0
  costUnpriced := step.costUnpriced calculateCostMicros

/-- No attribute on a succeeded `ai` step means that it predates the attribute. -/
def stepCostUnpricedState (row : UsageRow) : Option Bool :=
  if row.name ≠ "ai" ∨ row.succeeded = false then some false
  else row.costUnpriced

def addRow (totals : Totals ℤ) (row : UsageRow) : Totals ℤ where
  tokensInput := totals.tokensInput + row.tokensInput
  tokensOutput := totals.tokensOutput + row.tokensOutput
  costMicros := totals.costMicros + row.costMicros
  costUnpriced := mergeCostUnpriced totals.costUnpriced (stepCostUnpricedState row)

/-- The row of `recordResumeEvent`. -/
def resumeRow : UsageRow := ⟨"resumed", true, 0, 0, 0, none⟩

/-! ### Sums and the merged flag -/

section Merge
variable {α : Type*} (state : α → Option Bool)

end Merge

/-- The flag a step adds to the running total. -/
def memoryState (step : StepUsage ℤ) : Option Bool :=
  some ((step.costUnpriced calculateCostMicros).getD false)

/-- What a step adds to the running total of input tokens, and to that of output tokens. -/
def countedInput (step : StepUsage ℤ) : ℤ := (step.counted.map TokenUsage.tokensInput).getD 0

def countedOutput (step : StepUsage ℤ) : ℤ := (step.counted.map TokenUsage.tokensOutput).getD 0

theorem account_eq (totals : Totals ℤ) (step : StepUsage ℤ) :
    account calculateCostMicros totals step =
      { tokensInput := totals.tokensInput + countedInput step
        tokensOutput := totals.tokensOutput + countedOutput step
        costMicros := totals.costMicros + (step.cost calculateCostMicros).getD 0
        costUnpriced := mergeCostUnpriced totals.costUnpriced (memoryState step) } := by
  have hflag : (account calculateCostMicros totals step).costUnpriced =
      mergeCostUnpriced totals.costUnpriced (memoryState step) := by
    unfold account memoryState
    cases step.costUnpriced calculateCostMicros with
    | some unpriced => rfl
    | none => rcases totals.costUnpriced with _ | _ | _ <;> rfl
  rw [← hflag]
  unfold account countedInput countedOutput
  cases step.counted <;> simp

/-- What an execution has committed: steps, and the markers of its resumes. -/
inductive Committed
  | step (s : StepUsage ℤ)
  | resumed

def Committed.row : Committed → UsageRow
  | .step s => s.row
  | .resumed => resumeRow

def Committed.executed : Committed → Option (StepUsage ℤ)
  | .step s => some s
  | .resumed => none

end Linea.Usage
