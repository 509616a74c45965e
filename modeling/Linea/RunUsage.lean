import Linea.Usage
import Linea.WalkerMeaning

/-! The totals of a run. A count is the number that an output or an error carries, whatever it is, and
the totals are floating-point sums. -/
namespace Linea.Usage
open Walker Validate Doubles

/-- Usage is recognised by the shape of the output. -/
def extractTokenUsage (output : Value) : Option (TokenUsage Double) :=
  (Worker.extractTokenUsage output).map fun usage => ⟨.ofBits usage.1, .ofBits usage.2⟩

/-- How a step ends: with an output, with an error and the usage it carries, with a pause, or with the
loss of the lease. -/
inductive StepEnd
  | output (value : Value)
  | error (message : String) (usage : Option (TokenUsage Double))
  | pause
  | leaseLost

structure ExecutedStep where
  node : WorkflowNode
  finish : StepEnd

namespace ExecutedStep

def succeeded (step : ExecutedStep) : Bool :=
  match step.finish with
  | .output _ => true
  | _ => false

def usage (step : ExecutedStep) : Option (TokenUsage Double) :=
  match step.finish with
  | .output value => extractTokenUsage value
  | .error _ usage => usage
  | .pause => none
  | .leaseLost => none

def stepUsage (step : ExecutedStep) : StepUsage Double := ⟨step.node, step.succeeded, step.usage⟩

end ExecutedStep

/-- What writing a row comes to. A row is refused by a column that does not take its values, and before
it is written when a price cannot be made a whole number. -/
inductive Recording
  | written
  | leaseLost
  | refused (message : String)

/-- How the handlers answer and what writing the rows comes to, given what has been executed before. -/
structure World where
  handlers : List ExecutedStep → StepToExecute → StepEnd
  record : List ExecutedStep → ExecutedStep → Recording
  recordFailure : List ExecutedStep → ExecutedStep → String → Recording

inductive RunEnd
  | returned (result : WalkResult)
  | pausedAt (nodeId : String)
  | threw (error : WalkError)
  | rejected
  | unfinished

structure RunOutcome where
  executed : List ExecutedStep
  totals : Totals Double
  finish : RunEnd

section Run
variable (price : String → TokenUsage Double → Option ℤ) (g : WorkflowGraph) (triggerPayload : Value)
  (world : World)

/-- The failure row; without it the run is rejected. -/
def recordError (executed : List ExecutedStep) (done : ExecutedStep) (message : String) :
    Option StepResult :=
  match world.recordFailure executed done message with
  | .written => some (.error message)
  | _ => none

/-- What the walk is given for a step. A row that is refused makes a failure of a success. -/
def stepResult (executed : List ExecutedStep) (done : ExecutedStep) : Option StepResult :=
  match done.finish with
  | .output value =>
    match world.record executed done with
    | .written => some (.output value)
    | .leaseLost => none
    | .refused message => recordError world executed done message
  | .error message _ => recordError world executed done message
  | .pause => none
  | .leaseLost => none

/-- The `while` loop of `InterpreterService.run` without retries. A step is counted before its row is
written. -/
def runLoop : ℕ → List ExecutedStep → Totals Double → Except WalkError Progress → RunOutcome
  | _, executed, totals, .error e => ⟨executed, totals, .threw e⟩
  | _, executed, totals, .ok (.returned result) => ⟨executed, totals, .returned result⟩
  | 0, executed, totals, .ok (.yielded ..) => ⟨executed, totals, .unfinished⟩
  | fuel + 1, executed, totals, .ok (.yielded step node s) =>
    let done : ExecutedStep := ⟨node, world.handlers executed step⟩
    match done.finish with
    | .pause => ⟨executed, totals, .pausedAt node.id⟩
    | _ =>
      let executed' := executed ++ [done]
      let totals' := account price totals done.stepUsage
      match stepResult world executed done with
      | none => ⟨executed', totals', .rejected⟩
      | some result => runLoop fuel executed' totals' (resume g triggerPayload node s result)

/-- No walk yields more steps than the graph has nodes. -/
def run (resumeFrom : CompletedMap) (initial : Totals Double) : RunOutcome :=
  runLoop price g triggerPayload world g.nodes.length [] initial (walk g resumeFrom triggerPayload)

end Run

/-! ### Whole counts -/

/-- A step of whole counts among the numbers. -/
def StepUsage.toDouble (step : StepUsage ℤ) : StepUsage Double where
  node := step.node
  succeeded := step.succeeded
  usage := step.usage.map fun usage => ⟨.ofRat usage.tokensInput, .ofRat usage.tokensOutput⟩

theorem StepUsage.counted_toDouble (step : StepUsage ℤ) : step.toDouble.counted =
    step.counted.map fun usage => ⟨.ofRat usage.tokensInput, .ofRat usage.tokensOutput⟩ := by
  unfold counted toDouble
  split_ifs
  · rfl
  · rfl

theorem account_whole (price : String → TokenUsage Double → Option ℤ) {whole : Totals ℤ}
    {totals : Totals Double} {step : StepUsage ℤ}
    (hin : totals.tokensInput = .ofRat whole.tokensInput)
    (hout : totals.tokensOutput = .ofRat whole.tokensOutput)
    (hstart : |whole.tokensInput| ≤ 2 ^ 53 ∧ |whole.tokensOutput| ≤ 2 ^ 53)
    (hstep : |countedInput step| ≤ 2 ^ 53 ∧ |countedOutput step| ≤ 2 ^ 53) :
    (account price totals step.toDouble).tokensInput =
        .ofRat (account calculateCostMicros whole step).tokensInput ∧
      (account price totals step.toDouble).tokensOutput =
        .ofRat (account calculateCostMicros whole step).tokensOutput := by
  unfold countedInput countedOutput at hstep
  unfold account
  rw [step.counted_toDouble, hin, hout]
  cases hc : step.counted with
  | none => exact ⟨rfl, rfl⟩
  | some usage =>
    rw [hc] at hstep
    exact ⟨Double.whole_add hstart.1 hstep.1, Double.whole_add hstart.2 hstep.2⟩

/-- As far as 2^53 the totals in memory are those of the whole counts. -/
theorem foldl_account_whole (price : String → TokenUsage Double → Option ℤ)
    (steps : List (StepUsage ℤ)) (whole : Totals ℤ) (totals : Totals Double)
    (hin : totals.tokensInput = .ofRat whole.tokensInput)
    (hout : totals.tokensOutput = .ofRat whole.tokensOutput)
    (hcounts : ∀ step ∈ steps, |countedInput step| ≤ 2 ^ 53 ∧ |countedOutput step| ≤ 2 ^ 53)
    (hsums : ∀ l, l <+: steps → |whole.tokensInput + (l.map countedInput).sum| ≤ 2 ^ 53 ∧
      |whole.tokensOutput + (l.map countedOutput).sum| ≤ 2 ^ 53) :
    let after := (steps.map StepUsage.toDouble).foldl (account price) totals
    after.tokensInput = .ofRat (steps.foldl (account calculateCostMicros) whole).tokensInput ∧
      after.tokensOutput = .ofRat (steps.foldl (account calculateCostMicros) whole).tokensOutput := by
  induction steps generalizing whole totals with
  | nil => exact ⟨hin, hout⟩
  | cons step steps ih =>
    have hstart := hsums [] List.nil_prefix
    rw [List.map_nil, List.sum_nil, add_zero, List.map_nil, List.sum_nil, add_zero] at hstart
    obtain ⟨hstep, hstep'⟩ := account_whole price hin hout hstart (hcounts step (.head _))
    rw [List.map_cons, List.foldl_cons, List.foldl_cons]
    refine ih _ _ hstep hstep' (fun s hs => hcounts s (.tail _ hs)) fun l hl => ?_
    rw [account_eq]
    simpa [add_assoc] using hsums (step :: l) (by simpa using hl)

/-! ### What model nodes spend -/

/-- What a step of a model node spent. -/
def spent (step : ExecutedStep) : Option (TokenUsage Double) :=
  if callsModel step.node.type then step.usage else none

/-- The usage that the code counts. -/
def counted (step : ExecutedStep) : Option (TokenUsage Double) := step.stepUsage.counted

section Sums

variable (get : TokenUsage Double → Double) (f : ExecutedStep → Option (TokenUsage Double))
  (steps : List ExecutedStep)

/-- One kind of counts of the steps, in their order. -/
def counts : List Double := (steps.filterMap f).map get

/-- Their exact sum. -/
def total : ℚ := ((counts get f steps).map Double.value).sum

end Sums

/-- The totals are the initial ones with what the model nodes spent, added up step by step. -/
structure Reported (initial totals : Totals Double) (steps : List ExecutedStep) : Prop where
  tokensInput : totals.tokensInput =
    (counts TokenUsage.tokensInput spent steps).foldl (· + ·) initial.tokensInput
  tokensOutput : totals.tokensOutput =
    (counts TokenUsage.tokensOutput spent steps).foldl (· + ·) initial.tokensOutput

section Steps

variable {get : TokenUsage Double → Double} {steps : List ExecutedStep}

end Steps

/-- A reply of 100 input and 50 output tokens. -/
def reply : Value := .object [("text", .string "hi"), ("tokensInput", .number 0x4059000000000000),
  ("tokensOutput", .number 0x4049000000000000)]

/-- Nothing is priced. -/
def unpriced : String → TokenUsage Double → Option ℤ := fun _ _ => none

end Linea.Usage
