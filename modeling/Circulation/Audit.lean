import Circulation.Json.Value
import Circulation.Loan
import Circulation.Time.Text

/-!
# Audit trails

A calculation records its decisions as numbered steps, so that others can show how a due date came
about. The trail of a calculation only grows, and a step gets its number from those before it.
-/

namespace Circulation

structure AuditStep where
  number : Nat
  ruleId : String
  ruleName : String
  input : Json
  output : Json
  reasoning : String

namespace AuditStep

/-- A step with neither input nor output. -/
def blank (number : Nat) (ruleId ruleName : String) : AuditStep :=
  ⟨number, ruleId, ruleName, .null, .null, ""⟩

/-- Equal in all parts. -/
def same (a b : AuditStep) : Bool :=
  a.number = b.number && a.ruleId = b.ruleId && a.ruleName = b.ruleName && a.input == b.input &&
    a.output == b.output && a.reasoning = b.reasoning

end AuditStep

/-- The steps that a calculation has recorded, in order. -/
structure AuditTrail where
  steps : List AuditStep

namespace AuditTrail

def empty : AuditTrail := ⟨[]⟩

/-- Adds a step, whose number is one more than there are steps before it. -/
def record (trail : AuditTrail) (ruleId ruleName : String) (input output : Json)
    (reasoning : String) : AuditTrail :=
  let step := AuditStep.blank (trail.steps.length + 1) ruleId ruleName
  ⟨trail.steps ++ [{ step with input, output, reasoning }]⟩

end AuditTrail

/-- The due date of a loan with the decisions that led to it, in order. -/
structure Outcome where
  loanId : String
  dueDate : Instant
  steps : List AuditStep

/-- Whether a step of the rule was recorded. -/
def Outcome.hasStep (o : Outcome) (ruleId : String) : Bool :=
  o.steps.any (·.ruleId = ruleId)

/-- An outcome as it is kept. -/
structure Calculation extends Outcome where
  id : Identifier

end Circulation
