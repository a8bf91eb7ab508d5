import Circulation.Audit
import Circulation.Wire.Basic

/-!
# Loans and their calculations in JSON
-/

namespace Circulation.Wire

def loanJson (l : Loan) : Json :=
  .obj [
    ("id", .str l.id),
    ("loan_date", instantJson l.loanDate),
    ("due_date", instantJson l.dueDate),
    ("checkout_service_point_id", identifierJson l.checkoutServicePoint),
    ("item_primary_service_point_id", optionJson identifierJson l.primaryServicePoint),
    ("due_date_changed_by_recall", .bool l.recalled)]

def loan (j : Json) : Decoded Loan := do
  let fs ← fields ["id", "loan_date", "due_date", "checkout_service_point_id",
    "item_primary_service_point_id", "due_date_changed_by_recall"] j
  return {
    id := ← required string "id" fs
    loanDate := ← required instant "loan_date" fs
    dueDate := ← required instant "due_date" fs
    checkoutServicePoint := ← required identifier "checkout_service_point_id" fs
    primaryServicePoint := ← optional identifier "item_primary_service_point_id" fs
    recalled := ← defaulted bool false "due_date_changed_by_recall" fs }

/-! ## Audit steps -/

def auditStepJson (s : AuditStep) : Json :=
  .obj [
    ("step_number", .int s.number),
    ("rule_id", .str s.ruleId),
    ("rule_name", .str s.ruleName),
    ("input", s.input),
    ("output", s.output),
    ("reasoning", .str s.reasoning)]

def auditStep (j : Json) : Decoded AuditStep := do
  let fs ← fields ["step_number", "rule_id", "rule_name", "input", "output", "reasoning"] j
  return {
    number := ← required count "step_number" fs
    ruleId := ← required string "rule_id" fs
    ruleName := ← required string "rule_name" fs
    input := ← required .ok "input" fs
    output := ← required .ok "output" fs
    reasoning := ← required string "reasoning" fs }

/-! ## Calculations -/

def calculationJson (c : Calculation) : Json :=
  .obj [
    ("calculation_id", identifierJson c.id),
    ("loan_id", .str c.loanId),
    ("due_date", instantJson c.dueDate),
    ("audit_steps", listJson auditStepJson c.steps)]

def calculation (j : Json) : Decoded Calculation := do
  let fs ← fields ["calculation_id", "loan_id", "due_date", "audit_steps"] j
  return {
    id := ← required identifier "calculation_id" fs
    loanId := ← required string "loan_id" fs
    dueDate := ← required instant "due_date" fs
    steps := ← required (list auditStep) "audit_steps" fs }

end Circulation.Wire
