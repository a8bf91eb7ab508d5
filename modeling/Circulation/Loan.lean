import Circulation.ServicePoint
import Circulation.Time.Moment

/-!
# Loans
-/

namespace Circulation

structure Loan where
  id : String
  loanDate : Instant
  dueDate : Instant
  /-- The service point at which the item was checked out. -/
  checkoutServicePoint : ServicePoint
  /-- The primary service point of the item's location, if it has one. -/
  primaryServicePoint : Option ServicePoint
  /-- Whether a recall has moved the due date. -/
  recalled : Bool
  deriving DecidableEq, Repr

namespace Loan

/-- A loan of an item that belongs to the service point where it is checked out. -/
def ofCheckout (id : String) (loanDate dueDate : Instant) (servicePoint : ServicePoint) : Loan :=
  ⟨id, loanDate, dueDate, servicePoint, some servicePoint, false⟩

/-- Whether the loan is past due. -/
def isOverdue (l : Loan) (now : Instant) : Bool := l.dueDate < now

end Loan

end Circulation
