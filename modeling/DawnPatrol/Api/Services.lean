import DawnPatrol.Execution.Calls

/-!
# The services

The interfaces of packages `api`, `rails` and `http` as records of methods. A
method that takes a pointer to an association answers the association the
pointer refers to afterwards.
-/

set_option autoImplicit false

namespace DawnPatrol.Api

open Go Execution

/-- Manages associations. -/
structure AssociationService where
  create : Association → GoM Association
  createDefault : GoM Association
  default : GoM Association
  defaultOrCreateDefault : GoM Association
  firstByHost : String → GoM (Association × Option GoError)
  firstOrCreate : Association → GoM Association

/-- Manages events. -/
structure EventService where
  create : List Event → GoM (Option GoError)
  find : Association → GoM (List Event × Option GoError)

end DawnPatrol.Api

namespace DawnPatrol.Rails

open Go Execution

/-- Copies data from the Racing on Rails database. -/
structure RacingAssociationService where
  copy : String → GoM (Option GoError)
  find : String → GoM (RacingAssociation × Option GoError)

end DawnPatrol.Rails
