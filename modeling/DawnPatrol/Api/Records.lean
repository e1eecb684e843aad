import DawnPatrol.Go.Time
import DawnPatrol.Go.Values

/-!
# Associations and events

The records of package `api`. Every field has the zero value of its type as
its default, so `{}` is the zero value of a record.
-/

set_option autoImplicit false

namespace DawnPatrol.Api

open Go

/-- A bike racing association. -/
structure Association where
  acronym : String := ""
  host : String := ""
  id : ℤ := 0
  name : String := ""
  railsCreatedAt : Time := .zero
  railsUpdatedAt : Time := .zero
  deriving DecidableEq

/-- A bike race. Its owner is held twice, as a record and as an id. -/
structure Event where
  association : Association := {}
  associationID : ℤ := 0
  city : String := ""
  discipline : String := ""
  id : ℤ := 0
  name : String := ""
  railsCreatedAt : Time := .zero
  railsID : ℤ := 0
  railsUpdatedAt : Time := .zero
  startsAt : Time := .zero
  state : String := ""
  deriving DecidableEq

end DawnPatrol.Api
