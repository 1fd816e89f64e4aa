/-
# Sessions

Who calls is known by the session, if there is one; it belongs to an organisation.  A call that touches data of
an organisation compares the two.
-/
import OneCore.Lib.Result

namespace OneCore

structure Session where
  organisationId : Option String

inductive SessionError where
  | forbidden
  | mappingError (message : String)
deriving DecidableEq

def throwIfOrgNotMatchingSession (organisationId : String) (session : Option Session) :
    Except SessionError Unit :=
  match session with
  | none => .ok ()
  | some session => do
    let sessionOrganisation ← okOr session.organisationId .forbidden
    ensure (sessionOrganisation = organisationId) .forbidden

def throwIfOrgRelationNotMatchingSession (orgRelation : Option String) (session : Option Session) :
    Except SessionError Unit := do
  let organisationId ← okOr orgRelation (.mappingError "organisation is None")
  throwIfOrgNotMatchingSession organisationId session

end OneCore
