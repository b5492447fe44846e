import Lulan.Api.Pricing
import Lulan.Lib.ReadCommitted

/-!
# Publishing and switching fare rules

`POST /v1/admin/fare-rules` and `POST /v1/admin/fare-rules/{id}/activate`, statement by
statement as they run under READ COMMITTED.
-/

namespace Lulan

open Lib.ReadCommitted

/-- A failed statement, as the endpoints report it. -/
def ApiError.ofFailure : Failure → ApiError
  | .connection => ofDb .connection
  | .duplicate => ofDb .uniqueViolation

/-- The pricing schema: how a ruleset is parsed, and whether it has any base fares. -/
structure FareRulesSchema where
  parse : String → Except String FareRuleSet
  hasBaseFares : FareRuleSet → Bool

/-- What one of the two endpoints is called with; publishing draws the identifier, and the
row is dated when its transaction begins. -/
inductive FareRulesRequest where
  | publish (id : Uuid) (createdAt : Timestamp) (rules : String)
  | activate (id : Uuid)
deriving DecidableEq

/-- The ruleset a request makes the active one. -/
def FareRulesRequest.target : FareRulesRequest → Uuid
  | .publish id _ _ => id
  | .activate id => id

abbrev FareRulesScript (α : Type) : Type := ExceptT ApiError (Script FareRulesRow.id) α

/-- A statement whose failure the endpoint answers with an internal error. -/
def FareRulesScript.sql {α : Type} (x : ExceptT Failure (Script FareRulesRow.id) α) : FareRulesScript α :=
  ExceptT.adapt ApiError.ofFailure x

namespace Admin

open FareRulesScript

/-- `UPDATE fare_rules SET active = false WHERE active`. -/
def deactivateRules : Change FareRulesRow.id where
  cond _ r := r.active
  set := ⟨fun r => { r with active := false }, fun _ => rfl⟩

/-- `UPDATE fare_rules SET active = true WHERE id = $1`. -/
def activateRules (id : Uuid) : Change FareRulesRow.id where
  cond _ r := decide (r.id = id)
  set := ⟨fun r => { r with active := true }, fun _ => rfl⟩

/-- Validates a ruleset, then publishes and activates it. -/
def publishFareRules (schema : FareRulesSchema) (id : Uuid) (createdAt : Timestamp) (rules : String) :
    FareRulesScript Uuid :=
  match schema.parse rules with
  | .error e => throw (.badRequest (.text s!"ruleset does not match the schema: {e}"))
  | .ok parsed =>
    if !schema.hasBaseFares parsed then
      throw (.badRequest (.text "ruleset has no base fares — it could sell nothing"))
    else do
      let _ ← sql (.change .main deactivateRules)
      let _ ← sql (.add .main ⟨fun _ => [⟨id, true, rules, createdAt⟩], true⟩)
      sql (.publish .main)
      return id

/-- Rolls back or switches to a ruleset that is there already. -/
def activateFareRules (id : Uuid) : FareRulesScript Uuid := do
  let rows ← sql (.read .main)
  if rows.any (fun r => decide (r.id = id)) then do
    let _ ← sql (.change .main deactivateRules)
    let _ ← sql (.change .main (activateRules id))
    sql (.publish .main)
    return id
  else
    throw (.notFound s!"ruleset {id} not found")

def fareRules (schema : FareRulesSchema) : FareRulesRequest → Script FareRulesRow.id (Except ApiError Uuid)
  | .publish id createdAt rules => publishFareRules schema id createdAt rules
  | .activate id => activateFareRules id

end Admin

end Lulan
