import Lulan.Api.FareRules
import Lulan.Engine.Webhooks

/-!
# Webhook endpoint management

`POST /v1/webhooks` and `DELETE /v1/webhooks/{id}`, and with them everything that runs on the
tables of the outbox relay.
-/

namespace Lulan.Webhooks

open Lib.ReadCommitted

/-- A transaction that appends, a pass of a relay, or one of the two endpoints. -/
inductive Request where
  | append (drafts : List Draft)
  | relayOnce (now : Timestamp)
  | create (id : Uuid) (secret url : String) (eventTypes : List String)
  | remove (id : Uuid)
deriving DecidableEq

inductive Response where
  | appended
  | relayed (delivered : Nat)
  | created (w : Endpoint)
  | removed (id : Uuid)
deriving DecidableEq

inductive Error where
  | db (f : Failure)
  | api (e : ApiError)

def sql {α : Type} (x : WebhookScript Failure α) : WebhookScript ApiError α := ExceptT.adapt ApiError.ofFailure x

/-- Register a delivery endpoint. -/
def create (id : Uuid) (secret url : String) (eventTypes : List String) : WebhookScript ApiError Endpoint :=
  if !"http://".toList.isPrefixOf url.toList && !"https://".toList.isPrefixOf url.toList then
    throw (.badRequest (.text "url must be http(s)"))
  else do
    sql (.execute .side ⟨fun _ => [.endpoint ⟨id, url, secret, eventTypes, true⟩], true⟩)
    return ⟨id, url, secret, eventTypes, true⟩

/-- `UPDATE webhook_endpoints SET active = false WHERE id = $1`. -/
def deactivate (id : Uuid) : Change Row.id where
  cond _ r := match r with
    | .endpoint w => decide (w.id = id)
    | _ => false
  set := ⟨fun r => match r with
    | .endpoint w => .endpoint { w with active := false }
    | r => r, fun r => by cases r <;> rfl⟩

/-- Deactivate an endpoint. -/
def remove (id : Uuid) : WebhookScript ApiError Uuid := do
  let updated ← sql (.change .side (deactivate id))
  sql (.publish .side)
  if updated.isEmpty then throw (.notFound s!"webhook {id} not found")
  return id

def webhooks : Request → Script Row.id (Except Error Response)
  | .append drafts => ExceptT.run (ExceptT.adapt Error.db ((fun _ => Response.appended) <$> appendAll drafts))
  | .relayOnce now => ExceptT.run (ExceptT.adapt Error.db (Response.relayed <$> relayOnce now))
  | .create id secret url eventTypes =>
    ExceptT.run (ExceptT.adapt Error.api (Response.created <$> create id secret url eventTypes))
  | .remove id => ExceptT.run (ExceptT.adapt Error.api (Response.removed <$> remove id))

end Lulan.Webhooks
