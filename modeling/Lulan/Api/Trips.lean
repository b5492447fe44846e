import Lulan.Api.Platform
import Lulan.Engine.Search

/-!
# Scheduled departures

`POST /v1/admin/trips`: one trip for each departure, with an occupancy row for every unit
of the vessel.
-/

namespace Lulan

structure CreateTripsRequest where
  routeCode : String
  vesselCode : String
  operatorCode : Option String
  departures : List Timestamp
deriving DecidableEq

namespace Db

/-- The route under a code and its number of segments; a route without stops is not found.
Stop indices are 16 bits wide, so the number fits the column of the trip. -/
def routeByCode (db : Db) (cat : Catalog) (code : String) : Option (Uuid × Nat) :=
  match cat.routes.rows.find? (fun r => decide (r.code = code)) with
  | none => none
  | some r =>
    match (db.routeStops.select (fun rs => decide (rs.routeId = r.id))).length with
    | 0 => none
    | n + 1 => some (r.id, n)

/-- `INSERT INTO trips … ON CONFLICT (route_id, resource_id, departs_at) DO NOTHING`, and the
rows it affected. -/
def insertTrip (db : Db) (cat : Catalog) (operatorId : Option Uuid) (t : TripRow) : Except DbError (Nat × Db) :=
  if db.trips.rows.any (fun r => decide (r.routeId = t.routeId) && decide (r.resourceId = t.resourceId) &&
      decide (r.departsAt = t.departsAt)) then
    .ok (0, db)
  else do
    let trips ← insertRow db.trips t
      (refersTo cat.routes (some t.routeId) && refersTo cat.resources (some t.resourceId) &&
        refersTo cat.operators operatorId)
      (decide (1 ≤ t.segmentCount) && decide (t.segmentCount ≤ 64))
    .ok (1, { db with trips })

/-- The occupancy of one unit: what has a pool capacity is a pool, the rest are seats. -/
def insertOccupancy (t : TripRow) (db : Db) (u : Uuid × Option Int) : Except DbError Db :=
  let refs := refersTo db.trips (some t.id) && refersTo db.capacityUnits (some u.1)
  match u.2 with
  | none => do
    let seatOccupancy ← insertRow db.seatOccupancy ⟨t.id, u.1, 0#64⟩ refs true
    .ok { db with seatOccupancy }
  | some capacity => do
    let remaining := List.replicate t.segmentCount capacity
    let poolOccupancy ← insertRow db.poolOccupancy ⟨t.id, u.1, remaining⟩ refs
      (remaining.all (fun val => decide (0 ≤ val)))
    .ok { db with poolOccupancy }

end Db

namespace Admin

variable (cat : Catalog)

/-- One departure; one that is scheduled already is passed over. -/
def createTrip (route : Uuid × Nat) (resourceId : Uuid) (operatorId : Option Uuid) (units : List (Uuid × Option Int))
    (newId : Nat → Uuid) (s : List Uuid × Db) (x : Timestamp × Nat) : Except DbError (List Uuid × Db) := do
  let t : TripRow := ⟨newId x.2, route.1, resourceId, x.1, route.2, .scheduled⟩
  let (inserted, db) ← s.2.insertTrip cat operatorId t
  if inserted = 0 then .ok (s.1, db)
  else
    let db ← units.foldlM (Db.insertOccupancy t) db
    .ok (s.1 ++ [t.id], db)

/-- The operator of the new trips, where one is named. -/
def operatorByCode : Option String → Except ApiError (Option Uuid)
  | none => .ok none
  | some code =>
    match cat.operators.rows.find? (fun r => decide (r.code = trim code)) with
    | none => .error (.badRequest (.text s!"unknown operator {code.quote}"))
    | some r => .ok (some r.id)

/-- The transaction of `POST /v1/admin/trips`; `newId` are the identifiers it draws. -/
def createTrips (req : CreateTripsRequest) (newId : Nat → Uuid) (db : Db) : Except ApiError (List Uuid × Db) :=
  if req.departures.isEmpty then .error (.badRequest (.text "departures is empty"))
  else
    match db.routeByCode cat (trim req.routeCode) with
    | none => .error (.badRequest (.text s!"unknown route {req.routeCode.quote}"))
    | some route =>
      match cat.resources.rows.find? (fun r => decide (r.code = trim req.vesselCode)) with
      | none => .error (.badRequest (.text s!"unknown vessel {req.vesselCode.quote}"))
      | some vessel =>
        match operatorByCode cat req.operatorCode with
        | .error e => .error e
        | .ok operatorId =>
          let units := (db.capacityUnits.select (fun cu => decide (cu.resourceId = vessel.id))).map
            (fun cu => (cu.id, cu.poolCapacity))
          match req.departures.zipIdx.foldlM (createTrip cat route vessel.id operatorId units newId) ([], db) with
          | .error e => .error (.ofDb e)
          | .ok created => .ok created

end Admin

end Lulan
