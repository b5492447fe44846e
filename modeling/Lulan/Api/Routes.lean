import Lulan.Api.Platform
import Lulan.Engine.Search

/-!
# Routes

`POST /v1/admin/routes`: a route and its ordered stops, in one transaction.
-/

namespace Lulan

/-- A stop of a new route; an offset that is not given is zero. -/
structure RouteStopRequest where
  locationCode : String
  arriveOffsetMin : Int := 0
  departOffsetMin : Int := 0
deriving DecidableEq

structure CreateRouteRequest where
  code : String
  name : String
  stops : List RouteStopRequest
deriving DecidableEq

namespace Db

/-- `INSERT INTO routes`; codes are unique. -/
def insertRoute (dir : Directory) (r : Gtfs.Route) : Except DbError Directory :=
  if dir.routes.rows.any (fun x => decide (x.code = r.code)) then .error .uniqueViolation
  else do
    let routes ← insertRow dir.routes r true true
    .ok { dir with routes }

/-- `INSERT INTO route_stops … SELECT … FROM locations WHERE code = $3`, and the rows it affected. A route
stops nowhere twice; the index is narrowed to 16 bits and checked to be positive. -/
def insertStopAt (dir : Directory) (db : Db) (routeId : Uuid) (index : Nat) (code : String)
    (arriveOffsetMin departOffsetMin : Int) : Except DbError (Nat × Directory × Db) :=
  match db.locations.rows.find? (fun l => decide (l.code = code)) with
  | none => .ok (0, dir, db)
  | some l =>
    let row : RouteStopRow := ⟨routeId, index % 65536, l.id, departOffsetMin⟩
    if db.routeStops.rows.any (fun r => decide (r.routeId = routeId) && decide (r.locationId = l.id)) then
      .error .uniqueViolation
    else do
      let routeStops ← insertRow db.routeStops row (refersTo dir.routes (some routeId))
        (decide (row.stopIndex < 32768))
      let dir := { dir with arriveOffsetMin := Function.update dir.arriveOffsetMin row.key arriveOffsetMin }
      .ok (1, dir, { db with routeStops })

end Db

namespace Admin

/-- One stop of a new route; its location has to be known. -/
def createRouteStop (id : Uuid) (s : Directory × Db) (x : RouteStopRequest × Nat) :
    Except ApiError (Directory × Db) :=
  match Db.insertStopAt s.1 s.2 id x.2 (trim x.1.locationCode) x.1.arriveOffsetMin x.1.departOffsetMin with
  | .error e => .error (.ofDb e)
  | .ok (inserted, dir, db) =>
    if inserted = 0 then .error (.badRequest (.text s!"unknown location {x.1.locationCode.quote}"))
    else .ok (dir, db)

/-- The transaction of `POST /v1/admin/routes`; `id` is the identifier it draws. -/
def createRoute (req : CreateRouteRequest) (id : Uuid) (s : Directory × Db) : Except ApiError (Directory × Db) :=
  if req.stops.length < 2 then .error (.badRequest (.text "a route needs at least 2 stops"))
  else
    match Db.insertRoute s.1 ⟨id, trim req.code, trim req.name⟩ with
    | .error .uniqueViolation => .error (.conflict (.text "route code already exists"))
    | .error e => .error (.ofDb e)
    | .ok dir => req.stops.zipIdx.foldlM (createRouteStop id) (dir, s.2)

end Admin

end Lulan
