import Mathlib.Data.List.Dedup
import Mathlib.Logic.Function.Basic
import Lulan.Engine.Inventory
import Lulan.Gtfs.Import

/-!
# Search and availability

What a traveller is shown before a sale: the trips between two stops on a date with a summary
of each span, and the seat map of a single trip.
-/

namespace Lulan

/-- The tables in which departures look up their codes. -/
structure Catalog where
  routes : Lib.Table Gtfs.Route.id
  resources : Lib.Table Gtfs.Resource.id
  operators : Lib.Table Gtfs.Operator.id

/-- The columns of a trip that no sale reads. -/
structure Service where
  serviceDate : Int
  serviceNumber : Option String
  operatorId : Option Uuid

/-- What the search reads besides the tables of the order engine. -/
structure Directory extends Catalog where
  service : Uuid → Service
  arriveOffsetMin : Uuid × Nat → Int

/-- A read fails like a sale, on a NULL in a text column or on a negative `LIMIT`. -/
inductive ReadError where
  | store (e : StoreError)
  | unexpectedNull (column : String)
  | negativeLimit
deriving DecidableEq, Repr

structure FareAvailability where
  fareClass : String
  available : Nat
  total : Nat
deriving DecidableEq

structure PoolAvailability where
  code : String
  remaining : Int
deriving DecidableEq

/-- `available` is the sold state only; `held` is filled in by the API layer. -/
structure SeatAvailability where
  unitId : Uuid
  code : String
  fareClass : String
  available : Bool
  held : Bool
deriving DecidableEq

structure TripSummary.Operator where
  code : String
  name : String
deriving DecidableEq

structure TripSummary.Vehicle where
  code : String
  name : String
  kind : String
deriving DecidableEq

/-- A search hit: one trip serving the requested pair of stops. -/
structure TripSummary where
  tripId : Uuid
  routeCode : String
  operator : Option TripSummary.Operator
  serviceNumber : Option String
  vehicle : TripSummary.Vehicle
  origin : String
  destination : String
  departsAt : Timestamp
  arrivesAt : Option Timestamp
  durationMinutes : Option Int
  fromIndex : Nat
  toIndex : Nat
  seats : List FareAvailability
  pools : List PoolAvailability
deriving DecidableEq

/-- Per-unit availability for one trip and span. -/
structure TripAvailability where
  tripId : Uuid
  origin : String
  destination : String
  fromIndex : Nat
  toIndex : Nat
  seats : List SeatAvailability
  pools : List PoolAvailability
deriving DecidableEq

/-- One joined row of the search: a trip, its vessel and the two stops. -/
structure SearchRow where
  trip : TripRow
  route : Gtfs.Route
  resource : Gtfs.Resource
  operator : Option Gtfs.Operator
  origin : RouteStopRow
  destination : RouteStopRow

/-- The map from trips to collected rows; a trip without an entry reads as an empty list. -/
def push {α : Type} (out : Uuid → List α) (r : Uuid × α) : Uuid → List α :=
  Function.update out r.1 (out r.1 ++ [r.2])

/-- Reading a nullable column into a `String`. -/
def readText (column : String) (value : Option String) : Except ReadError String :=
  match value with
  | some text => .ok text
  | none => .error (.unexpectedNull column)

namespace Db

/-- `route_stops` joined with `locations`, at one route and stop code. -/
def callsAt (db : Db) (routeId : Uuid) (code : String) : List RouteStopRow :=
  db.routeStops.select (fun rs => decide (rs.routeId = routeId) &&
    (db.locations.find? rs.locationId).any (fun l => decide (l.code = code)))

/-- The joined rows of one trip. -/
def joinTrip (db : Db) (dir : Directory) (origin destination : String) (date : Int) (t : TripRow) :
    List SearchRow :=
  match dir.routes.find? t.routeId, dir.resources.find? t.resourceId with
  | some route, some resource =>
    (db.callsAt t.routeId origin).flatMap (fun o =>
      (db.callsAt t.routeId destination).filterMap (fun d =>
        if o.stopIndex < d.stopIndex ∧ (dir.service t.id).serviceDate = date ∧ t.status = .scheduled then
          some ⟨t, route, resource, (dir.service t.id).operatorId.bind dir.operators.find?, o, d⟩
        else none))
  | _, _ => []

/-- The rows of one page: ordered by departure, ties in table order. -/
def searchPage (db : Db) (dir : Directory) (origin destination : String) (date limit : Int) : List SearchRow :=
  ((db.trips.rows.flatMap (db.joinTrip dir origin destination date)).insertionSort
    (fun a b => a.trip.departsAt ≤ b.trip.departsAt)).take limit.toNat

/-- `seat_occupancy` joined with `capacity_units`, for one trip. -/
def seatsOn (db : Db) (tripId : Uuid) : List (SeatOccupancyRow × CapacityUnitRow) :=
  db.seatOccupancy.rows.filterMap (fun so =>
    if so.tripId = tripId then (db.capacityUnits.find? so.unitId).map (fun cu => (so, cu)) else none)

/-- `pool_occupancy` joined with `capacity_units`, for one trip. -/
def poolsOn (db : Db) (tripId : Uuid) : List (PoolOccupancyRow × CapacityUnitRow) :=
  db.poolOccupancy.rows.filterMap (fun po =>
    if po.tripId = tripId then (db.capacityUnits.find? po.unitId).map (fun cu => (po, cu)) else none)

/-- The batched query of the seats: the trip, the fare class and whether the seat is free. -/
def fareRows (db : Db) (spans : List (Uuid × BitVec 64)) : List ((Uuid × Option String) × Bool) :=
  spans.flatMap (fun q => (db.seatsOn q.1).map (fun s =>
    ((q.1, s.2.fareClass), s.1.occupiedMask &&& q.2 == 0#64)))

/-- The order of the groups; NULL comes last. -/
def groupLe (a b : Uuid × Option String) : Bool :=
  decide (a.1 < b.1) || decide (a.1 = b.1) &&
    match a.2, b.2 with
    | _, none => true
    | none, some _ => false
    | some x, some y => decide (x ≤ y)

/-- `GROUP BY` the trip and the fare class, in their order. -/
def fareGroups (rows : List ((Uuid × Option String) × Bool)) : List (Uuid × Option String) :=
  (rows.map Prod.fst).dedup.insertionSort (fun a b => groupLe a b = true)

/-- One group of the result: the free seats and all of them. -/
def countGroup (rows : List ((Uuid × Option String) × Bool)) (g : Uuid × Option String) :
    Except ReadError (Uuid × FareAvailability) := do
  let fareClass ← readText "fare_class" g.2
  return (g.1, ⟨fareClass, rows.countP (fun r => decide (r.1 = g) && r.2),
    rows.countP (fun r => decide (r.1 = g))⟩)

/-- Fare-class availability for many (trip, span) pairs at once. -/
def fareAvailabilityBatch (db : Db) (spans : List (Uuid × BitVec 64)) :
    Except ReadError (Uuid → List FareAvailability) := do
  let rows := db.fareRows spans
  let read ← (fareGroups rows).mapM (countGroup rows)
  return read.foldl push (fun _ => [])

/-- The batched query of the pools: the trip, the code and the least remainder of the slice. -/
def poolRows (db : Db) (bounds : List (Uuid × Nat × Nat)) : List (Uuid × String × Option Int) :=
  bounds.flatMap (fun q => (db.poolsOn q.1).map (fun p =>
    (q.1, p.2.code, (slice p.1.remaining q.2.1 q.2.2).min?)))

/-- Pool remainders for many (trip, span) pairs at once. The set bits of a mask are the
segments, so the bounds come back out of it. -/
def poolAvailabilityBatch (db : Db) (spans : List (Uuid × BitVec 64)) : Uuid → List PoolAvailability :=
  let bounds := spans.map (fun q => (q.1, q.2.ctz.toNat + 1, 64 - q.2.clz.toNat))
  let ordered := (db.poolRows bounds).insertionSort
    (fun a b => a.1 < b.1 ∨ a.1 = b.1 ∧ a.2.1 ≤ b.2.1)
  (ordered.map (fun r => (r.1, PoolAvailability.mk r.2.1 (r.2.2.getD 0)))).foldl push (fun _ => [])

/-- A joined row as a hit, with the query for its availability. Stop indices are narrowed to
a byte. -/
def summarise (dir : Directory) (origin destination : String) (row : SearchRow) :
    Except ReadError (TripSummary × Uuid × BitVec 64) :=
  match SegmentSpan.new (row.origin.stopIndex % 256) (row.destination.stopIndex % 256) with
  | .error e => .error (.store (.span e))
  | .ok span =>
    let departOffset := row.origin.departOffsetMin
    let arriveOffset := dir.arriveOffsetMin row.destination.key
    let departs := row.trip.departsAt + departOffset * 60
    let arrives := row.trip.departsAt + arriveOffset * 60
    let known := arriveOffset > departOffset
    .ok ({
      tripId := row.trip.id
      routeCode := row.route.code
      operator := row.operator.map (fun op => ⟨op.code, op.name⟩)
      serviceNumber := (dir.service row.trip.id).serviceNumber
      vehicle := ⟨row.resource.code, row.resource.name, row.resource.kind⟩
      origin
      destination
      departsAt := departs
      arrivesAt := if known then some arrives else none
      durationMinutes := if known then some ((arrives - departs).tdiv 60) else none
      fromIndex := span.fromIndex
      toIndex := span.toIndex
      seats := []
      pools := [] }, row.trip.id, span.mask)

/-- Hand each hit its rows; what is handed out is taken off the maps. -/
def handOut (seats : Uuid → List FareAvailability) (pools : Uuid → List PoolAvailability) :
    List TripSummary → List TripSummary
  | [] => []
  | trip :: rest =>
    { trip with seats := seats trip.tripId, pools := pools trip.tripId } ::
      handOut (Function.update seats trip.tripId []) (Function.update pools trip.tripId []) rest

/-- Trips serving the pair of stops on a date, with availability summarised for exactly that
span. -/
def searchTrips (db : Db) (dir : Directory) (origin destination : String) (date limit : Int) :
    Except ReadError (List TripSummary) := do
  if limit < 0 then throw .negativeLimit
  let read ← (db.searchPage dir origin destination date limit).mapM (summarise dir origin destination)
  let spans := read.map Prod.snd
  let seats ← db.fareAvailabilityBatch spans
  return handOut seats (db.poolAvailabilityBatch spans) (read.map Prod.fst)

def poolAvailability (db : Db) (tripId : Uuid) (span : SegmentSpan) : List PoolAvailability :=
  ((db.poolsOn tripId).insertionSort (fun a b => a.2.code ≤ b.2.code)).map (fun p =>
    ⟨p.2.code, (slice p.1.remaining (span.fromIndex + 1) span.toIndex).min?.getD 0⟩)

def seatAvailability (span : SegmentSpan) (s : SeatOccupancyRow × CapacityUnitRow) :
    Except ReadError SeatAvailability := do
  let fareClass ← readText "fare_class" s.2.fareClass
  return ⟨s.2.id, s.2.code, fareClass, s.1.occupiedMask &&& span.mask == 0#64, false⟩

/-- Per-unit availability of one trip. A departed or cancelled trip still answers. -/
def tripAvailability (db : Db) (tripId : Uuid) (origin destination : String) :
    Except ReadError (Option TripAvailability) :=
  match db.trips.find? tripId with
  | none => .ok none
  | some t =>
    match db.resolveSpan t.routeId origin destination with
    | .error e => .error (.store e)
    | .ok (span, _) => do
      let seats ← ((db.seatsOn tripId).insertionSort (fun a b => a.2.code ≤ b.2.code)).mapM
        (seatAvailability span)
      return some ⟨tripId, origin, destination, span.fromIndex, span.toIndex, seats,
        db.poolAvailability tripId span⟩

end Db

end Lulan
