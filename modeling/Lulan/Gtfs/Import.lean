import Mathlib.Data.List.Sort
import Mathlib.Logic.Function.Basic
import Lulan.Lib.Text
import Lulan.Engine.Database

/-!
# GTFS import

A schedule feed becomes a network: each stop pattern a route with per-stop offsets, each
day of a service a dated trip. Dates are days since 1970-01-01, `departs_at` is in seconds,
and one import is one transaction.
-/

namespace Lulan.Gtfs

structure GtfsOptions where
  days : Int
  seats : Nat
  vessel : Option String

structure Agency where
  agencyId : String
  agencyName : String

structure Stop where
  stopId : String
  stopName : String
  stopTimezone : String

structure RouteRow where
  routeId : String
  routeShortName : String
  routeLongName : String

structure TripRow where
  routeId : String
  serviceId : String
  tripId : String
deriving DecidableEq

structure StopTime where
  tripId : String
  arrivalTime : String
  departureTime : String
  stopId : String
  stopSequence : Nat
deriving DecidableEq

structure Calendar where
  serviceId : String
  monday : Nat
  tuesday : Nat
  wednesday : Nat
  thursday : Nat
  friday : Nat
  saturday : Nat
  sunday : Nat
  startDate : String
  endDate : String

/-- The records of the files an import reads. -/
structure Feed where
  agencies : List Agency
  stops : List Stop
  routes : List RouteRow
  trips : List TripRow
  stopTimes : List StopTime
  calendars : List Calendar

/-- `NaiveDate::parse_from_str(_, "%Y%m%d")` and the character tables of the standard library. -/
structure Runtime where
  parseDate : String → Option Int
  isAlphanumeric : Char → Bool
  toUppercase : String → String

inductive ImportError where
  | noAgency
  | noSuchResource (code : String)
  | badTime (time : String)
  | badNumber (text : String)
  | badDate (date : String)
  | unknownStop (stopId : String)
  | db (e : DbError)
deriving DecidableEq

section Database

structure Operator where
  id : Uuid
  code : String
  name : String
deriving DecidableEq

structure Location where
  id : Uuid
  code : String
  name : String
  timezone : String
deriving DecidableEq

structure Route where
  id : Uuid
  code : String
  name : String
deriving DecidableEq

structure RouteStop where
  routeId : Uuid
  stopIndex : Nat
  locationId : Uuid
  arriveOffsetMin : Int32
  departOffsetMin : Int32
deriving DecidableEq

structure Resource where
  id : Uuid
  code : String
  name : String
  kind : String
deriving DecidableEq

structure CapacityUnit where
  id : Uuid
  resourceId : Uuid
  kind : UnitKind
  code : String
  fareClass : Option String
deriving DecidableEq

structure DatedTrip where
  id : Uuid
  routeId : Uuid
  resourceId : Uuid
  operatorId : Uuid
  serviceNumber : String
  serviceDate : Int
  departsAt : Timestamp
  segmentCount : Nat
deriving DecidableEq

structure SeatOccupancy where
  tripId : Uuid
  unitId : Uuid
  occupiedMask : BitVec 64
deriving DecidableEq

def RouteStop.key (s : RouteStop) : Uuid × Nat := (s.routeId, s.stopIndex)

def SeatOccupancy.key (s : SeatOccupancy) : Uuid × Uuid := (s.tripId, s.unitId)

/-- The tables an import writes. -/
structure Network where
  operators : Lib.Table Operator.id
  locations : Lib.Table Location.id
  routes : Lib.Table Route.id
  routeStops : Lib.Table RouteStop.key
  resources : Lib.Table Resource.id
  capacityUnits : Lib.Table CapacityUnit.id
  trips : Lib.Table DatedTrip.id
  seatOccupancy : Lib.Table SeatOccupancy.key

def Network.empty : Network := ⟨.empty, .empty, .empty, .empty, .empty, .empty, .empty, .empty⟩

end Database

namespace Network

/-- `INSERT INTO operators … ON CONFLICT (code) DO UPDATE SET name … RETURNING id`. -/
def upsertOperator (db : Network) (id : Uuid) (code name : String) : Except DbError (Uuid × Network) :=
  match db.operators.rows.find? (fun o => decide (o.code = code)) with
  | some o =>
    let operators := db.operators.update (fun r => decide (r.id = o.id))
      ⟨fun r => { r with name := name }, fun _ => rfl⟩
    .ok (o.id, { db with operators })
  | none => do
    let operators ← Db.insertRow db.operators ⟨id, code, name⟩ true true
    .ok (id, { db with operators })

/-- `INSERT INTO locations … ON CONFLICT (code) DO UPDATE SET name … RETURNING id`. -/
def upsertLocation (db : Network) (id : Uuid) (code name timezone : String) :
    Except DbError (Uuid × Network) :=
  match db.locations.rows.find? (fun l => decide (l.code = code)) with
  | some l =>
    let locations := db.locations.update (fun r => decide (r.id = l.id))
      ⟨fun r => { r with name := name }, fun _ => rfl⟩
    .ok (l.id, { db with locations })
  | none => do
    let locations ← Db.insertRow db.locations ⟨id, code, name, timezone⟩ true true
    .ok (id, { db with locations })

def resourceByCode (db : Network) (code : String) : Option Resource :=
  db.resources.rows.find? (fun r => decide (r.code = code))

/-- Units are unique by resource and code besides their id. -/
def insertUnit (db : Network) (u : CapacityUnit) : Except DbError Network :=
  if db.capacityUnits.rows.any (fun r => decide (r.resourceId = u.resourceId) && decide (r.code = u.code)) then
    .error .uniqueViolation
  else do
    let capacityUnits ← Db.insertRow db.capacityUnits u (db.resources.find? u.resourceId).isSome true
    .ok { db with capacityUnits }

/-- `INSERT INTO routes … ON CONFLICT (code) DO NOTHING`, then the id under that code. -/
def routeByCode (db : Network) (id : Uuid) (code name : String) : Except DbError (Uuid × Network) :=
  match db.routes.rows.find? (fun r => decide (r.code = code)) with
  | some r => .ok (r.id, db)
  | none => do
    let routes ← Db.insertRow db.routes ⟨id, code, name⟩ true true
    .ok (id, { db with routes })

/-- `INSERT INTO route_stops … ON CONFLICT (route_id, stop_index) DO NOTHING`. A route
stops nowhere twice. -/
def insertRouteStop (db : Network) (s : RouteStop) : Except DbError Network :=
  match db.routeStops.find? s.key with
  | some _ => .ok db
  | none =>
    if db.routeStops.rows.any (fun r => decide (r.routeId = s.routeId) &&
        decide (r.locationId = s.locationId)) then
      .error .uniqueViolation
    else do
      let routeStops ← Db.insertRow db.routeStops s
        ((db.routes.find? s.routeId).isSome && (db.locations.find? s.locationId).isSome) true
      .ok { db with routeStops }

/-- `INSERT INTO trips … ON CONFLICT (route_id, resource_id, departs_at) DO NOTHING`, and the
rows it affected. -/
def insertDatedTrip (db : Network) (t : DatedTrip) : Except DbError (Nat × Network) :=
  if db.trips.rows.any (fun r => decide (r.routeId = t.routeId) && decide (r.resourceId = t.resourceId) &&
      decide (r.departsAt = t.departsAt)) then
    .ok (0, db)
  else do
    let trips ← Db.insertRow db.trips t
      ((db.routes.find? t.routeId).isSome && (db.resources.find? t.resourceId).isSome &&
        (db.operators.find? t.operatorId).isSome)
      (decide (1 ≤ t.segmentCount) && decide (t.segmentCount ≤ 64))
    .ok (1, { db with trips })

def insertSeat (db : Network) (s : SeatOccupancy) : Except DbError Network := do
  let seatOccupancy ← Db.insertRow db.seatOccupancy s
    ((db.trips.find? s.tripId).isSome && (db.capacityUnits.find? s.unitId).isSome) true
  .ok { db with seatOccupancy }

end Network

section Parsing

/-- `str::parse::<i32>`. -/
def parseI32 (text : List Char) : Except ImportError Int32 :=
  match Lib.Text.parseSigned text with
  | some n =>
    if -2147483648 ≤ n ∧ n < 2147483648 then .ok (Int32.ofInt n)
    else .error (.badNumber (String.ofList text))
  | none => .error (.badNumber (String.ofList text))

/-- Minutes past service-day midnight. -/
def gtfsMinutes (time : String) : Except ImportError Int32 :=
  match time.toList.splitOn ':' with
  | h :: m :: _ => do
    let h ← parseI32 h
    let m ← parseI32 m
    .ok (h * 60 + m)
  | _ => .error (.badTime time)

def gtfsDate (rt : Runtime) (date : String) : Except ImportError Int :=
  match rt.parseDate date with
  | some d => .ok d
  | none => .error (.badDate date)

/-- `weekday().num_days_from_monday()`: day 0 was a Thursday. -/
def numDaysFromMonday (date : Int) : Nat := ((date + 3) % 7).toNat

def Calendar.weekdays (c : Calendar) : List Nat :=
  [c.monday, c.tuesday, c.wednesday, c.thursday, c.friday, c.saturday, c.sunday]

/-- The days from `start` to `last` on which the service runs. -/
def Calendar.dates (c : Calendar) (start last : Int) : List Int :=
  ((List.range (last + 1 - start).toNat).map (fun (n : Nat) => start + n)).filter (fun date =>
    c.weekdays[numDaysFromMonday date]? == some 1)

/-- The time of a departure `minutes` into a service day. -/
def departsAt (date : Int) (minutes : Int32) : Timestamp := date * 86400 + minutes.toInt * 60

end Parsing

namespace Feed

/-- The stop times by trip, in the order of their sequence numbers. -/
def sortedStopTimes (feed : Feed) : List StopTime :=
  feed.stopTimes.insertionSort (fun a b =>
    a.tripId < b.tripId ∨ a.tripId = b.tripId ∧ a.stopSequence ≤ b.stopSequence)

/-- `trip_stops`; a trip without stop times has no entry. -/
def tripStops (feed : Feed) (tripId : String) : List StopTime :=
  feed.sortedStopTimes.filter (fun st => decide (st.tripId = tripId))

/-- `route_names`; the last row of a route counts. -/
def routeName (feed : Feed) (routeId : String) : Option String :=
  (feed.routes.reverse.find? (fun r => decide (r.routeId = routeId))).map (fun r =>
    if r.routeShortName.isEmpty then r.routeLongName else r.routeShortName)

/-- `services`; the last row of a service counts. -/
def service (feed : Feed) (serviceId : String) : Option Calendar :=
  feed.calendars.reverse.find? (fun c => decide (c.serviceId = serviceId))

def baseName (feed : Feed) (routeId : String) : String := (feed.routeName routeId).getD routeId

end Feed

/-- The code of the `n`th pattern of a route. -/
def routeCode (base : String) (n : Nat) : String := base ++ "-" ++ n.repr

abbrev PatternKey : Type := String × List String

structure Pattern where
  routeId : Uuid
  firstDepartureMin : Int32

/-- The random identifiers an import draws, by the position of the record they are for. -/
structure Ids where
  operator : Uuid
  location : Nat → Uuid
  resource : Uuid
  unit : Nat → Uuid
  route : Nat → Uuid
  trip : Nat → Int → Uuid

/-- One call of the importer. -/
structure ImportCall where
  feed : Feed
  options : GtfsOptions
  today : Int
  ids : Ids

/-- What the loop over the trips has at hand. -/
structure Setting where
  operatorId : Uuid
  resourceId : Uuid
  seatUnits : List Uuid
  locationIds : String → Option Uuid

/-- The state of the loop over the trips. -/
structure Progress where
  db : Network
  patterns : PatternKey → Option Pattern
  patternCountPerRoute : String → Nat
  skippedTrips : Nat
  datedTrips : Nat

def liftDb {α : Type} : Except DbError α → Except ImportError α
  | .ok a => .ok a
  | .error e => .error (.db e)

section Import

variable (rt : Runtime) (call : ImportCall)

def operatorCode (agency : Agency) : String :=
  if agency.agencyId.isEmpty then
    rt.toUppercase (String.ofList ((agency.agencyName.toList.filter rt.isAlphanumeric).take 8))
  else agency.agencyId

def importStop (s : Network × (String → Option Uuid)) (x : Stop × Nat) :
    Except ImportError (Network × (String → Option Uuid)) := do
  let timezone := if x.1.stopTimezone.isEmpty then "UTC" else x.1.stopTimezone
  let (id, db) ← liftDb (s.1.upsertLocation (call.ids.location x.2) x.1.stopId x.1.stopName timezone)
  .ok (db, Function.update s.2 x.1.stopId (some id))

def importStops (db : Network) : Except ImportError (Network × (String → Option Uuid)) :=
  call.feed.stops.zipIdx.foldlM (importStop call) (db, fun _ => none)

/-- Rows of four, until the vehicle has its seats. -/
def seatCodes (seats : Nat) : List String :=
  ((List.range (max ((seats + 3) / 4) 1)).flatMap (fun row =>
    ["A", "B", "C", "D"].map (fun letter => (row + 1).repr ++ letter))).take seats

def importUnit (resourceId : Uuid) (db : Network) (x : String × Nat) : Except ImportError Network :=
  liftDb (db.insertUnit ⟨call.ids.unit x.2, resourceId, .seat, x.1, some "economy"⟩)

/-- The vehicle the trips attach to: a named one, or one described by its seats. -/
def importVehicle (agency : Agency) (db : Network) : Except ImportError (Uuid × Network) :=
  match call.options.vessel with
  | some code =>
    match db.resourceByCode code with
    | some r => .ok (r.id, db)
    | none => .error (.noSuchResource code)
  | none =>
    let code := "GTFS-" ++ operatorCode rt agency
    match db.resourceByCode code with
    | some r => .ok (r.id, db)
    | none => do
      let id := call.ids.resource
      let resources ← liftDb (Db.insertRow db.resources
        ⟨id, code, agency.agencyName ++ " vehicle", "bus"⟩ true true)
      let db ← (seatCodes call.options.seats).zipIdx.foldlM (importUnit call id) { db with resources }
      .ok (id, db)

def seatUnitsOf (db : Network) (resourceId : Uuid) : List Uuid :=
  (db.capacityUnits.select (fun u => decide (u.resourceId = resourceId) && u.kind == .seat)).map CapacityUnit.id

/-- One stop of a new pattern. -/
def importRouteStop (setting : Setting) (routeId : Uuid) (firstDeparture : Int32) (db : Network)
    (x : StopTime × Nat) : Except ImportError Network :=
  match setting.locationIds x.1.stopId with
  | none => .error (.unknownStop x.1.stopId)
  | some location => do
    let arrive ← gtfsMinutes x.1.arrivalTime
    let depart ← gtfsMinutes x.1.departureTime
    liftDb (db.insertRouteStop ⟨routeId, x.2, location, arrive - firstDeparture, depart - firstDeparture⟩)

/-- The departure of a trip at its first stop. -/
def firstDeparture : List StopTime → Except ImportError Int32
  | [] => .error (.badTime "")
  | st :: _ => gtfsMinutes st.departureTime

/-- The Lulan route of a pattern that was not seen before; a code that is there is reused. -/
def importPattern (setting : Setting) (routeUuid : Uuid) (code name : String) (stops : List StopTime)
    (db : Network) : Except ImportError (Pattern × Network) := do
  let first ← firstDeparture stops
  let (routeId, db) ← liftDb (db.routeByCode routeUuid code name)
  let db ← stops.zipIdx.foldlM (importRouteStop setting routeId first) db
  .ok (⟨routeId, first⟩, db)

/-- The pattern of a trip, made on first sight. -/
def patternOf (setting : Setting) (p : Progress) (index : Nat) (trip : TripRow) :
    Except ImportError (Pattern × Progress) :=
  let stops := call.feed.tripStops trip.tripId
  let key := (trip.routeId, stops.map StopTime.stopId)
  match p.patterns key with
  | some pattern => .ok (pattern, p)
  | none => do
    let n := p.patternCountPerRoute trip.routeId
    let name := call.feed.baseName trip.routeId
    let (pattern, db) ← importPattern setting (call.ids.route index) (routeCode name n) name stops p.db
    .ok (pattern, { p with
      db
      patterns := Function.update p.patterns key (some pattern)
      patternCountPerRoute := Function.update p.patternCountPerRoute trip.routeId (n + 1) })

/-- One dated departure, with its seats if it is new. -/
def importDeparture (setting : Setting) (pattern : Pattern) (index : Nat) (trip : TripRow) (segmentCount : Nat)
    (p : Progress) (date : Int) : Except ImportError Progress := do
  let tripUuid := call.ids.trip index date
  let (inserted, db) ← liftDb (p.db.insertDatedTrip ⟨tripUuid, pattern.routeId, setting.resourceId,
    setting.operatorId, trip.tripId, date, departsAt date pattern.firstDepartureMin, segmentCount⟩)
  if inserted = 1 then
    let db ← setting.seatUnits.foldlM (fun db unit => liftDb (db.insertSeat ⟨tripUuid, unit, 0#64⟩)) db
    .ok { p with
      db
      datedTrips := p.datedTrips + 1 }
  else .ok { p with db }

/-- The days of the window on which a service runs. -/
def serviceDates (c : Calendar) : Except ImportError (List Int) := do
  let start ← gtfsDate rt c.startDate
  let last ← gtfsDate rt c.endDate
  .ok (c.dates (max start call.today) (min last (call.today + call.options.days)))

def importTrip (setting : Setting) (p : Progress) (x : TripRow × Nat) : Except ImportError Progress :=
  let stops := call.feed.tripStops x.1.tripId
  if stops.length < 2 ∨ 64 < stops.length then .ok { p with skippedTrips := p.skippedTrips + 1 }
  else do
    let (pattern, p) ← patternOf call setting p x.2 x.1
    match call.feed.service x.1.serviceId with
    | none => .ok { p with skippedTrips := p.skippedTrips + 1 }
    | some service =>
      let dates ← serviceDates rt call service
      dates.foldlM (importDeparture call setting pattern x.2 x.1 (stops.length - 1)) p

/-- Everything before the loop over the trips. -/
def prepare (db : Network) : Except ImportError (Setting × Network) :=
  match call.feed.agencies.head? with
  | none => .error .noAgency
  | some agency => do
    let (operatorId, db) ← liftDb
      (db.upsertOperator call.ids.operator (operatorCode rt agency) agency.agencyName)
    let (db, locationIds) ← importStops call db
    let (resourceId, db) ← importVehicle rt call agency db
    .ok (⟨operatorId, resourceId, seatUnitsOf db resourceId, locationIds⟩, db)

/-- `import-gtfs`. -/
def importFeed (db : Network) : Except ImportError Progress := do
  let (setting, db) ← prepare rt call db
  call.feed.trips.zipIdx.foldlM (importTrip rt call setting) ⟨db, fun _ => none, fun _ => 0, 0, 0⟩

end Import

end Lulan.Gtfs
