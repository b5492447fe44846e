import Lulan.Gtfs.Import

/-!
# The schedule an import works on

The network with the status column of its dated trips, which no statement of an import names:
a trip that is inserted has the default.
-/

namespace Lulan.Gtfs

structure Schedule where
  network : Network
  status : Uuid → TripStatus

/-- The same feed with the same options, on another day or with other identifiers. -/
def ImportCall.again (call : ImportCall) (today : Int) (ids : Ids) : ImportCall := { call with today, ids }

/-- `import-gtfs` run to its end: committed as a whole, or rolled back. An import that reports a
failure has been rolled back: the COMMIT whose reply is lost is left out. -/
def Schedule.imported (rt : Runtime) (call : ImportCall) (s : Schedule) : Schedule :=
  match importFeed rt call s.network with
  | .error _ => s
  | .ok p => ⟨p.db, fun id =>
      if (s.network.trips.find? id).isNone && (p.db.trips.find? id).isSome then .scheduled else s.status id⟩

end Lulan.Gtfs
