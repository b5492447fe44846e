import Lulan.Engine.Inventory

/-!
# The network in memory

A route as the domain has it: the locations it calls at, in order.
-/

namespace Lulan.Network

/-- An ordered sequence of locations; the index in the list is the stop index. -/
structure Route where
  stops : List Uuid

/-- The span between the first calls at two locations; there is none if one of them is missing
or they are out of order. Positions are narrowed to a byte. -/
def Route.spanBetween (r : Route) (origin destination : Uuid) : Option (Except SpanError SegmentSpan) :=
  match r.stops.findIdx? (fun s => decide (s = origin)) with
  | none => none
  | some start =>
    match r.stops.findIdx? (fun s => decide (s = destination)) with
    | none => none
    | some stop =>
      if start ≥ stop then none
      else some (SegmentSpan.new (start % 256) (stop % 256))

end Lulan.Network
