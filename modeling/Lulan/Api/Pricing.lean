import Lulan.Api.Platform

/-!
# Pricing and signed quotes

The itinerary context, the price of every line, and the token that lets an order buy at
the quoted prices.
-/

namespace Lulan

/-- One item to price, as clients describe it inside a journey. -/
structure JourneyItem where
  unitCode : String
  origin : String
  destination : String
  quantity : Option Int
  passengerType : Option String
deriving DecidableEq

structure JourneyRequest where
  tripId : Uuid
  items : List JourneyItem
deriving DecidableEq

structure PriceableItem where
  tripId : Uuid
  unitCode : String
  origin : String
  destination : String
  quantity : Option Int
  passengerType : Option String
deriving DecidableEq

structure PricedItem where
  tripId : Uuid
  unitCode : String
  origin : String
  destination : String
  fromIndex : Nat
  toIndex : Nat
  quantity : Int
  passengerType : Option String
  quote : Quote
deriving DecidableEq

structure JourneyContext where
  journeyCount : Nat
  isRoundTrip : Bool
deriving DecidableEq

structure PricedAncillary where
  ancillary : AncillaryRow
  line : AncillaryLine
  totalMinor : Int
deriving DecidableEq

structure QuoteRequest where
  tripId : Option Uuid
  items : Option (List JourneyItem)
  journeys : Option (List JourneyRequest)
  promoCode : Option String
  ancillaries : List AncillaryLine
deriving DecidableEq

structure QuoteResponse where
  currency : String
  journeyCount : Nat
  isRoundTrip : Bool
  items : List PricedItem
  ancillaries : List PricedAncillary
  totalMinor : Int
  expiresAt : Timestamp
  quoteToken : String
deriving DecidableEq

def quoteTtlSeconds : Int := 300

/-- Exactly two journeys on different trips, the second reversing the first, are a round
trip; each journey is judged by its first item. -/
def journeyContext (journeys : List (Uuid × List JourneyItem)) : JourneyContext where
  journeyCount := journeys.length
  isRoundTrip :=
    match journeys with
    | [(out, outItems), (back, backItems)] =>
      decide (out ≠ back) &&
        match outItems.head?, backItems.head? with
        | some o, some b => decide (o.origin = b.destination) && decide (o.destination = b.origin)
        | _, _ => false
    | _ => false

namespace Pricing

/-- The ruleset that orders are priced with: the newest active one. -/
def newestRules (t : Lib.Table FareRulesRow.id) : Option FareRulesRow :=
  ((t.select FareRulesRow.active).insertionSort (fun a b => a.createdAt ≥ b.createdAt)).head?

def loadRules (app : AppState) : Handler FareRuleSet := do
  let row ← Handler.query (fun w => newestRules w.db.fareRules)
  match row with
  | none => throw (.serviceUnavailable "no active fare rules configured")
  | some row =>
    match app.parseRules row.rules with
    | none => throw (.internal (.text "stored fare rules are malformed"))
    | some rules => return rules

/-- One departure lookup for each distinct trip. -/
def departures : List PriceableItem → List (Uuid × Timestamp) → Handler (List (Uuid × Timestamp))
  | [], known => return known
  | item :: rest, known => do
    if known.any (fun d => d.1 == item.tripId) then departures rest known
    else
      match ← Handler.query (fun w => (w.db.trips.find? item.tripId).map TripRow.departsAt) with
      | none => throw (.notFound s!"trip {item.tripId} not found")
      | some departsAt => departures rest (known ++ [(item.tripId, departsAt)])

/-- Days since the epoch, which was a Thursday. -/
def dayOf (t : Timestamp) : Int := Int.fdiv t 86400

def weekday (t : Timestamp) : Nat := ((dayOf t + 3) % 7).toNat

/-- What the pricing engine is told about one item. -/
def ruleInput (item : PriceableItem) (quantity : Int) (target : ClaimTarget) (departsAt now : Timestamp)
    (occupancyBp : Int) (promoCode : Option String) (context : JourneyContext) : RuleInput where
  fareKey := target.fareKey item.unitCode
  segments := target.span.segmentCount
  quantity
  weekday := weekday departsAt
  daysBeforeDeparture := dayOf departsAt - dayOf now
  occupancyBp
  promoCode
  passengerType := if target.kind = .seat then item.passengerType else none
  journeyCount := context.journeyCount
  isRoundTrip := context.isRoundTrip

/-- One item of a prospective itinerary, priced on its own trip's calendar. -/
def priceItem (app : AppState) (rules : FareRuleSet) (departs : List (Uuid × Timestamp))
    (promoCode : Option String) (context : JourneyContext) (item : PriceableItem) : Handler PricedItem := do
  let quantity := item.quantity.getD 1
  if quantity ≤ 0 then throw (.badRequest (.text s!"quantity must be positive for {item.unitCode}"))
  else do
    let departsAt := ((departs.find? (fun d => d.1 == item.tripId)).map Prod.snd).getD 0
    let now ← Io.now
    match ← Handler.store (InventoryStore.resolveTarget item.tripId item.unitCode item.origin item.destination) with
    | none => throw (.notFound s!"trip {item.tripId} with unit {item.unitCode.quote}")
    | some target =>
      let occupancyBp ← Handler.query (fun w =>
        w.db.spanOccupancyBp item.tripId target.unitId target.kind target.span)
      let input := ruleInput item quantity target departsAt now occupancyBp promoCode context
      match app.price rules input with
      | .error e => throw (.badRequest (.text s!"pricing {item.unitCode}: {e}"))
      | .ok quote =>
        return ⟨item.tripId, item.unitCode, item.origin, item.destination, target.span.fromIndex,
          target.span.toIndex, quantity, input.passengerType, quote⟩

def priceEach (app : AppState) (rules : FareRuleSet) (departs : List (Uuid × Timestamp))
    (promoCode : Option String) (context : JourneyContext) : List PriceableItem → Handler (List PricedItem)
  | [] => return []
  | item :: rest => do
    let priced ← priceItem app rules departs promoCode context item
    let pricedRest ← priceEach app rules departs promoCode context rest
    return priced :: pricedRest

/-- Price every item of a prospective itinerary against live occupancy. -/
def priceItems (app : AppState) (items : List PriceableItem) (promoCode : Option String)
    (context : JourneyContext) : Handler (List PricedItem) := do
  let rules ← loadRules app
  let departs ← departures items []
  priceEach app rules departs promoCode context items

/-- Whether an add-on line names a leg and a passenger exactly where its catalog entry asks for them. -/
def checkLine (ancillary : AncillaryRow) (itineraryTrips : List Uuid) (line : AncillaryLine) : Except ApiError Unit :=
  match ancillary.scope, line.tripId with
  | .journey, none => .error (.badRequest (.text s!"{line.code} is journey-scoped: pass the leg's trip_id"))
  | .itinerary, some _ => .error (.badRequest (.text s!"{line.code} covers the whole itinerary: omit trip_id"))
  | _, tripId =>
    if tripId.any (fun t => !itineraryTrips.contains t) then
      .error (.badRequest (.text s!"{line.code}: trip {tripId.getD 0} is not part of this itinerary"))
    else if ancillary.per = .passenger ∧ line.passenger.isNone then
      .error (.badRequest (.text s!"{line.code} is per-passenger: pass the passenger index"))
    else if ancillary.per = .order ∧ line.passenger.isSome then
      .error (.badRequest (.text s!"{line.code} is order-level: omit passenger"))
    else .ok ()

/-- One add-on line against the catalog and the trips of the itinerary. -/
def priceLine (catalog : List AncillaryRow) (itineraryTrips : List Uuid) (line : AncillaryLine) :
    Except ApiError PricedAncillary :=
  match catalog.find? (fun a => a.code == line.code) with
  | none => .error (.badRequest (.text s!"unknown or inactive ancillary {line.code.quote}"))
  | some ancillary =>
    if line.quantity ≤ 0 then .error (.badRequest (.text s!"quantity must be positive for {line.code}"))
    else
      match checkLine ancillary itineraryTrips line with
      | .error e => .error e
      | .ok () => .ok ⟨ancillary, line, ancillary.priceMinor * line.quantity⟩

/-- Validate and price add-on lines against the active catalog. -/
def priceLines (lines : List AncillaryLine) (itineraryTrips : List Uuid) : Handler (List PricedAncillary) := do
  if lines.isEmpty then return []
  let catalog ← Handler.query (fun w => w.db.ancillaries.select AncillaryRow.active)
  match lines.mapM (priceLine catalog itineraryTrips) with
  | .error e => throw e
  | .ok priced => return priced

end Pricing

def PricedItem.toToken (p : PricedItem) : QuoteTokenItem :=
  ⟨p.tripId, p.unitCode, p.origin, p.destination, p.quantity, p.passengerType, p.quote.totalMinor⟩

def PricedAncillary.toToken (a : PricedAncillary) : QuoteTokenAncillary := ⟨a.line, a.totalMinor⟩

namespace Quotes

/-- The token of a quote: its payload, a dot and the payload's tag. -/
def sign (app : AppState) (token : QuoteToken) : String := app.encode token ++ "." ++ app.tag (app.encode token)

/-- Signature and expiry check; `none` is a token to reject. -/
def verify (app : AppState) (now : Timestamp) (token : String) : Option QuoteToken :=
  match token.toList.span (fun c => c ≠ '.') with
  | (_, []) => none
  | (payload, _ :: tag) =>
    if app.tagMatches (String.ofList payload) (String.ofList tag) then
      match app.decode (String.ofList payload) with
      | none => none
      | some decoded => if decoded.exp > now then some decoded else none
    else none

/-- Either request shape as journeys. -/
def normalizeJourneys (req : QuoteRequest) : Except ApiError (List (Uuid × List JourneyItem)) :=
  match req.tripId, req.items, req.journeys with
  | none, none, some journeys =>
    if journeys.isEmpty || journeys.any (fun j => j.items.isEmpty) then
      .error (.badRequest (.text "every journey needs at least one item"))
    else if journeys.length > 8 then .error (.badRequest (.text "max 8 journeys per itinerary"))
    else .ok (journeys.map (fun j => (j.tripId, j.items)))
  | some tripId, some items, none =>
    if items.isEmpty then .error (.badRequest (.text "needs at least one item"))
    else .ok [(tripId, items)]
  | _, _, _ => .error (.badRequest (.text "provide either journeys[] or trip_id + items"))

/-- The items of all journeys, each with its trip. -/
def priceable (journeys : List (Uuid × List JourneyItem)) : List PriceableItem :=
  journeys.flatMap (fun j => j.2.map (fun i =>
    ⟨j.1, i.unitCode, i.origin, i.destination, i.quantity, i.passengerType⟩))

/-- `POST /v1/quotes`. -/
def create (app : AppState) (req : QuoteRequest) : Handler QuoteResponse := do
  match normalizeJourneys req with
  | .error e => throw e
  | .ok journeys =>
    let context := journeyContext journeys
    let priced ← Pricing.priceItems app (priceable journeys) req.promoCode context
    let pricedAncillaries ← Pricing.priceLines req.ancillaries (journeys.map Prod.fst)
    let currency := (priced.head?.map (fun p => p.quote.currency)).getD ""
    let totalMinor := (priced.map (fun p => p.quote.totalMinor)).sum +
      (pricedAncillaries.map PricedAncillary.totalMinor).sum
    let now ← Io.now
    let exp := now + quoteTtlSeconds
    let token : QuoteToken := {
      currency
      totalMinor
      exp
      items := priced.map PricedItem.toToken
      ancillaries := pricedAncillaries.map PricedAncillary.toToken }
    return ⟨currency, context.journeyCount, context.isRoundTrip, priced, pricedAncillaries, totalMinor, exp,
      sign app token⟩

end Quotes

end Lulan
