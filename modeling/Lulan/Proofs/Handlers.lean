import Lulan.Proofs.Programs

/-!
# What each request may do

The transactions, calls and answers of every endpoint; whatever a booking claims was
resolved and priced from databases its handler saw.
-/

namespace Lulan.Proofs

open Lulan Lulan.Db Lib

-- the rules below are applied to whole programs, which need not be unfolded for that
attribute [local irreducible] Prog.Only

/-- One ordered item at the price of the quoted item that covers it. -/
def ItemFrom (J : World → Prop) (quote : QuoteToken) (passengers : List NewPassenger)
    (x : Uuid × OrderItemRequest) (o : NewOrderItem) : Prop :=
  ∃ target quoted, ResolvedFrom J x.1 x.2.unitCode x.2.origin x.2.destination target ∧
    quote.items.find? (Orders.quotes x.1 x.2 (x.2.quantity.getD 1)
      (if target.kind = .seat then Orders.seatPassengerType passengers x.2 else none)) = some quoted ∧
    o = ⟨x.1, x.2.unitCode, x.2.origin, x.2.destination, x.2.quantity.getD 1, quoted.priceMinor, x.2.passenger⟩

/-- What the quote branch guarantees about an order. -/
def QuotedOrder (J : World → Prop) (app : AppState) (req : CreateOrderRequest) (order : NewOrder) : Prop :=
  ∀ token, req.quoteToken = some token → ∃ now quote journeys priced catalog,
    Quotes.verify app now token = some quote ∧ order.currency = quote.currency ∧
    Orders.journeysOf req = .ok journeys ∧
    List.Forall₂ (ItemFrom J quote order.passengers) (Orders.flatten journeys) order.items ∧
    req.ancillaries.mapM (Pricing.priceLine catalog (journeys.map Prod.fst)) = .ok priced ∧
    Orders.ancillaryLines (some quote.ancillaries) priced = .ok order.ancillaries

/-- The token behind a quote. -/
def tokenOf (response : QuoteResponse) : QuoteToken where
  currency := response.currency
  totalMinor := response.totalMinor
  exp := response.expiresAt
  items := response.items.map PricedItem.toToken
  ancillaries := response.ancillaries.map PricedAncillary.toToken

/-- What a signed quote says. -/
def Quoted (app : AppState) (response : QuoteResponse) : Prop :=
  response.quoteToken = Quotes.sign app (tokenOf response) ∧
    (tokenOf response).totalMinor = ((tokenOf response).items.map QuoteTokenItem.priceMinor).sum +
      ((tokenOf response).ancillaries.map QuoteTokenAncillary.totalMinor).sum ∧
    ∀ a ∈ (tokenOf response).ancillaries, ∀ b ∈ (tokenOf response).ancillaries, a.line = b.line →
      a.totalMinor = b.totalMinor

/-- The pricing engine was asked for as many units as the item has, and answered with its quote. -/
structure EnginePriced (app : AppState) (p : PricedItem) : Prop where
  positive : 0 < p.quantity
  priced : ∃ rules input, app.price rules input = .ok p.quote ∧ input.quantity = p.quantity

/-- An item as it was asked for, priced. -/
structure PricedFor (app : AppState) (item : PriceableItem) (p : PricedItem) : Prop where
  engine : EnginePriced app p
  trip : p.tripId = item.tripId
  unit : p.unitCode = item.unitCode
  quantity : p.quantity = item.quantity.getD 1

/-- One ordered item at the price the engine answered for it, in the currency of the order. -/
def LiveItem (app : AppState) (currency : String) (x : Uuid × OrderItemRequest) (o : NewOrderItem) : Prop :=
  ∃ p, EnginePriced app p ∧ p.quote.currency = currency ∧
    (p.tripId = x.1 ∧ p.unitCode = x.2.unitCode ∧ p.quantity = x.2.quantity.getD 1) ∧
    o = ⟨p.tripId, p.unitCode, p.origin, p.destination, p.quantity, p.quote.totalMinor, x.2.passenger⟩

/-- What the live branch guarantees about an order. -/
def LiveOrder (app : AppState) (req : CreateOrderRequest) (order : NewOrder) : Prop :=
  req.quoteToken = none → ∃ journeys, Orders.journeysOf req = .ok journeys ∧
    List.Forall₂ (LiveItem app order.currency) (Orders.flatten journeys) order.items

/-- What a quote is made of: every item as the engine priced it, and the currency of the first. -/
structure EngineQuote (app : AppState) (response : QuoteResponse) : Prop where
  items : ∀ p ∈ response.items, EnginePriced app p
  currency : response.currency = (response.items.head?.map (fun p => p.quote.currency)).getD ""

/-- A claimed unit was resolved on the trip of the request. -/
def ClaimFrom (J : World → Prop) (tripId : Uuid) (req : ClaimRequest) (unitId : Uuid) (span : SegmentSpan) : Prop :=
  ∃ target, ResolvedFrom J tripId req.unitCode req.origin req.destination target ∧
    target.unitId = unitId ∧ target.span = span

/-- The transactions a request may run. -/
def Runs (J : World → Prop) (app : AppState) : Request → Tx → Prop
  | .createOrder _ _ req, .createOrder order wired _ => Resolved J order wired ∧ QuotedOrder J app req order
  | .createOrder .., .upsertCustomer .. => True
  | .createOrder .., .insertKey .. => True
  | .createOrder .., .selectKey .. => True
  | .createOrder .., .completeKey .. => True
  | .createOrder .., .deletePendingKey .. => True
  | .requestPayment orderId, .requestPayment orderId' _ => orderId' = orderId
  | .paymentWebhook .., .paymentResult .. => True
  | .paymentWebhook .., .issueForOrder .. => True
  | .cancelOrder orderId, .cancel orderId' => orderId' = orderId
  | .issueTickets orderId, .issueForOrder orderId' _ => orderId' = orderId
  | .syncScans .., .recordScan .. => True
  | .refundOrder orderId, .refund orderId' => orderId' = orderId
  | .refundOrder _, .audit _ => True
  | .cancelTrip tripId, .cancelTrip tripId' => tripId' = tripId
  | .cancelTrip _, .cancel _ => True
  | .cancelTrip _, .refund _ => True
  | .cancelTrip _, .audit _ => True
  | .expireDue, .expire _ => True
  | .settleCancelledTrips _, .cancel _ => True
  | .settleCancelledTrips _, .refund _ => True
  | .storeCreate order, .createOrder order' wired _ => order' = order ∧ Resolved J order wired
  | .claimSeat tripId .., .claimSeat tripId' .. => tripId' = tripId
  | .claimPool tripId .., .claimPool tripId' _ _ qty => 0 < qty ∧ tripId' = tripId
  | .createClaim tripId req, .claimSeat tripId' unitId span => tripId' = tripId ∧ ClaimFrom J tripId req unitId span
  | .createClaim tripId req, .claimPool tripId' unitId span qty =>
    0 < qty ∧ tripId' = tripId ∧ ClaimFrom J tripId req unitId span
  | _, _ => False

/-- The calls a request may make. -/
def Calls : Request → Call → Prop
  | .createOrder .., .itineraryMembers _ => True
  | .createOrder .., .releaseItinerary _ => True
  | .requestPayment orderId, .createIntent orderId' _ _ => orderId' = orderId
  | .refundOrder orderId, .refund orderId' _ _ => orderId' = orderId
  | .cancelTrip _, .refund .. => True
  | .settleCancelledTrips _, .refund .. => True
  | .createClaim .., .itineraryMembers _ => True
  | .createClaim .., .releaseItinerary _ => True
  | _, _ => False

/-- The answers a request may have. -/
def Answers (app : AppState) : Request → Answer → Prop
  | .createQuote _, .ok (.quote response) => Quoted app response
  | _, _ => True

section Pricing

variable {J : World → Prop} {P : Tx → Prop} {Q : Call → Prop} {app : AppState}

lemma departures_only {items : List PriceableItem} {known : List (Uuid × Timestamp)} :
    IoOnly J P Q (fun _ => True) (Pricing.departures items known) := by
  induction items generalizing known with
  | nil => exact only_pure trivial
  | cons item rest ih =>
    unfold Pricing.departures
    split
    · exact ih
    · refine only_bind (R := fun _ => True) (only_handlerQuery (fun _ _ => trivial)) (fun r _ => ?_)
      cases r with
      | none => exact only_throw _
      | some departsAt => exact ih

/-- An item is priced for as many units as were asked for. -/
lemma priceItem_only {rules : FareRuleSet} {departs : List (Uuid × Timestamp)} {promo : Option String}
    {context : JourneyContext} {item : PriceableItem} :
    IoOnly J P Q (PricedFor app item) (Pricing.priceItem app rules departs promo context item) := by
  unfold Pricing.priceItem
  simp only
  split
  · exact only_throw _
  · rename_i hpos
    refine only_bind (R := fun _ => True) (only_now (fun _ => trivial)) (fun now _ => ?_)
    refine only_bind (only_mapErr resolveTarget_only) (fun r _ => ?_)
    cases r with
    | none => exact only_throw _
    | some target =>
      refine only_bind (R := fun _ => True) (only_handlerQuery (fun _ _ => trivial)) (fun bp _ => ?_)
      split
      · exact only_throw _
      · rename_i quote hquote
        exact only_pure ⟨⟨not_le.mp hpos, rules, _, hquote, rfl⟩, rfl, rfl, rfl⟩

lemma priceItems_only {items : List PriceableItem} {promo : Option String} {context : JourneyContext} :
    IoOnly J P Q (List.Forall₂ (PricedFor app) items) (Pricing.priceItems app items promo context) := by
  refine only_bind (R := fun _ => True) ?_ (fun rules _ => ?_)
  · refine only_bind (R := fun _ => True) (only_handlerQuery (fun _ _ => trivial)) (fun row _ => ?_)
    cases row with
    | none => exact only_throw _
    | some row =>
      simp only
      split
      · exact only_throw _
      · exact only_pure trivial
  · refine only_bind departures_only (fun departs _ => ?_)
    induction items with
    | nil => exact only_pure .nil
    | cons item rest ih =>
      refine only_bind priceItem_only (fun priced hpriced => ?_)
      refine only_bind ih (fun pricedRest hrest => ?_)
      exact only_pure (.cons hpriced hrest)

lemma priceLines_only {lines : List AncillaryLine} {trips : List Uuid} :
    IoOnly J P Q (fun priced => ∃ catalog, lines.mapM (Pricing.priceLine catalog trips) = .ok priced)
      (Pricing.priceLines lines trips) := by
  unfold Pricing.priceLines
  split
  · rename_i he
    rw [List.isEmpty_iff] at he
    subst he
    exact only_pure ⟨[], rfl⟩
  · refine only_bind (R := fun _ => True) (only_handlerQuery (fun _ _ => trivial)) (fun catalog _ => ?_)
    split
    · exact only_throw _
    · rename_i priced hp
      exact only_pure ⟨catalog, hp⟩

/-- A line keeps its place, and its price depends on the line alone. -/
lemma priceLine_eq_ok {catalog : List AncillaryRow} {trips : List Uuid} {line : AncillaryLine}
    {priced : PricedAncillary} (h : Pricing.priceLine catalog trips line = .ok priced) :
    priced.line = line ∧ ∃ a, catalog.find? (fun a => a.code == line.code) = some a ∧
      priced = ⟨a, line, a.priceMinor * line.quantity⟩ := by
  unfold Pricing.priceLine at h
  split at h
  · cases h
  · rename_i a ha
    split_ifs at h
    split at h
    · cases h
    · cases h
      exact ⟨rfl, a, ha, rfl⟩

/-- A priced line is what its own line is priced at. -/
lemma priceLine_of_mem {catalog : List AncillaryRow} {trips : List Uuid} {lines : List AncillaryLine}
    {priced : List PricedAncillary} (h : lines.mapM (Pricing.priceLine catalog trips) = .ok priced)
    {a : PricedAncillary} (ha : a ∈ priced) : Pricing.priceLine catalog trips a.line = .ok a := by
  have hall := mapM_eq_ok.mp h
  obtain ⟨i, hi, rfl⟩ := List.mem_iff_getElem.mp ha
  have hget := hall.get (hall.length_eq ▸ hi) hi
  simp only [List.get_eq_getElem] at hget
  rw [(priceLine_eq_ok hget).1]
  exact hget

lemma priceLines_same {catalog : List AncillaryRow} {trips : List Uuid} {lines : List AncillaryLine}
    {priced : List PricedAncillary} (h : lines.mapM (Pricing.priceLine catalog trips) = .ok priced) :
    priced.map PricedAncillary.line = lines ∧
    ∀ a ∈ priced, ∀ b ∈ priced, a.line = b.line → a.totalMinor = b.totalMinor := by
  constructor
  · have hall := mapM_eq_ok.mp h
    induction hall with
    | nil => rfl
    | cons hb _ ih => rw [List.map_cons, (priceLine_eq_ok hb).1, ih (mapM_eq_ok.mpr ‹_›)]
  · intro a ha b hb hab
    have h₁ := priceLine_of_mem h ha
    rw [hab, priceLine_of_mem h hb] at h₁
    cases h₁
    rfl

/-- A quote is signed over the sum of its lines, each as the engine priced it. -/
lemma createQuote_only {req : QuoteRequest} :
    IoOnly J P Q (fun response => Quoted app response ∧ EngineQuote app response) (Quotes.create app req) := by
  unfold Quotes.create
  split
  · exact only_throw _
  · refine only_bind priceItems_only (fun priced hpriced => ?_)
    refine only_bind priceLines_only (fun ancillaries ha => ?_)
    refine only_bind (R := fun _ => True) (only_now (fun _ => trivial)) (fun now _ => ?_)
    obtain ⟨catalog, ha⟩ := ha
    refine only_pure ⟨⟨rfl, ?_, ?_⟩, fun p hp => ?_, rfl⟩
    · simp only [tokenOf, List.map_map]
      rfl
    · intro a hma b hmb hab
      obtain ⟨x, hx, rfl⟩ := List.mem_map.mp hma
      obtain ⟨y, hy, rfl⟩ := List.mem_map.mp hmb
      exact (priceLines_same ha).2 x hx y hy hab
    · obtain ⟨i, hi, rfl⟩ := List.mem_iff_getElem.mp hp
      exact (hpriced.get (hpriced.length_eq ▸ hi) hi).engine

end Pricing

/-- A resolved unit is on the vessel of the trip, under the requested code. -/
lemma resolveTarget_unit {v : World} {tripId : Uuid} {unitCode origin destination : String} {target : ClaimTarget}
    (h : Db.resolveTarget v tripId unitCode origin destination = .ok (some target)) :
    ∃ cu ∈ v.db.capacityUnits.rows, cu.code = unitCode ∧ cu.id = target.unitId := by
  unfold Db.resolveTarget at h
  split at h
  · cases h
  · rename_i t ht
    split at h
    · cases h
    · rename_i cu hcu
      have hm := List.mem_of_find?_eq_some hcu
      have hp := List.find?_some hcu
      simp only [Bool.and_eq_true, decide_eq_true_eq] at hp
      split_ifs at h
      split at h
      · cases h
      · simp only at h
        split_ifs at h
        cases h
        exact ⟨cu, hm, hp.2, rfl⟩

section Orders

variable {J : World → Prop} {P : Tx → Prop} {Q : Call → Prop} {app : AppState}

lemma quotedItems_only {quote : QuoteToken} {passengers : List NewPassenger}
    {flat : List (Uuid × OrderItemRequest)} :
    IoOnly J P Q (List.Forall₂ (ItemFrom J quote passengers) flat) (Orders.quotedItems quote passengers flat) := by
  induction flat with
  | nil => exact only_pure .nil
  | cons x rest ih =>
    unfold Orders.quotedItems
    refine only_bind (R := ItemFrom J quote passengers x) ?_ (fun first hf => ?_)
    · unfold Orders.quotedItem
      refine only_bind (only_mapErr resolveTarget_only) (fun r hr => ?_)
      cases r with
      | none => exact only_throw _
      | some target =>
        simp only
        split
        · exact only_throw _
        · rename_i quoted hq
          exact only_pure ⟨target, quoted, hr target rfl, hq, rfl⟩
    · refine only_bind ih (fun others ho => ?_)
      exact only_pure (.cons hf ho)

/-- What pricing guarantees about an order with a quote token. -/
def QuotedItems (J : World → Prop) (app : AppState) (req : CreateOrderRequest) (passengers : List NewPassenger)
    (journeys : List (Uuid × List OrderItemRequest)) (priced : PricedOrder) : Prop :=
  ∀ token, req.quoteToken = some token → ∃ now quote, Quotes.verify app now token = some quote ∧
    priced.currency = quote.currency ∧
    List.Forall₂ (ItemFrom J quote passengers) (Orders.flatten journeys) priced.items ∧
    priced.quoteAncillaries = some quote.ancillaries

/-- Live prices go to the items they were asked for. -/
lemma liveItems_priced {currency : String} {flat : List (Uuid × OrderItemRequest)}
    {item : Uuid × OrderItemRequest → PriceableItem} {priced : List PricedItem} (htrip : ∀ x, (item x).tripId = x.1)
    (hunit : ∀ x, (item x).unitCode = x.2.unitCode) (hquantity : ∀ x, (item x).quantity = x.2.quantity)
    (h : List.Forall₂ (PricedFor app) (flat.map item) priced) (hsame : ∀ p ∈ priced, p.quote.currency = currency) :
    List.Forall₂ (LiveItem app currency) flat ((priced.zip flat).map (fun x => ⟨x.1.tripId, x.1.unitCode, x.1.origin,
      x.1.destination, x.1.quantity, x.1.quote.totalMinor, x.2.2.passenger⟩)) := by
  rw [List.forall₂_map_left_iff] at h
  induction h with
  | nil => exact .nil
  | @cons x p flat priced hp _ ih =>
    refine .cons ⟨p, hp.engine, hsame p List.mem_cons_self, ⟨?_, ?_, ?_⟩, rfl⟩
      (ih (fun p hp => hsame p (List.mem_cons_of_mem _ hp)))
    · rw [hp.trip, htrip]
    · rw [hp.unit, hunit]
    · rw [hp.quantity, hquantity]

lemma priceOrder_only {req : CreateOrderRequest} {passengers : List NewPassenger}
    {journeys : List (Uuid × List OrderItemRequest)} :
    IoOnly J P Q (fun priced => QuotedItems J app req passengers journeys priced ∧ (req.quoteToken = none →
        List.Forall₂ (LiveItem app priced.currency) (Orders.flatten journeys) priced.items))
      (Orders.priceOrder app req passengers journeys) := by
  unfold Orders.priceOrder
  split
  · rename_i token ht
    refine only_bind (R := fun _ => True) (only_now (fun _ => trivial)) (fun now _ => ?_)
    split
    · exact only_throw _
    · rename_i quote hv
      refine only_bind quotedItems_only (fun items hitems => ?_)
      refine only_pure ⟨fun token' ht' => ?_, fun hnone => ?_⟩
      · rw [ht] at ht'
        cases ht'
        exact ⟨now, quote, hv, rfl, hitems, rfl⟩
      · rw [ht] at hnone
        cases hnone
  · rename_i hnone
    refine only_bind priceItems_only (fun priced hpriced => ?_)
    simp only
    split
    · exact only_throw _
    · rename_i hsame
      refine only_pure ⟨fun token ht => ?_, fun _ => ?_⟩
      · rw [hnone] at ht
        cases ht
      · refine liveItems_priced (fun _ => rfl) (fun _ => rfl) (fun _ => rfl) hpriced (fun p hp => ?_)
        by_contra hodd
        exact List.find?_eq_none.mp hsame p hp (decide_eq_true hodd)

lemma checkHold_only {holdId : Option Uuid} {trips : List Uuid} (hQ : ∀ id, Q (.itineraryMembers id)) :
    IoOnly J P Q (fun _ => True) (Orders.checkHold app holdId trips) := by
  unfold Orders.checkHold
  split
  · exact only_pure trivial
  · split
    · refine only_bind (R := fun _ => True) (only_call (hQ _) (fun _ => trivial)) (fun b _ => ?_)
      split
      · split
        · exact only_pure trivial
        · exact only_throw _
      · exact only_throw _
      · exact only_pure trivial
    · exact only_pure trivial

lemma prepare_only {req : CreateOrderRequest} {journeys : List (Uuid × List OrderItemRequest)}
    {customerId : Option Uuid} {guestContact : Option String} (hj : Orders.journeysOf req = .ok journeys)
    (hQ : ∀ id, Q (.itineraryMembers id)) :
    IoOnly J P Q (fun order => QuotedOrder J app req order ∧ LiveOrder app req order)
      (Orders.prepare app req journeys customerId guestContact) := by
  unfold Orders.prepare
  split
  · exact only_throw _
  · rename_i passengers hp
    refine only_bind (checkHold_only hQ) (fun _ _ => ?_)
    refine only_bind priceOrder_only (fun priced hpriced => ?_)
    refine only_bind priceLines_only (fun ancillaries ha => ?_)
    split
    · exact only_throw _
    · rename_i lines hl
      refine only_pure ⟨fun token ht => ?_, fun hnone => ⟨journeys, hj, hpriced.2 hnone⟩⟩
      obtain ⟨now, quote, hv, hc, hi, hq⟩ := hpriced.1 token ht
      obtain ⟨catalog, ha⟩ := ha
      rw [hq] at hl
      exact ⟨now, quote, journeys, ancillaries, catalog, hv, hc, hj, hi, ha, hl⟩

lemma replayIfCompleted_only {key : Option String} {scope hash : String} :
    IoOnly J P Q (fun _ => True) (Idempotency.replayIfCompleted key scope hash) := by
  unfold Idempotency.replayIfCompleted
  split
  · exact only_pure trivial
  · refine only_bind (R := fun _ => True) (only_handlerQuery (fun _ _ => trivial)) (fun row _ => ?_)
    cases row with
    | none => exact only_pure trivial
    | some row =>
      simp only
      split
      · exact only_throw _
      · split
        · exact only_throw _
        · exact only_pure trivial

/-- What is held is the key that was asked for. -/
lemma reserve_only {key : Option String} {scope hash : String} (hi : ∀ k, key = some k → P (.insertKey scope k hash))
    (hs : ∀ k, key = some k → P (.selectKey scope k)) :
    IoOnly J P Q (fun reserved => ∀ r, reserved = .held r → r.scope = scope ∧ key = some r.key)
      (Idempotency.reserve key scope hash) := by
  unfold Idempotency.reserve
  split
  · exact only_pure (fun r hr => by cases hr)
  · rename_i key
    have hheld : ∀ r, Reserved.held ⟨scope, key⟩ = .held r → r.scope = scope ∧ some key = some r.key := by
      intro r hr
      cases hr
      exact ⟨rfl, rfl⟩
    refine only_bind (R := fun _ => True) (only_transact (hi key rfl) (fun _ _ _ => trivial)) (fun n _ => ?_)
    split
    · exact only_pure hheld
    · refine only_bind (R := fun _ => True) (only_transact (hs key rfl) (fun _ _ _ => trivial)) (fun row _ => ?_)
      cases row with
      | none => exact only_pure hheld
      | some row =>
        simp only
        split
        · exact only_throw _
        · split
          · split
            · exact only_throw _
            · exact only_pure (fun r hr => by cases hr)
          · exact only_throw _

lemma releaseHold_only {holdId : Option Uuid} (hQ : ∀ id, Q (.releaseItinerary id)) :
    IoOnly J P Q (fun _ => True) (Orders.releaseHold app holdId) := by
  unfold Orders.releaseHold
  split
  · exact only_pure trivial
  · split
    · refine only_bind (R := fun _ => True) (only_call (hQ _) (fun _ => trivial)) (fun _ _ => ?_)
      exact only_pure trivial
    · exact only_pure trivial

lemma book_only {reservation : Option Reservation} {order : NewOrder} {holdId : Option Uuid}
    (hP : ∀ wired expiresAt, Resolved J order wired → P (.createOrder order wired expiresAt))
    (hc : ∀ r orderId code body, reservation = some r → P (.completeKey r.scope r.key orderId code body))
    (hd : ∀ r, reservation = some r → P (.deletePendingKey r.scope r.key)) (hQ : ∀ id, Q (.releaseItinerary id)) :
    IoOnly J P Q (fun _ => True) (Orders.book app reservation order holdId) := by
  have hback : IoOnly J P Q (fun _ => True) (Orders.giveBack reservation) := by
    unfold Orders.giveBack
    split
    · exact only_pure trivial
    · refine only_bind (R := fun _ => True) ?_ (fun _ _ => only_pure trivial)
      exact (only_attempt (R := fun _ => True) (only_transact (hd _ rfl) (fun _ _ _ => trivial))).weaken
        (fun _ _ => trivial)
  unfold Orders.book
  refine only_bind (only_attempt (create_only hP)) (fun r _ => ?_)
  split
  · refine only_bind (releaseHold_only hQ) (fun _ _ => ?_)
    refine only_bind (R := fun _ => True) ?_ (fun _ _ => only_pure trivial)
    unfold Orders.complete
    split
    · exact only_pure trivial
    · refine only_bind (R := fun _ => True) ?_ (fun _ _ => only_pure trivial)
      exact only_transact (hc _ _ _ _ rfl) (fun _ _ _ => trivial)
  · exact only_bind hback (fun _ _ => only_throw _)
  · exact only_bind hback (fun _ _ => only_throw _)

lemma afterPayment_only {intent : String} {outcome : TransitionOutcome}
    (hP : ∀ orderId signer, P (.issueForOrder orderId signer)) :
    IoOnly J P Q (fun _ => True) (Orders.afterPayment intent outcome) := by
  unfold Orders.afterPayment
  split
  · exact only_throw _
  · exact only_pure trivial
  · refine only_bind (R := fun _ => True) (only_mapErr (only_query (fun _ _ _ _ => trivial))) (fun found _ => ?_)
    cases found with
    | none => exact only_pure trivial
    | some orderId =>
      refine only_bind (only_attempt (issueForOrder_only (hP orderId))) (fun r _ => ?_)
      cases r <;> exact only_pure trivial
  · exact only_pure trivial

/-- The transactions of a booking request besides the booking itself. -/
structure AroundBooking (P : Tx → Prop) : Prop where
  customer : ∀ issuer subject email, P (.upsertCustomer issuer subject email)
  insert : ∀ scope key hash, P (.insertKey scope key hash)
  select : ∀ scope key, P (.selectKey scope key)
  complete : ∀ scope key orderId code body, P (.completeKey scope key orderId code body)
  delete : ∀ scope key, P (.deletePendingKey scope key)

/-- Whatever is booked has been prepared, and its items resolved. -/
lemma createOrder_only {subject : Option Subject} {key : Option String} {req : CreateOrderRequest}
    (ha : AroundBooking P) (hQ : ∀ id, Q (.itineraryMembers id) ∧ Q (.releaseItinerary id))
    (hbooking : ∀ order wired expiresAt, QuotedOrder J app req order → LiveOrder app req order →
      Resolved J order wired → P (.createOrder order wired expiresAt)) :
    IoOnly J P Q (fun _ => True) (Orders.create app subject key req) := by
  unfold Orders.create
  simp only
  split
  · exact only_throw _
  · rename_i journeys hj
    split
    · exact only_throw _
    · refine only_bind (R := fun _ => True) ?_ (fun who _ => ?_)
      · refine only_bind (R := fun _ => True) ?_ (fun customerId _ => ?_)
        · unfold Orders.customerOf
          split
          · exact only_pure trivial
          · refine only_bind (R := fun _ => True) (only_transact (ha.customer _ _ _) (fun _ _ _ => trivial))
              (fun _ _ => ?_)
            exact only_pure trivial
        · simp only
          split
          · exact only_throw _
          · exact only_pure trivial
      · refine only_bind replayIfCompleted_only (fun r _ => ?_)
        cases r with
        | some response => exact only_pure trivial
        | none =>
          refine only_bind (prepare_only hj (fun id => (hQ id).1)) (fun order ho => ?_)
          have hbook : ∀ reservation, IoOnly J P Q (fun _ => True) (Orders.book app reservation order req.holdId) := by
            intro reservation
            exact book_only (fun wired _ hr => hbooking order wired _ ho.1 ho.2 hr)
              (fun r _ _ _ _ => ha.complete r.scope r.key _ _ _) (fun r _ => ha.delete r.scope r.key)
              (fun id => (hQ id).2)
          refine only_bind (reserve_only (fun _ _ => ha.insert _ _ _) (fun _ _ => ha.select _ _)) (fun reserved _ => ?_)
          cases reserved with
          | replay code response => exact only_pure trivial
          | held reservation => exact hbook _
          | disabled => exact hbook _

end Orders

section Claims

variable {J : World → Prop} {P : Tx → Prop} {Q : Call → Prop} {app : AppState} {tripId unitId : Uuid}
  {span : SegmentSpan}

lemma claimSeat_only (hP : P (.claimSeat tripId unitId span)) :
    IoOnly J P Q (fun _ => True) (InventoryStore.claimSeat tripId unitId span) := by
  refine only_bind (R := fun _ => True) (only_transact hP (fun _ _ _ => trivial)) (fun n _ => ?_)
  split
  · exact only_pure trivial
  · exact only_query (fun _ _ _ _ => trivial)

lemma claimPool_only {qty : Int} (hP : 0 < qty → P (.claimPool tripId unitId span qty)) :
    IoOnly J P Q (fun _ => True) (InventoryStore.claimPool tripId unitId span qty) := by
  unfold InventoryStore.claimPool
  split
  · exact only_pure trivial
  · rename_i hq
    refine only_bind (R := fun _ => True) (only_transact (hP (not_le.mp hq)) (fun _ _ _ => trivial)) (fun n _ => ?_)
    split
    · exact only_pure trivial
    · exact only_query (fun _ _ _ _ => trivial)

lemma createClaim_only {req : ClaimRequest} :
    IoOnly J (Runs J app (.createClaim tripId req)) (Calls (.createClaim tripId req)) (fun _ => True)
      (Reservations.createClaim app tripId req) := by
  unfold Reservations.createClaim
  refine only_bind (only_mapErr resolveTarget_only) (fun r hr => ?_)
  cases r with
  | none => exact only_throw _
  | some target =>
    have hfrom : ClaimFrom J tripId req target.unitId target.span := ⟨target, hr target rfl, rfl, rfl⟩
    refine only_bind (R := fun _ => True) ?_ (fun _ _ => ?_)
    · unfold Reservations.checkHold
      split
      · exact only_pure trivial
      · split
        · rename_i holdId _ _
          have hq : Calls (.createClaim tripId req) (.itineraryMembers holdId) := trivial
          refine only_bind (R := fun _ => True) (only_call hq (fun _ => trivial)) (fun b _ => ?_)
          split
          · split
            · exact only_pure trivial
            · exact only_throw _
          · exact only_throw _
          · exact only_pure trivial
        · exact only_pure trivial
    · refine only_bind (R := fun _ => True) ?_ (fun o _ => ?_)
      · unfold Reservations.claimTarget
        split
        · exact only_mapErr (claimSeat_only ⟨rfl, hfrom⟩)
        · split
          · exact only_throw _
          · exact only_mapErr (claimPool_only (fun hq => ⟨hq, rfl, hfrom⟩))
      · cases o with
        | claimed =>
          refine only_bind (releaseHold_only (fun _ => trivial)) (fun _ _ => ?_)
          exact only_pure trivial
        | conflict => exact only_throw _
        | notFound => exact only_throw _

end Claims

/-- Every request stays within its transactions, calls and answers. -/
theorem handler_only (J : World → Prop) (app : AppState) (i : Request) :
    (Request.handler app i).Only J (Runs J app i) (Calls i) (Answers app i) := by
  have hquiet : ∀ {α : Type} {x : Handler α} {f : α → Response}, (∀ a, Answers app i (.ok (f a))) →
      (∀ e, Answers app i (.error e)) → IoOnly J (Runs J app i) (Calls i) (fun _ => True) x →
      (x.answer f).Only J (Runs J app i) (Calls i) (Answers app i) := by
    intro α x f hf he hx
    refine Prog.only_bind hx (fun r _ => ?_)
    cases r with
    | ok a => exact Prog.only_ret (hf a)
    | error e => exact Prog.only_ret (he e)
  cases i with
  | createQuote req =>
    refine Prog.only_bind createQuote_only (fun r hr => Prog.only_ret ?_)
    cases r with
    | ok a => exact (hr a rfl).1
    | error e => trivial
  | createOrder subject key req =>
    refine hquiet (fun _ => trivial) (fun _ => trivial) (createOrder_only ?_ (fun _ => ⟨trivial, trivial⟩) ?_)
    · exact ⟨fun _ _ _ => trivial, fun _ _ _ => trivial, fun _ _ => trivial, fun _ _ _ _ _ => trivial,
        fun _ _ => trivial⟩
    · exact fun _ _ _ hquoted _ hresolved => ⟨hresolved, hquoted⟩
  | requestPayment orderId =>
    refine hquiet (fun _ => trivial) (fun _ => trivial) ?_
    refine only_bind (R := fun _ => True) (only_mapErr (only_query (fun _ _ _ _ => trivial))) (fun r _ => ?_)
    cases r with
    | none => exact only_throw _
    | some record =>
      have hq : Calls (.requestPayment orderId) (.createIntent orderId record.totalMinor record.currency) := rfl
      refine only_bind (R := fun _ => True) (only_call hq (fun _ => trivial)) (fun b _ => ?_)
      split
      · refine only_bind (R := fun _ => True) (only_mapErr (only_transact rfl (fun _ _ _ => trivial))) (fun o _ => ?_)
        cases o with
        | applied status => exact only_pure trivial
        | noOp current => exact only_throw _
        | notFound => exact only_throw _
      · exact only_throw _
      · exact only_throw _
  | paymentWebhook signature keyError body =>
    refine hquiet (fun _ => trivial) (fun _ => trivial) ?_
    have happly : ∀ intent succeeded, IoOnly J (Runs J app (.paymentWebhook signature keyError body))
        (Calls (.paymentWebhook signature keyError body)) (fun _ => True)
        (Handler.store (OrderStore.applyPaymentResult intent succeeded) >>= Orders.afterPayment intent) := by
      intro intent succeeded
      refine only_bind (R := fun _ => True) (only_mapErr ?_) (fun o _ => ?_)
      · refine only_bind (R := fun _ => True) (only_query (fun _ _ _ _ => trivial)) (fun found _ => ?_)
        cases found with
        | none => exact only_pure trivial
        | some orderId => exact only_transact trivial (fun _ _ _ => trivial)
      · exact afterPayment_only (fun _ _ => trivial)
    unfold Orders.paymentWebhook
    split
    · exact only_throw _
    · split
      · exact only_throw _
      · exact only_pure trivial
      · exact happly _ _
      · exact happly _ _
  | cancelOrder orderId =>
    refine hquiet (fun _ => trivial) (fun _ => trivial) ?_
    refine only_bind (R := fun _ => True) (only_mapErr (only_transact rfl (fun _ _ _ => trivial))) (fun o _ => ?_)
    cases o with
    | applied status => exact only_pure trivial
    | noOp current => exact only_throw _
    | notFound => exact only_throw _
  | issueTickets orderId =>
    exact hquiet (fun _ => trivial) (fun _ => trivial) (only_mapErr (issueForOrder_only (fun _ => rfl)))
  | syncScans deviceId scans =>
    refine hquiet (fun _ => trivial) (fun _ => trivial) ?_
    have hscans : ∀ rest, IoOnly J (Runs J app (.syncScans deviceId scans)) (Calls (.syncScans deviceId scans))
        (fun _ => True) (Tickets.syncScans deviceId rest) := by
      intro rest
      induction rest with
      | nil => exact only_pure trivial
      | cons scan rest ih =>
        refine only_bind (R := fun _ => True) (only_mapErr (only_transact trivial (fun _ _ _ => trivial))) (fun _ _ => ?_)
        refine only_bind ih (fun _ _ => ?_)
        exact only_pure trivial
    unfold Tickets.sync
    split
    · exact only_throw _
    · split
      · exact only_throw _
      · exact hscans _
  | refundOrder orderId =>
    refine hquiet (fun _ => trivial) (fun _ => trivial) ?_
    refine only_bind (R := fun r => ∀ row : OrderRow, r = some row → row.id = orderId)
      (only_handlerQuery (fun w _ row hr => Lib.Table.find?_key hr)) (fun r hr => ?_)
    cases r with
    | none => exact only_throw _
    | some row =>
      refine only_bind (refundMoney_only (fun _ _ => hr row rfl)) (fun o _ => ?_)
      cases o with
      | error e => exact only_throw _
      | ok _ =>
        refine only_bind (R := fun _ => True) (only_mapErr (only_transact rfl (fun _ _ _ => trivial))) (fun o _ => ?_)
        cases o with
        | applied status =>
          refine only_bind (R := fun _ => True) (only_transact trivial (fun _ _ _ => trivial)) (fun _ _ => ?_)
          exact only_pure trivial
        | noOp current => exact only_throw _
        | notFound => exact only_throw _
  | cancelTrip tripId =>
    refine hquiet (fun _ => trivial) (fun _ => trivial) ?_
    refine only_bind (R := fun _ => True) (only_transact rfl (fun _ _ _ => trivial)) (fun n _ => ?_)
    split
    · exact only_throw _
    · refine only_bind (only_mapErr (settleCancelledTrips_only (fun _ => trivial) (fun _ => trivial)
        (fun _ _ _ => trivial))) (fun stats _ => ?_)
      refine only_bind (R := fun _ => True) (only_transact trivial (fun _ _ _ => trivial)) (fun _ _ => ?_)
      exact only_pure trivial
  | expireDue =>
    refine hquiet (fun _ => trivial) (fun _ => trivial) (only_mapErr ?_)
    refine only_bind (R := fun _ => True) (only_query (fun _ _ _ _ => trivial)) (fun due _ => ?_)
    exact expireAll_only (fun _ => trivial)
  | settleCancelledTrips limit =>
    exact hquiet (fun _ => trivial) (fun _ => trivial)
      (only_mapErr (settleCancelledTrips_only (fun _ => trivial) (fun _ => trivial) (fun _ _ _ => trivial)))
  | storeCreate order =>
    exact hquiet (fun _ => trivial) (fun _ => trivial) (only_mapErr (create_only (fun wired _ hr => ⟨rfl, hr⟩)))
  | claimSeat tripId unitId span =>
    exact hquiet (fun _ => trivial) (fun _ => trivial) (only_mapErr (claimSeat_only rfl))
  | claimPool tripId unitId span qty =>
    exact hquiet (fun _ => trivial) (fun _ => trivial) (only_mapErr (claimPool_only (fun hq => ⟨hq, rfl⟩)))
  | createClaim tripId req => exact hquiet (fun _ => trivial) (fun _ => trivial) createClaim_only

/-- Handlers that see one network run sound transactions only. -/
lemma Runs.sound {app : AppState} {units : Lib.Table CapacityUnitRow.id} {i : Request} {t : Tx}
    (h : Runs (fun w => w.db.capacityUnits = units) app i t) : Sound units t := by
  have hres : ∀ order wired, Resolved (fun w => w.db.capacityUnits = units) order wired →
      ∀ w ∈ wired, (w.target.kind = .seat → ∃ index, w.slot = some index ∧ index < order.passengers.length) ∧
        ∃ cu, units.find? w.target.unitId = some cu ∧ cu.code = w.item.unitCode := by
    intro order wired hr w hw
    obtain ⟨⟨v, hv, ht⟩, hwire⟩ := hr.2 w hw
    obtain ⟨-, -, hslot⟩ := wireItem_ok hwire
    refine ⟨fun hk => ?_, ?_⟩
    · obtain ⟨index, hs, hlt, -⟩ := hslot hk
      exact ⟨index, hs, hlt⟩
    · obtain ⟨cu, hm, hc, hid⟩ := resolveTarget_unit ht
      rw [hv] at hm
      exact ⟨cu, by rw [← hid]; exact Lib.Table.find?_of_mem hm, hc⟩
  cases t with
  | createOrder order wired expiresAt =>
    cases i <;> simp only [Runs] at h
    · exact hres _ _ h.1
    · obtain ⟨rfl, h⟩ := h
      exact hres _ _ h
  | claimPool tripId unitId span qty =>
    cases i <;> simp only [Runs] at h
    · exact h.1
    · exact h.1
  | _ => trivial

end Lulan.Proofs
