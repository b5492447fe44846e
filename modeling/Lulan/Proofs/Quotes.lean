import Lulan.Proofs.Bookings

/-!
# Orders at quoted prices

An order that presents a quote is checked line by line against it. The check looks from the
order to the quote only, so the order is the quoted one when nothing was left out.
-/

namespace Lulan.Proofs

open Lulan Lulan.Db Lib

section Token

variable {app : AppState} {now : Timestamp} {token quote : QuoteToken}

/-- The encoding of a token can be read back, and its separator does not occur in it. -/
structure Decodes (app : AppState) (token : QuoteToken) : Prop where
  decode : app.decode (app.encode token) = some token
  separated : '.' ∉ (app.encode token).toList

lemma verify_sign (hd : Decodes app token) (h : Quotes.verify app now (Quotes.sign app token) = some quote) :
    quote = token := by
  have hspan : (Quotes.sign app token).toList.span (fun c => c ≠ '.') =
      ((app.encode token).toList, '.' :: (app.tag (app.encode token)).toList) := by
    have hall : ∀ c ∈ (app.encode token).toList, decide (c ≠ '.') = true :=
      fun c hc => decide_eq_true (fun he => hd.separated (he ▸ hc))
    simp only [Quotes.sign, String.toList_append, List.append_assoc, List.span_eq_takeWhile_dropWhile]
    rw [List.takeWhile_append_of_pos hall, List.dropWhile_append_of_pos hall]
    simp
  unfold Quotes.verify at h
  rw [hspan] at h
  simp only [String.ofList_toList, hd.decode] at h
  split_ifs at h
  cases h
  rfl

end Token

section Units

/-- Vessels keep their units and trips their vessel. -/
structure SameFleet (db₀ : Db) (s : World) : Prop where
  units : s.db.capacityUnits = db₀.capacityUnits
  trips : ∀ k, (s.db.trips.find? k).map TripRow.resourceId = (db₀.trips.find? k).map TripRow.resourceId

variable {db₀ : Db} {v v' : World} {tripId : Uuid} {unitCode origin destination origin' destination' : String}
  {target target' : ClaimTarget}

lemma resolveTarget_found (h : resolveTarget v tripId unitCode origin destination = .ok (some target)) :
    ∃ t cu, v.db.trips.find? tripId = some t ∧ v.db.capacityUnits.rows.find? (fun cu =>
        decide (cu.resourceId = t.resourceId) && decide (cu.code = unitCode)) = some cu ∧
      target.unitId = cu.id ∧ target.kind = cu.kind := by
  unfold resolveTarget at h
  split at h
  · cases h
  · rename_i t ht
    split at h
    · cases h
    · rename_i cu hcu
      split_ifs at h
      split at h
      · cases h
      · simp only at h
        split_ifs at h
        cases h
        exact ⟨t, cu, ht, hcu, rfl, rfl⟩

lemma resolveTarget_same (hv : SameFleet db₀ v) (hv' : SameFleet db₀ v')
    (h : resolveTarget v tripId unitCode origin destination = .ok (some target))
    (h' : resolveTarget v' tripId unitCode origin' destination' = .ok (some target')) :
    target.unitId = target'.unitId ∧ target.kind = target'.kind := by
  obtain ⟨t, cu, ht, hcu, hid, hkind⟩ := resolveTarget_found h
  obtain ⟨t', cu', ht', hcu', hid', hkind'⟩ := resolveTarget_found h'
  have hres : t.resourceId = t'.resourceId := by
    have hmap := (hv.trips tripId).trans (hv'.trips tripId).symm
    rw [ht, ht'] at hmap
    exact Option.some.inj hmap
  rw [hv.units, hres] at hcu
  rw [hv'.units, hcu] at hcu'
  cases hcu'
  exact ⟨hid.trans hid'.symm, hkind.trans hkind'.symm⟩

end Units

section Items

variable {db₀ : Db} {token : QuoteToken} {order : NewOrder} {wired : List WiredItem}
  {flat : List (Uuid × OrderItemRequest)}

/-- What an item buys: a unit of a trip for a leg, how many of it, and for whom. -/
structure Purchase where
  tripId : Uuid
  unitCode : String
  origin : String
  destination : String
  quantity : Int
  passengerType : Option String
deriving DecidableEq

/-- The purchase of an ordered item; a seat is for the passenger it is wired to. -/
def purchaseOf (passengers : List NewPassenger) (w : WiredItem) : Purchase where
  tripId := w.item.tripId
  unitCode := w.item.unitCode
  origin := w.item.origin
  destination := w.item.destination
  quantity := w.item.quantity
  passengerType := if w.target.kind = .seat then
    w.slot.bind (fun index => (passengers[index]?).map (fun p => p.passengerType.asStr)) else none

/-- The purchase of a quoted item. -/
def quotedPurchase (q : QuoteTokenItem) : Purchase :=
  ⟨q.tripId, q.unitCode, q.origin, q.destination, q.quantity, q.passengerType⟩

lemma seatPassengerType_eq {passengers : List NewPassenger} {item : OrderItemRequest} {w : WiredItem} {index : Nat}
    (hslot : w.slot = some index)
    (hi : item.passenger.or (if passengers.length = 1 then some 0 else none) = some index) :
    Orders.seatPassengerType passengers item =
      w.slot.bind (fun index => (passengers[index]?).map (fun p => p.passengerType.asStr)) := by
  unfold Orders.seatPassengerType
  rw [hi, hslot]
  rfl

/-- The quoted item that sells a purchase. -/
def quotedItem (token : QuoteToken) (buy : Purchase) : Option QuoteTokenItem :=
  token.items.find? (fun q => decide (quotedPurchase q = buy))

lemma quotes_eq (tripId : Uuid) (item : OrderItemRequest) (quantity : Int) (passengerType : Option String) :
    Orders.quotes tripId item quantity passengerType = fun q => decide (quotedPurchase q =
      ⟨tripId, item.unitCode, item.origin, item.destination, quantity, passengerType⟩) := by
  funext q
  simp [Orders.quotes, quotedPurchase, Bool.decide_and, Bool.and_assoc]

lemma purchaseOf_quoted {x : Uuid × OrderItemRequest} {w : WiredItem}
    (hx : ItemFrom (SameFleet db₀) token order.passengers x w.item)
    (hw : ResolvedFrom (SameFleet db₀) w.item.tripId w.item.unitCode w.item.origin w.item.destination w.target)
    (hwire : wireItem order.passengers w.item w.target = .ok w) :
    ∃ q, quotedItem token (purchaseOf order.passengers w) = some q ∧ q.priceMinor = w.item.priceMinor := by
  obtain ⟨target, q, ⟨v, hv, hres⟩, hfind, hitem⟩ := hx
  obtain ⟨v', hv', hres'⟩ := hw
  rw [hitem] at hres'
  have hkind : target.kind = w.target.kind := (resolveTarget_same hv hv' hres hres').2
  refine ⟨q, ?_, by rw [hitem]⟩
  have hptype : (purchaseOf order.passengers w).passengerType =
      if target.kind = .seat then Orders.seatPassengerType order.passengers x.2 else none := by
    rw [hkind, purchaseOf]
    by_cases hseat : w.target.kind = .seat
    · obtain ⟨-, -, hslot⟩ := wireItem_ok hwire
      obtain ⟨index, hslot, -, hindex⟩ := hslot hseat
      rw [hitem] at hindex
      rw [if_pos hseat, if_pos hseat, seatPassengerType_eq hslot hindex]
    · rw [if_neg hseat, if_neg hseat]
  have hbuy : purchaseOf order.passengers w = ⟨x.1, x.2.unitCode, x.2.origin, x.2.destination, x.2.quantity.getD 1,
      if target.kind = .seat then Orders.seatPassengerType order.passengers x.2 else none⟩ := by
    rw [← hptype, purchaseOf, hitem]
  rw [quotes_eq] at hfind
  rw [quotedItem, hbuy]
  exact hfind

/-- Every item of an order is covered by a quoted one, and costs what that one does. -/
lemma wired_quoted (hflat : List.Forall₂ (ItemFrom (SameFleet db₀) token order.passengers) flat order.items)
    (hres : Resolved (SameFleet db₀) order wired) : ∀ w ∈ wired,
      ∃ q, quotedItem token (purchaseOf order.passengers w) = some q ∧ q.priceMinor = w.item.priceMinor := by
  obtain ⟨hmap, hall⟩ := hres
  intro w hw
  have hmem : w.item ∈ order.items := hmap ▸ List.mem_map_of_mem hw
  obtain ⟨i, hi, he⟩ := List.getElem_of_mem hmem
  have hx := hflat.get (hflat.length_eq ▸ hi) hi
  rw [List.get_eq_getElem, List.get_eq_getElem, he] at hx
  exact purchaseOf_quoted hx (hall w hw).1 (hall w hw).2

lemma exists_quoted (hflat : List.Forall₂ (ItemFrom (SameFleet db₀) token order.passengers) flat order.items)
    (hres : Resolved (SameFleet db₀) order wired) :
    ∃ qs : List QuoteTokenItem, qs ⊆ token.items ∧
      qs.map quotedPurchase = wired.map (purchaseOf order.passengers) ∧
      qs.map QuoteTokenItem.priceMinor = order.items.map NewOrderItem.priceMinor := by
  have hfrom := wired_quoted hflat hres
  rw [← hres.1, List.map_map]
  clear hres hflat
  induction wired with
  | nil => exact ⟨[], List.nil_subset _, rfl, rfl⟩
  | cons w rest ih =>
    obtain ⟨qs, hsub, hbuys, hprices⟩ := ih (fun y hy => hfrom y (List.mem_cons_of_mem _ hy))
    obtain ⟨q, hq, hprice⟩ := hfrom w List.mem_cons_self
    have hbuy : quotedPurchase q = purchaseOf order.passengers w := by simpa using List.find?_some hq
    exact ⟨q :: qs, List.cons_subset.mpr ⟨List.mem_of_find?_eq_some hq, hsub⟩,
      by rw [List.map_cons, hbuy, hbuys, List.map_cons],
      by rw [List.map_cons, hprice, hprices, List.map_cons]; rfl⟩

lemma purchases_nodup (hres : Resolved (SameFleet db₀) order wired) (hapart : (wired.map cellOf).Nodup) :
    (wired.map (purchaseOf order.passengers)).Nodup := by
  apply List.Nodup.map_on _ hapart.of_map
  intro x hx y hy he
  obtain ⟨⟨v, hv, hresx⟩, -⟩ := hres.2 x hx
  obtain ⟨⟨v', hv', hresy⟩, -⟩ := hres.2 y hy
  have htrip : x.item.tripId = y.item.tripId := congrArg Purchase.tripId he
  have hcode : x.item.unitCode = y.item.unitCode := congrArg Purchase.unitCode he
  rw [htrip, hcode] at hresx
  have hunit := (resolveTarget_same hv hv' hresx hresy).1
  exact List.inj_on_of_nodup_map hapart hx hy (Prod.ext htrip hunit)

/-- The order buys everything in the quote exactly when it has as many items; it then pays the
quoted prices. -/
lemma items_perm_iff (hflat : List.Forall₂ (ItemFrom (SameFleet db₀) token order.passengers) flat order.items)
    (hres : Resolved (SameFleet db₀) order wired) (hapart : (wired.map cellOf).Nodup) :
    ((wired.map (purchaseOf order.passengers)).Perm (token.items.map quotedPurchase) ↔
      flat.length = token.items.length) ∧
    (flat.length = token.items.length →
      (order.items.map NewOrderItem.priceMinor).sum = (token.items.map QuoteTokenItem.priceMinor).sum) := by
  obtain ⟨qs, hsub, hbuys, hprices⟩ := exists_quoted hflat hres
  have hnodup : qs.Nodup := by
    have h := purchases_nodup hres hapart
    rw [← hbuys] at h
    exact h.of_map
  have hlen : qs.length = flat.length := by
    rw [hflat.length_eq, ← hres.1, List.length_map, ← List.length_map (f := quotedPurchase), hbuys,
      List.length_map]
  have hperm : flat.length = token.items.length → qs.Perm token.items := by
    intro h
    exact (List.subperm_of_subset hnodup hsub).perm_of_length_le (by rw [hlen, h])
  constructor
  · rw [← hbuys]
    constructor
    · intro h
      rw [← hlen, ← List.length_map (f := quotedPurchase), h.length_eq, List.length_map]
    · exact fun h => (hperm h).map _
  · intro h
    rw [← hprices]
    exact ((hperm h).map _).sum_eq

end Items

section AddOns

variable {token : QuoteToken} {order : NewOrder} {lines : List AncillaryLine} {catalog : List AncillaryRow}
  {trips : List Uuid} {priced : List PricedAncillary}

/-- The line an add-on of an order was asked for with. -/
def lineOf (a : NewOrderAncillary) : AncillaryLine := ⟨a.code, a.tripId, a.passengerIndex, a.quantity⟩

/-- What the quote locks a line at. -/
def lockedTotal (token : QuoteToken) (line : AncillaryLine) : Int :=
  ((token.ancillaries.find? (fun q => decide (q.line = line))).map QuoteTokenAncillary.totalMinor).getD 0

lemma lockLine_eq_ok {p : PricedAncillary} {a : NewOrderAncillary}
    (hp : Pricing.priceLine catalog trips p.line = .ok p) (h : Orders.lockLine token.ancillaries p = .ok a) :
    lineOf a = p.line ∧ a.totalMinor = lockedTotal token p.line := by
  obtain ⟨-, row, hrow, he⟩ := priceLine_eq_ok hp
  have hcode : row.code = p.line.code := by simpa using List.find?_some hrow
  have hrowp : p.ancillary = row := by rw [he]
  unfold Orders.lockLine at h
  unfold lockedTotal
  split at h
  · cases h
  · rename_i locked hlocked
    cases h
    rw [hlocked]
    refine ⟨?_, rfl⟩
    simp only [lineOf, Orders.PricedAncillary.toOrder, hrowp, hcode]

lemma ancillaryLines_quoted (hprice : lines.mapM (Pricing.priceLine catalog trips) = .ok priced)
    (h : Orders.ancillaryLines (some token.ancillaries) priced = .ok order.ancillaries) :
    token.ancillaries.length = lines.length ∧ order.ancillaries.map lineOf = lines ∧
      order.ancillaries.map NewOrderAncillary.totalMinor = lines.map (lockedTotal token) := by
  obtain ⟨hlines, -⟩ := priceLines_same hprice
  have hpriced : ∀ p ∈ priced, Pricing.priceLine catalog trips p.line = .ok p :=
    fun p hp => priceLine_of_mem hprice hp
  unfold Orders.ancillaryLines at h
  simp only at h
  split_ifs at h with hlen
  have hlocked := mapM_eq_ok.mp h
  refine ⟨?_, ?_⟩
  · rw [not_not.mp hlen, ← hlines, List.length_map]
  · rw [← hlines]
    clear hlines hprice h hlen
    generalize order.ancillaries = as at hlocked ⊢
    induction hlocked with
    | nil => exact ⟨rfl, rfl⟩
    | cons hfirst _ ih =>
      obtain ⟨hline, htotal⟩ := lockLine_eq_ok (hpriced _ List.mem_cons_self) hfirst
      obtain ⟨hrest, htotals⟩ := ih (fun p hp => hpriced p (List.mem_cons_of_mem _ hp))
      simp only [List.map_cons, hline, hrest, htotal, htotals, and_self]

/-- The order has the quoted add-ons exactly when it repeats none of them more often than the quote;
it then pays the quoted totals. -/
lemma addOns_perm_iff (hprice : lines.mapM (Pricing.priceLine catalog trips) = .ok priced)
    (h : Orders.ancillaryLines (some token.ancillaries) priced = .ok order.ancillaries)
    (hsame : ∀ a ∈ token.ancillaries, ∀ b ∈ token.ancillaries, a.line = b.line → a.totalMinor = b.totalMinor) :
    ((order.ancillaries.map lineOf).Perm (token.ancillaries.map QuoteTokenAncillary.line) ↔
      ∀ l ∈ lines, lines.count l ≤ (token.ancillaries.map QuoteTokenAncillary.line).count l) ∧
    ((order.ancillaries.map lineOf).Perm (token.ancillaries.map QuoteTokenAncillary.line) →
      (order.ancillaries.map NewOrderAncillary.totalMinor).sum =
        (token.ancillaries.map QuoteTokenAncillary.totalMinor).sum) := by
  obtain ⟨hlen, hlines, htotals⟩ := ancillaryLines_quoted hprice h
  rw [hlines, htotals]
  constructor
  · rw [← List.subperm_ext_iff]
    constructor
    · exact fun hp => hp.subperm
    · exact fun hs => hs.perm_of_length_le (by rw [List.length_map, hlen])
  · intro hp
    have hlocked : (token.ancillaries.map QuoteTokenAncillary.line).map (lockedTotal token) =
        token.ancillaries.map QuoteTokenAncillary.totalMinor := by
      rw [List.map_map]
      apply List.map_congr_left
      intro a ha
      have hfound : (token.ancillaries.find? (fun q => decide (q.line = a.line))).isSome := by
        rw [List.find?_isSome]
        exact ⟨a, ha, decide_eq_true rfl⟩
      obtain ⟨b, hb⟩ := Option.isSome_iff_exists.mp hfound
      have hline : b.line = a.line := by simpa using List.find?_some hb
      simp only [Function.comp_apply, lockedTotal, hb, Option.map_some, Option.getD_some]
      exact hsame b (List.mem_of_find?_eq_some hb) a ha hline
    rw [← hlocked]
    exact (hp.map _).sum_eq

end AddOns

section Run

variable {app : AppState} {w : Oracle} {t : Tx} {s : World} {db₀ : Db}

lemma Effect.units {now : Timestamp} {db db' : Db} {res : TxResult} (he : Effect w now db t res db') :
    db'.capacityUnits = db.capacityUnits := by
  have hrelease : ∀ (mid : Db) (orderId : Uuid),
      (mid.releaseOrderItems orderId).2.capacityUnits = mid.capacityUnits := by
    intro mid orderId
    rw [releaseOrderItems_frame]
  cases he with
  | quiet frame _ _ => exact frame.capacityUnits
  | booked hb =>
    obtain ⟨_, _, _, _, _, _, _, -, -, -, -, hclaims, -, -, rfl⟩ := hb
    obtain ⟨-, hframe⟩ := claimItems_frame hclaims
    rw [hframe]
  | seatSold _ => rfl
  | poolSold _ => rfl
  | requested _ ha => exact ha.capacityUnits
  | captured _ ha => exact ha.capacityUnits
  | declined _ ha => exact ha.capacityUnits
  | exited _ _ _ ha => exact (hrelease _ _).trans ha.capacityUnits
  | refunded _ _ ha => exact (hrelease _ _).trans ha.capacityUnits
  | issued _ hi ha => exact ha.capacityUnits.trans hi.frame.capacityUnits
  | boarded _ _ => rfl
  | lastBoarded _ _ _ _ ha => exact ha.capacityUnits

lemma SameFleet.run (h : SameFleet db₀ s) : SameFleet db₀ (t.run w s).2 := by
  have he := (run_effect t w s).1
  refine ⟨he.units.trans h.units, fun k => ?_⟩
  rw [← h.trips k]
  rcases he.schedule with hs | ⟨tripId, -, -, hs⟩
  · rw [hs]
  · rw [hs, cancelTrip, Lib.Table.find?_update, Option.map_map]
    congr 1
    funext trip
    simp only [Function.comp_apply]
    split <;> rfl

/-- What a booking that committed records of its order. -/
structure Made (order : NewOrder) (wired : List WiredItem) (record : OrderRecord) : Prop where
  currency : record.currency = order.currency
  total : record.totalMinor = order.totalMinor
  apart : (wired.map cellOf).Nodup

lemma made_of_run {order : NewOrder} {wired : List WiredItem} {expiresAt : Timestamp} {record : OrderRecord}
    (h : ((Tx.createOrder order wired expiresAt).run w s).1 = .created record) : Made order wired record := by
  rcases createOrder_run w s order wired expiresAt with ⟨record', db', -, hc, hrun⟩ | ⟨-, hne, -⟩
  · rw [hrun] at h
    cases h
    obtain ⟨_, _, _, _, _, _, _, -, -, -, rfl, hclaims, -, -, -⟩ := createOrder_booked hc
    rw [claimItems_batch] at hclaims
    exact ⟨rfl, rfl, ((claimItem_exclusive.batch_ok_iff _ _).mp ⟨_, hclaims⟩).2⟩
  · exact absurd h (hne record)

/-- Every booking of a history is on record as it was made. -/
def AllMade (h : List Event) : Prop :=
  ∀ (pid : Nat) (i : Request) (order : NewOrder) (wired : List WiredItem) (expiresAt : Timestamp)
    (record : OrderRecord), .commit pid i (.createOrder order wired expiresAt) (.created record) ∈ h →
      Made order wired record

lemma allMade {c : Conf Request World Tx TxResult Call Reply Answer} (hc : (site app).Reachable (Site.init s) c) :
    AllMade c.trace := by
  refine Site.store_invariant (S := site app) (J := fun _ => True) (P := fun _ _ => True)
    (I := fun _ h => AllMade h) ?_ ?_ (fun _ _ _ => trivial) (fun _ _ _ h => h) ?_ ?_ hc
  · intro i
    exact Prog.only_mono (handler_only _ app i) (fun _ _ => trivial) (fun _ _ => trivial) (fun _ _ => trivial)
  · exact fun _ _ _ _ _ _ hm => absurd hm List.not_mem_nil
  · intro s h ev hev hI pid i order wired expiresAt record hm
    rcases List.mem_append.mp hm with hm | hm
    · exact hI pid i order wired expiresAt record hm
    · exact absurd (List.mem_singleton.mp hm).symm (hev _ _ _ _)
  · intro s h pid' i' t w _ hI pid i order wired expiresAt record hm
    rcases List.mem_append.mp hm with hm | hm
    · exact hI pid i order wired expiresAt record hm
    · have he := List.mem_singleton.mp hm
      simp only [Ev.commit.injEq] at he
      obtain ⟨-, -, rfl, hr⟩ := he
      exact made_of_run hr.symm

/-- The items a request asks for. -/
def requestedItems (req : CreateOrderRequest) : List (Uuid × OrderItemRequest) :=
  ((Orders.journeysOf req).toOption.map Orders.flatten).getD []

/-- The order is the quoted one, at the quoted price. -/
structure Honoured (token : QuoteToken) (order : NewOrder) (wired : List WiredItem) (record : OrderRecord) :
    Prop where
  items : (wired.map (purchaseOf order.passengers)).Perm (token.items.map quotedPurchase)
  addOns : (order.ancillaries.map lineOf).Perm (token.ancillaries.map QuoteTokenAncillary.line)
  currency : record.currency = token.currency
  total : record.totalMinor = token.totalMinor

/-- Whoever orders with a quote gets what was quoted at its price, if and only if as many items are
ordered as were quoted and no add-on is repeated more often than in the quote. -/
theorem quote_honoured_iff {c : LockConf Request World Tx TxResult Call Reply Answer Uuid LockRead LockRead}
    (hc : Reaches app s c) {asked pid : Nat} {quoteReq : QuoteRequest} {response : QuoteResponse}
    (hquote : .answer asked (.createQuote quoteReq) (.ok (.quote response)) ∈ c.trace)
    (hd : Decodes app (tokenOf response)) {subject : Option Subject} {key : Option String}
    {req : CreateOrderRequest} (ht : req.quoteToken = some response.quoteToken) {order : NewOrder}
    {wired : List WiredItem} {expiresAt : Timestamp} {record : OrderRecord}
    (horder : .commit pid (.createOrder subject key req) (.createOrder order wired expiresAt)
      (.created record) ∈ c.trace) :
    Honoured (tokenOf response) order wired record ↔
      (requestedItems req).length = (tokenOf response).items.length ∧
        ∀ l ∈ req.ancillaries, req.ancillaries.count l ≤
          ((tokenOf response).ancillaries.map QuoteTokenAncillary.line).count l := by
  have hatomic := (rowLocks app).reachable_atomic hc
  obtain ⟨-, hcommits, -, hanswers⟩ := Site.events_of_only
    (fun i => handler_only (SameFleet s.db) app i) ⟨rfl, fun _ => rfl⟩ (fun _ _ h => ⟨h.units, h.trips⟩)
    (fun _ _ _ _ _ h => h.run) hatomic
  obtain ⟨hsigned, htotal, hsame⟩ := hanswers _ _ _ hquote
  obtain ⟨hres, hquoted⟩ := hcommits _ _ _ _ horder
  obtain ⟨hcurrency, hsum, hapart⟩ := allMade hatomic _ _ _ _ _ _ horder
  obtain ⟨now, quote, journeys, priced, catalog, hverify, hcur, hjourneys, hflat, hprice, hlines⟩ := hquoted _ ht
  rw [hsigned] at hverify
  have htoken := verify_sign hd hverify
  subst htoken
  obtain ⟨hitems, hprices⟩ := items_perm_iff hflat hres hapart
  obtain ⟨haddOns, htotals⟩ := addOns_perm_iff hprice hlines hsame
  have hasked : requestedItems req = Orders.flatten journeys := by
    rw [requestedItems, hjourneys]
    rfl
  rw [hasked]
  constructor
  · exact fun h => ⟨hitems.mp h.items, haddOns.mp h.addOns⟩
  · rintro ⟨hlen, hcount⟩
    refine ⟨hitems.mpr hlen, haddOns.mpr hcount, hcurrency.trans hcur, ?_⟩
    rw [hsum, htotal, NewOrder.totalMinor, hprices hlen, htotals (haddOns.mpr hcount)]

end Run

section Harbour

/-- The harbour with a tariff. -/
def tariffs : World :=
  { harbour with db := { harbour.db with fareRules := ⟨[⟨1, true, "rules", 0⟩], by decide⟩ } }

/-- The quote for a seat to the last island and back, with the discount for both ways. -/
def roundTripQuote : QuoteResponse where
  currency := "PHP"
  journeyCount := 2
  isRoundTrip := true
  items := [⟨1, "1A", "CEB", "ORM", 0, 2, 1, some "adult", ⟨"PHP", 1000, [], 800⟩⟩,
    ⟨2, "1A", "ORM", "CEB", 0, 2, 1, some "adult", ⟨"PHP", 1000, [], 800⟩⟩]
  ancillaries := []
  totalMinor := 1600
  expiresAt := 300
  quoteToken := "quote.quote"

/-- A deployment that has signed this quote. -/
def counter : AppState := { sandbox with decode := fun _ => some (tokenOf roundTripQuote) }

lemma counter_decodes : Decodes counter (tokenOf roundTripQuote) := ⟨rfl, by decide⟩

/-- Ana orders some legs at the quoted price. -/
def withQuote (journeys : List OrderJourneyRequest) : CreateOrderRequest where
  tripId := none
  items := none
  journeys := some journeys
  passengers := [⟨"Ana", "adult", none⟩]
  guestContact := some "ana@example.com"
  quoteToken := some "quote.quote"
  promoCode := none
  holdId := none
  ancillaries := []

def outbound : OrderJourneyRequest := ⟨1, [⟨"1A", "CEB", "ORM", none, some 0⟩]⟩

def homeward : OrderJourneyRequest := ⟨2, [⟨"1A", "ORM", "CEB", none, some 0⟩]⟩

def askQuote : QuoteRequest where
  tripId := none
  items := none
  journeys := some [⟨1, [⟨"1A", "CEB", "ORM", none, some "adult"⟩]⟩,
    ⟨2, [⟨"1A", "ORM", "CEB", none, some "adult"⟩]⟩]
  promoCode := none
  ancillaries := []

/-- The quote is asked for, and an order presents it. -/
def quoteRun (journeys : List OrderJourneyRequest) (reads : Nat) : List (LockAct Request Reply Oracle Nat) :=
  [.arrive (.createQuote askQuote), .read 0 true, .read 0 true, .read 0 true, .peek 0, .read 0 true, .read 0 true,
    .peek 0, .read 0 true, .read 0 true, .peek 0, .answer 0, .arrive (.createOrder none none (withQuote journeys)),
    .peek 2] ++ List.replicate reads (.read 2 true) ++ [.peek 2, .short 2 (drawn 100)]

/-- The booking an event commits. -/
def bookingOf : Event → Option (Request × NewOrder × List WiredItem × Timestamp × OrderRecord)
  | .commit _ i (.createOrder order wired expiresAt) (.created record) => some (i, order, wired, expiresAt, record)
  | _ => none

lemma bookingOf_eq_some {ev : Event} {i : Request} {order : NewOrder} {wired : List WiredItem}
    {expiresAt : Timestamp} {record : OrderRecord} (h : bookingOf ev = some (i, order, wired, expiresAt, record)) :
    ∃ pid, ev = .commit pid i (.createOrder order wired expiresAt) (.created record) := by
  unfold bookingOf at h
  split at h
  · cases h
    exact ⟨_, rfl⟩
  · cases h

lemma booking_at {β : Type} {h : List Event} {k : Nat} {i : Request}
    (f : NewOrder → List WiredItem → OrderRecord → β) {b : β}
    (hk : (h[k]?.bind bookingOf).map (fun x => (x.1, f x.2.1 x.2.2.1 x.2.2.2.2)) = some (i, b)) :
    ∃ pid order wired expiresAt record,
      .commit pid i (.createOrder order wired expiresAt) (.created record) ∈ h ∧ f order wired record = b := by
  obtain ⟨⟨i', order, wired, expiresAt, record⟩, hbind, hx⟩ := Option.map_eq_some_iff.mp hk
  obtain ⟨rfl, hb⟩ := Prod.mk.inj hx
  obtain ⟨ev, hev, hof⟩ := Option.bind_eq_some_iff.mp hbind
  obtain ⟨pid, rfl⟩ := bookingOf_eq_some hof
  exact ⟨pid, order, wired, expiresAt, record, List.mem_of_getElem? hev, hb⟩

/-- How a booking with a quote ends: the quote was given, and the order is made. -/
lemma quoteRun_books {β : Type} (app : AppState) (response : QuoteResponse) (journeys : List OrderJourneyRequest)
    (reads : Nat) (f : NewOrder → List WiredItem → OrderRecord → β) (b : β)
    (h : ((rowLocks app).exec (RowLocks.init tariffs) (quoteRun journeys reads)).map (fun c =>
      (c.trace[1]?, (c.trace[3]?.bind bookingOf).map (fun x => (x.1, f x.2.1 x.2.2.1 x.2.2.2.2)))) =
      some (some (.answer 0 (.createQuote askQuote) (.ok (.quote response))),
        some (.createOrder none none (withQuote journeys), b))) :
    ∃ c pid order wired expiresAt record, Reaches app tariffs c ∧
      .answer 0 (.createQuote askQuote) (.ok (.quote response)) ∈ c.trace ∧
      .commit pid (.createOrder none none (withQuote journeys)) (.createOrder order wired expiresAt)
        (.created record) ∈ c.trace ∧ f order wired record = b := by
  obtain ⟨c, hc, hend⟩ := Option.map_eq_some_iff.mp h
  obtain ⟨hquote, hbooked⟩ := Prod.mk.inj hend
  obtain ⟨pid, order, wired, expiresAt, record, horder, hb⟩ := booking_at f hbooked
  exact ⟨c, pid, order, wired, expiresAt, record, RowLocks.reachable_of_exec hc, List.mem_of_getElem? hquote,
    horder, hb⟩

/-- One way of the round trip, at the round trip's price. -/
theorem one_leg_at_round_trip_price : ¬ ∀ (app : AppState) (s : World)
    (c : LockConf Request World Tx TxResult Call Reply Answer Uuid LockRead LockRead) (asked pid : Nat)
    (quoteReq : QuoteRequest) (response : QuoteResponse) (subject : Option Subject) (key : Option String)
    (req : CreateOrderRequest) (order : NewOrder) (wired : List WiredItem) (expiresAt : Timestamp)
    (record : OrderRecord), Reaches app s c →
    .answer asked (.createQuote quoteReq) (.ok (.quote response)) ∈ c.trace → Decodes app (tokenOf response) →
    req.quoteToken = some response.quoteToken →
    .commit pid (.createOrder subject key req) (.createOrder order wired expiresAt) (.created record) ∈ c.trace →
    Honoured (tokenOf response) order wired record := by
  intro hclaim
  obtain ⟨c, pid, order, wired, expiresAt, record, hc, hquote, horder, hlen⟩ :=
    quoteRun_books counter roundTripQuote [outbound] 2 (fun _ wired _ => wired.length) 1 (by decide)
  have hperm := (hclaim counter tariffs c 0 pid askQuote roundTripQuote none none _ order wired expiresAt record hc
    hquote counter_decodes rfl horder).items.length_eq
  rw [List.length_map, List.length_map, hlen] at hperm
  cases hperm

/-- Both ways, as quoted. -/
theorem quote_honoured_iff_harbour : ∃ c pid order wired expiresAt record, Reaches counter tariffs c ∧
    .commit pid (.createOrder none none (withQuote [outbound, homeward])) (.createOrder order wired expiresAt)
      (.created record) ∈ c.trace ∧ Honoured (tokenOf roundTripQuote) order wired record := by
  obtain ⟨c, pid, order, wired, expiresAt, record, hc, hquote, horder, -⟩ :=
    quoteRun_books counter roundTripQuote [outbound, homeward] 4 (fun _ wired _ => wired.length) 2 (by decide)
  exact ⟨c, pid, order, wired, expiresAt, record, hc, horder,
    (quote_honoured_iff hc hquote counter_decodes rfl horder).mpr ⟨rfl, by simp [withQuote]⟩⟩

end Harbour

end Lulan.Proofs
