import Lulan.Proofs.Quotes
import Lulan.Proofs.Tickets

/-!
# What an order is charged for

An order pays for as many units as the pricing engine was asked for, in the currency it
answered in. A seat is one unit whatever was asked for, and a quote is in the currency of
its first item.
-/

namespace Lulan.Proofs

open Lulan Lulan.Db Lib

attribute [local irreducible] Prog.Only

section Prices

variable {app : AppState} {db₀ : Db} {req : CreateOrderRequest} {order : NewOrder} {wired : List WiredItem}

/-- A booking without a quote is at live prices. -/
def Pays (app : AppState) : Request → Tx → Prop
  | .createOrder _ _ req, .createOrder order _ _ => LiveOrder app req order
  | _, _ => True

/-- A quote is at the prices of the engine. -/
def Shows (app : AppState) : Request → Answer → Prop
  | .createQuote _, .ok (.quote response) => EngineQuote app response
  | _, _ => True

lemma handler_charges (app : AppState) (i : Request) :
    (Request.handler app i).Only (fun _ => True) (Pays app i) (fun _ => True) (Shows app i) := by
  cases i with
  | createQuote req =>
    refine Prog.only_bind createQuote_only (fun r hr => Prog.only_ret ?_)
    cases r with
    | ok a => exact (hr a rfl).2
    | error e => trivial
  | createOrder subject key req =>
    refine Prog.only_bind (createOrder_only ?_ (fun _ => ⟨trivial, trivial⟩) ?_) (fun r _ => Prog.only_ret ?_)
    · exact ⟨fun _ _ _ => trivial, fun _ _ _ => trivial, fun _ _ => trivial, fun _ _ _ _ _ => trivial,
        fun _ _ => trivial⟩
    · exact fun _ _ _ _ hlive _ => hlive
    · cases r <;> trivial
  | _ => exact Prog.only_mono (handler_only _ app _) (fun _ _ => trivial) (fun _ _ => trivial) (fun _ _ => trivial)

/-- Where an order has its prices from: a quote whose token was given out, or the engine itself. -/
inductive Source (app : AppState) (h : List Event) : Option String → Option QuoteResponse → Prop where
  | live : Source app h none none
  | quoted {asked : Nat} {quoteReq : QuoteRequest} {response : QuoteResponse}
      (answered : .answer asked (.createQuote quoteReq) (.ok (.quote response)) ∈ h)
      (decodes : Decodes app (tokenOf response)) : Source app h (some response.quoteToken) (some response)

/-- The line of a quote that sells a purchase. -/
def quotedLine (response : QuoteResponse) (buy : Purchase) : Option PricedItem :=
  response.items.find? (fun p => decide (quotedPurchase p.toToken = buy))

/-- The line is for the unit and the leg that are ordered. -/
structure SameLeg (o : NewOrderItem) (p : PricedItem) : Prop where
  trip : o.tripId = p.tripId
  unit : o.unitCode = p.unitCode
  origin : o.origin = p.origin
  destination : o.destination = p.destination

/-- The lines an order was priced with: what the engine answered for each item, and with a quote
the lines of the quote. -/
structure PricedBy (app : AppState) (source : Option QuoteResponse) (order : NewOrder) (wired : List WiredItem)
    (line : WiredItem → PricedItem) : Prop where
  engine : ∀ x ∈ wired, EnginePriced app (line x)
  leg : ∀ x ∈ wired, SameLeg x.item (line x)
  price : ∀ x ∈ wired, x.item.priceMinor = (line x).quote.totalMinor
  quantity : ∀ x ∈ wired, x.item.quantity = (line x).quantity
  quoted : ∀ response, source = some response →
    ∀ x ∈ wired, quotedLine response (purchaseOf order.passengers x) = some (line x)

/-- What an ordered item is taken from. -/
structure Requested (y : Uuid × OrderItemRequest) (o : NewOrderItem) : Prop where
  trip : o.tripId = y.1
  unit : o.unitCode = y.2.unitCode
  quantity : o.quantity = y.2.quantity.getD 1

lemma LiveItem.requested {currency : String} {y : Uuid × OrderItemRequest} {o : NewOrderItem}
    (h : LiveItem app currency y o) : Requested y o := by
  obtain ⟨p, -, -, ⟨htrip, hunit, hquantity⟩, rfl⟩ := h
  exact ⟨htrip, hunit, hquantity⟩

lemma ItemFrom.requested {J : World → Prop} {token : QuoteToken} {passengers : List NewPassenger}
    {y : Uuid × OrderItemRequest} {o : NewOrderItem} (h : ItemFrom J token passengers y o) : Requested y o := by
  obtain ⟨_, _, -, -, rfl⟩ := h
  exact ⟨rfl, rfl, rfl⟩

lemma wired_requested {journeys : List (Uuid × List OrderItemRequest)}
    {R : Uuid × OrderItemRequest → NewOrderItem → Prop} (hj : Orders.journeysOf req = .ok journeys)
    (h : List.Forall₂ R (Orders.flatten journeys) order.items) (hR : ∀ y o, R y o → Requested y o)
    (hmap : wired.map WiredItem.item = order.items) :
    List.Forall₂ (fun y x => Requested y (WiredItem.item x)) (requestedItems req) wired := by
  have hasked : requestedItems req = Orders.flatten journeys := by
    rw [requestedItems, hj]
    rfl
  rw [hasked, ← List.forall₂_map_right_iff, hmap]
  exact h.imp hR

lemma live_lines {currency : String} {flat : List (Uuid × OrderItemRequest)}
    (hmap : wired.map WiredItem.item = order.items) (h : List.Forall₂ (LiveItem app currency) flat order.items) :
    ∀ x ∈ wired, ∃ p, EnginePriced app p ∧ SameLeg x.item p ∧ x.item.priceMinor = p.quote.totalMinor ∧
      x.item.quantity = p.quantity ∧ p.quote.currency = currency := by
  rw [← hmap, List.forall₂_map_right_iff] at h
  intro x hx
  obtain ⟨i, hi, rfl⟩ := List.getElem_of_mem hx
  obtain ⟨p, hp, hcurrency, -, hitem⟩ := h.get (h.length_eq ▸ hi) hi
  rw [List.get_eq_getElem] at hitem
  have hleg : SameLeg (wired[i]).item p := ⟨by rw [hitem], by rw [hitem], by rw [hitem], by rw [hitem]⟩
  exact ⟨p, hp, hleg, by rw [hitem], by rw [hitem], hcurrency⟩

lemma quoted_lines {response : QuoteResponse} {flat : List (Uuid × OrderItemRequest)}
    (hflat : List.Forall₂ (ItemFrom (SameFleet db₀) (tokenOf response) order.passengers) flat order.items)
    (hres : Resolved (SameFleet db₀) order wired) (hq : EngineQuote app response) :
    ∀ x ∈ wired, ∃ p, quotedLine response (purchaseOf order.passengers x) = some p ∧ EnginePriced app p ∧
      SameLeg x.item p ∧ x.item.priceMinor = p.quote.totalMinor ∧ x.item.quantity = p.quantity := by
  intro x hx
  obtain ⟨q, hfind, hprice⟩ := wired_quoted hflat hres x hx
  unfold quotedItem tokenOf at hfind
  simp only [List.find?_map] at hfind
  obtain ⟨p, hp, rfl⟩ := Option.map_eq_some_iff.mp hfind
  have hbuy : quotedPurchase p.toToken = purchaseOf order.passengers x := by simpa using List.find?_some hp
  have hleg : SameLeg x.item p := ⟨(congrArg Purchase.tripId hbuy).symm, (congrArg Purchase.unitCode hbuy).symm,
    (congrArg Purchase.origin hbuy).symm, (congrArg Purchase.destination hbuy).symm⟩
  exact ⟨p, hp, hq.items p (List.mem_of_find?_eq_some hp), hleg, hprice.symm,
    (congrArg Purchase.quantity hbuy).symm⟩

end Prices

section Booked

variable {app : AppState} {s : World}
  {c : LockConf Request World Tx TxResult Call Reply Answer Uuid LockRead LockRead} {pid : Nat} {subject : Option Subject} {key : Option String} {req : CreateOrderRequest} {order : NewOrder}
  {wired : List WiredItem} {expiresAt : Timestamp} {record : OrderRecord} {source : Option QuoteResponse}

/-- Every booked order was priced by the engine, directly or in the quote it presents, for what was
asked for; a quote is in the currency of its first line. -/
lemma exists_lines (hc : Reaches app s c) (hsource : Source app c.trace req.quoteToken source)
    (horder : .commit pid (.createOrder subject key req) (.createOrder order wired expiresAt)
      (.created record) ∈ c.trace) :
    Resolved (SameFleet s.db) order wired ∧
    List.Forall₂ (fun y x => Requested y (WiredItem.item x)) (requestedItems req) wired ∧
    ∃ line, PricedBy app source order wired line ∧
      (source = none → ∀ x ∈ wired, (line x).quote.currency = record.currency) ∧
      ∀ response, source = some response →
        record.currency = (response.items.head?.map (fun p => p.quote.currency)).getD "" := by
  have hatomic := (rowLocks app).reachable_atomic hc
  obtain ⟨-, hcommits, -, hanswers⟩ := Site.events_of_only
    (fun i => handler_only (SameFleet s.db) app i) ⟨rfl, fun _ => rfl⟩ (fun _ _ h => ⟨h.units, h.trips⟩)
    (fun _ _ _ _ _ h => h.run) hatomic
  obtain ⟨-, hpays, -, hshows⟩ := Site.events_of_only (fun i => handler_charges app i) trivial
    (fun _ _ _ => trivial) (fun _ _ _ _ _ _ => trivial) hatomic
  obtain ⟨hres, hquoted⟩ := hcommits _ _ _ _ horder
  have hlive : LiveOrder app req order := hpays _ _ _ _ horder
  have hcurrency := (allMade hatomic _ _ _ _ _ _ horder).currency
  have hany : Nonempty PricedItem := ⟨⟨0, "", "", "", 0, 0, 0, none, ⟨"", 0, [], 0⟩⟩⟩
  generalize htoken : req.quoteToken = token at hsource
  cases hsource with
  | live =>
    obtain ⟨journeys, hj, hflat⟩ := hlive htoken
    refine ⟨hres, wired_requested hj hflat (fun _ _ h => h.requested) hres.1, ?_⟩
    choose! line hpriced hleg hprice hquantity hcur using live_lines hres.1 hflat
    refine ⟨line, ⟨hpriced, hleg, hprice, hquantity, ?_⟩, ?_, ?_⟩
    · exact fun _ h => (by cases h)
    · intro _ x hx
      rw [hcur x hx, hcurrency]
    · exact fun _ h => (by cases h)
  | @quoted asked quoteReq response answered decodes =>
    obtain ⟨now, quote, journeys, priced, catalog, hverify, hcur, hj, hflat, -, -⟩ := hquoted _ htoken
    have hengine : EngineQuote app response := hshows _ _ _ answered
    rw [(hanswers _ _ _ answered).1] at hverify
    have hquote := verify_sign decodes hverify
    subst hquote
    refine ⟨hres, wired_requested hj hflat (fun _ _ h => h.requested) hres.1, ?_⟩
    choose! line hline hpriced hleg hprice hquantity using quoted_lines hflat hres hengine
    refine ⟨line, ⟨hpriced, hleg, hprice, hquantity, ?_⟩, ?_, ?_⟩
    · rintro _ ⟨⟩
      exact hline
    · exact fun h => (by cases h)
    · rintro _ ⟨⟩
      rw [hcurrency, hcur, ← hengine.currency]
      rfl

/-- An order is in one currency, the one it is recorded in, unless it buys lines of a quote that
were priced in another than the first line of the quote. -/
theorem single_currency_iff (hc : Reaches app s c) (hsource : Source app c.trace req.quoteToken source)
    (horder : .commit pid (.createOrder subject key req) (.createOrder order wired expiresAt)
      (.created record) ∈ c.trace) :
    ∃ line, PricedBy app source order wired line ∧
      ((∀ x ∈ wired, (line x).quote.currency = record.currency) ↔
        ∀ response, source = some response → ∀ x ∈ wired, ∀ p,
          quotedLine response (purchaseOf order.passengers x) = some p →
          response.items.head?.map (fun first => first.quote.currency) = some p.quote.currency) := by
  obtain ⟨-, -, line, hline, hlive, hquoted⟩ := exists_lines hc hsource horder
  refine ⟨line, hline, ?_⟩
  cases hs : source with
  | none => exact ⟨fun _ _ h => (by cases h), fun _ => hlive hs⟩
  | some response =>
    have hfirst : ∀ x ∈ wired, ∃ first, response.items.head? = some first ∧
        record.currency = first.quote.currency := by
      intro x hx
      have hmem := List.mem_of_find?_eq_some (hline.quoted response hs x hx)
      cases hitems : response.items with
      | nil =>
        rw [hitems] at hmem
        cases hmem
      | cons first rest =>
        refine ⟨first, rfl, ?_⟩
        rw [hquoted response hs, hitems]
        rfl
    constructor
    · rintro h _ ⟨⟩ x hx p hp
      obtain ⟨first, hhead, hcurrency⟩ := hfirst x hx
      rw [hline.quoted response hs x hx] at hp
      cases hp
      rw [hhead, Option.map_some, h x hx, hcurrency]
    · intro h x hx
      obtain ⟨first, hhead, hcurrency⟩ := hfirst x hx
      have hsame := h response rfl x hx _ (hline.quoted response hs x hx)
      rw [hhead, Option.map_some, Option.some.injEq] at hsame
      rw [hcurrency, hsame]

end Booked

section Units

variable {app : AppState} {s : World} {db db' : Db} {order : NewOrder} {wired : List WiredItem}
  {expiresAt : Timestamp} {record : OrderRecord}

/-- A booking is on record: it went through, and its order has the items it wired. -/
structure OnRecord (db : Db) (order : NewOrder) (wired : List WiredItem) (expiresAt : Timestamp)
    (record : OrderRecord) : Prop where
  went : ∃ w before, ((Tx.createOrder order wired expiresAt).run w before).1 = .created record
  order : (db.orders.find? record.orderId).isSome = true
  items : itemsOf db record.orderId = wired.map (itemRow record.orderId record.passengers)

lemma OnRecord.mono (h : OnRecord db order wired expiresAt record) (hg : Grows db db') :
    OnRecord db' order wired expiresAt record :=
  ⟨h.went, hg.orders _ h.order, (hg.items _ h.order).trans h.items⟩

lemma Booked.onRecord {ids : BookingIds} {now : Timestamp} (hi : ItemsOk db)
    (hb : Booked ids now expiresAt order wired record db db') :
    (db'.orders.find? record.orderId).isSome = true ∧
      itemsOf db' record.orderId = wired.map (itemRow record.orderId record.passengers) := by
  have hnew : db.orders.find? ids.orderId = none := (Lib.Table.insert_eq_some.mp hb.orders).1
  have hfind := Lib.Table.find?_insert hb.orders ids.orderId
  obtain ⟨orders, passengers, _, _, _, records, db₁, hord, -, -, rfl, hclaims, -, -, rfl⟩ := hb
  obtain ⟨hitems, -⟩ := claimItems_frame hclaims
  constructor
  · simp only [recordOf]
    rw [hfind]
    simp [newOrderRow]
  · unfold itemsOf Lib.Table.select
    simp only [hitems, List.filter_append]
    rw [List.filter_eq_nil_iff.mpr, List.nil_append, List.filter_eq_self.mpr]
    · rfl
    · intro r hr
      obtain ⟨w, -, rfl⟩ := List.mem_map.mp hr
      exact decide_eq_true rfl
    · intro r hr he
      have hsome := (hi r hr).refs.order
      have hid : r.orderId = ids.orderId := of_decide_eq_true he
      rw [hid, hnew] at hsome
      cases hsome

lemma onRecord_of_run {w : Oracle} {v : World} (hi : ItemsOk v.db)
    (h : ((Tx.createOrder order wired expiresAt).run w v).1 = .created record) :
    OnRecord ((Tx.createOrder order wired expiresAt).run w v).2.db order wired expiresAt record := by
  have hwent := h
  rcases createOrder_run w v order wired expiresAt with ⟨record', db', -, hc, hrun⟩ | ⟨-, hne, -⟩
  · rw [hrun] at h ⊢
    cases h
    obtain ⟨ho, hitems⟩ := (createOrder_booked hc).onRecord hi
    exact ⟨⟨w, v, hwent⟩, ho, hitems⟩
  · exact absurd h (hne record)

/-- Every booking of a history is on record. -/
def AllOnRecord (db : Db) (h : List Event) : Prop :=
  ∀ (pid : Nat) (i : Request) (order : NewOrder) (wired : List WiredItem) (expiresAt : Timestamp)
    (record : OrderRecord), .commit pid i (.createOrder order wired expiresAt) (.created record) ∈ h →
      OnRecord db order wired expiresAt record

lemma allOnRecord {c : Conf Request World Tx TxResult Call Reply Answer} (hs : s.db.Seeded)
    (hc : (site app).Reachable (Site.init s) c) : AllOnRecord c.store.db c.trace := by
  have hall : RunOk s.db c.store c.trace ∧ AllOnRecord c.store.db c.trace := by
    refine Site.store_invariant (S := site app) (J := fun v => v.db.capacityUnits = s.db.capacityUnits)
      (P := Runs (fun v => v.db.capacityUnits = s.db.capacityUnits) app)
      (I := fun v h => RunOk s.db v h ∧ AllOnRecord v.db h) ?_ ?_ ?_ ?_ ?_ ?_ hc
    · intro i
      exact Prog.only_mono (handler_only _ app i) (fun _ h => h) (fun _ _ => trivial) (fun _ _ => trivial)
    · exact ⟨runOk_of_seeded hs, fun _ _ _ _ _ _ hm => absurd hm List.not_mem_nil⟩
    · exact fun _ _ h => h.1.units
    · exact fun _ _ _ h => ⟨⟨h.1.units, h.1.balanced, h.1.released, h.1.streams, h.1.items, h.1.issuance⟩, h.2⟩
    · intro v h ev hev hI
      refine ⟨hI.1.quiet hev, fun pid i order wired expiresAt record hm => ?_⟩
      rcases List.mem_append.mp hm with hm | hm
      · exact hI.2 pid i order wired expiresAt record hm
      · exact absurd (List.mem_singleton.mp hm).symm (hev _ _ _ _)
    · intro v h pid i t w hP hI
      refine ⟨hI.1.commit hs pid i w hP.sound, fun pid' i' order wired expiresAt record hm => ?_⟩
      have hsound : Sound v.db.capacityUnits t := by
        rw [hI.1.units]
        exact hP.sound
      rcases List.mem_append.mp hm with hm | hm
      · exact (hI.2 pid' i' order wired expiresAt record hm).mono
          (hI.1.items.step (run_effect t w v).1 hsound).1
      · have he := List.mem_singleton.mp hm
        simp only [Ev.commit.injEq] at he
        obtain ⟨-, -, rfl, hr⟩ := he
        exact onRecord_of_run hI.1.items hr.symm
  exact hall.2

/-- The cell an item claims a span of. -/
def unitCell (x : WiredItem) : Cell := (x.target.kind, cellOf x)

lemma createOrder_takes {w : Oracle} {before : World}
    (h : ((Tx.createOrder order wired expiresAt).run w before).1 = .created record) {x : WiredItem}
    (hx : x ∈ wired) :
    x.target.span.fromIndex < width before.db (unitCell x) ∧
    ∀ i, x.target.span.covers i = true → i < width before.db (unitCell x) →
      used ((Tx.createOrder order wired expiresAt).run w before).2.db (unitCell x) i =
        used before.db (unitCell x) i + if x.target.kind = .seat then 1 else max x.item.quantity 1 := by
  have hapart := (made_of_run h).apart
  rcases createOrder_run w before order wired expiresAt with ⟨record', db', -, hc, hrun⟩ | ⟨-, hne, -⟩
  · rw [hrun]
    obtain ⟨orders, passengers, _, _, _, records, db₁, -, -, -, -, hclaims, -, -, rfl⟩ := createOrder_booked hc
    obtain ⟨-, hused, henters⟩ := claimItems_claims hclaims
    have hcell : ∀ y, (itemClaim (itemRow w.bookingIds.orderId records y)).cell = unitCell y := fun _ => rfl
    have hcells : (((wired.map (itemRow w.bookingIds.orderId records)).map itemClaim).map Claim.cell).Nodup := by
      apply List.Nodup.of_map Prod.snd
      rw [List.map_map, List.map_map, List.map_map]
      exact hapart
    refine ⟨henters x hx, fun i hi hlt => ?_⟩
    obtain ⟨hlo, hhi⟩ := (SegmentSpan.covers_iff _ i).mp hi
    have hmem : itemClaim (itemRow w.bookingIds.orderId records x) ∈
        (wired.map (itemRow w.bookingIds.orderId records)).map itemClaim :=
      List.mem_map_of_mem (List.mem_map_of_mem hx)
    have hload := load_of_nodup hcells hmem i
    rw [Claim.on_of_covers hlo hhi, hcell] at hload
    refine (hused (unitCell x) i hlt).trans ?_
    rw [hload]
    congr 1
    simp only [itemClaim, spanClaim, itemRow]
    cases x.target.kind <;> rfl
  · exact absurd h (hne record)

/-- How many tickets of an order are for a unit of a trip. -/
def ticketCount (db : Db) (orderId : Uuid) (k : Uuid × Uuid) : Nat :=
  ((ticketsOf db orderId).map (fun t => (t.tripId, t.unitId))).count k

/-- Among rows of different keys, a key is repeated as often as its own row says. -/
lemma count_replicates {α κ : Type} [BEq κ] [LawfulBEq κ] {l : List α} {key : α → κ} (h : (l.map key).Nodup)
    (p : α → Bool) (n : α → Nat) {a : α} (ha : a ∈ l) :
    ((l.filter p).flatMap (fun r => List.replicate (n r) (key r))).count (key a) = if p a then n a else 0 := by
  induction l with
  | nil => cases ha
  | cons b l ih =>
    rw [List.map_cons, List.nodup_cons] at h
    rcases List.mem_cons.mp ha with rfl | ha
    · have hzero : ((l.filter p).flatMap (fun r => List.replicate (n r) (key r))).count (key a) = 0 := by
        rw [List.count_eq_zero]
        intro hm
        obtain ⟨r, hr, hrep⟩ := List.mem_flatMap.mp hm
        rw [(List.mem_replicate.mp hrep).2] at h
        exact h.1 (List.mem_map_of_mem (List.mem_of_mem_filter hr))
      by_cases hp : p a = true
      · simp [hp, List.count_append, hzero]
      · simp [hp, hzero]
    · have hne : key b ≠ key a := fun he => h.1 (he ▸ List.mem_map_of_mem ha)
      by_cases hp : p b = true
      · simp [hp, List.count_append, List.count_replicate, hne, ih h.2 ha]
      · simp [hp, ih h.2 ha]

lemma OneEach.count {orderId : Uuid} {seats admitted : List TicketRow} (h : OneEach db orderId seats admitted)
    (hapart : ((itemsOf db orderId).map (fun r => (r.tripId, r.unitId))).Nodup) {r : OrderItemRow}
    (hr : r ∈ itemsOf db orderId) :
    ticketCount db orderId (r.tripId, r.unitId) =
      (if r.kind = .seat then 1 else 0) + if admits db r = true then r.quantity.toNat else 0 := by
  have hseats := h.seat.map (fun x => (x.2.1, x.2.2.1))
  have hadmitted := h.admission.map (fun x => (x.1, x.2.1))
  simp only [List.map_map, List.map_flatMap, List.map_replicate] at hseats hadmitted
  have hseat := count_replicates hapart (fun r => decide (r.kind = .seat)) (fun _ => 1) hr
  simp only [List.replicate_one, ← List.map_eq_flatMap, decide_eq_true_eq] at hseat
  have hadmission := count_replicates hapart (admits db) (fun r => r.quantity.toNat) hr
  rw [ticketCount, h.rows, List.map_append, List.count_append, ← hseat, ← hadmission]
  congr 1
  · exact hseats.count_eq _
  · exact hadmitted.count_eq _

/-- An item is charged for `n` units and gets as many: its booking takes that much of every segment
of its unit, and once tickets are issued that many are for it, if its unit is one to board by. -/
structure UnitsAgree (db : Db) (h : List Event) (order : NewOrder) (wired : List WiredItem) (expiresAt : Timestamp)
    (record : OrderRecord) (x : WiredItem) (n : Int) : Prop where
  claimed : ∀ w before, ((Tx.createOrder order wired expiresAt).run w before).1 = .created record →
    ∀ i, x.target.span.covers i = true → i < width before.db (unitCell x) →
      used ((Tx.createOrder order wired expiresAt).run w before).2.db (unitCell x) i =
        used before.db (unitCell x) i + n
  ticketed : record.orderId ∈ (issuedIn h).map Prod.fst →
    x.target.kind = .seat ∨ admits db (itemRow record.orderId record.passengers x) = true →
    (ticketCount db record.orderId (cellOf x) : Int) = n

/-- An item gets the units it is charged for, unless it is a seat charged for more than one. -/
lemma unitsAgree_iff {h : List Event} {v : World} (hr : RunOk db v h)
    (hon : OnRecord v.db order wired expiresAt record) (hapart : (wired.map cellOf).Nodup) {x : WiredItem} (hx : x ∈ wired) (hpos : 0 < x.item.quantity) :
    UnitsAgree v.db h order wired expiresAt record x x.item.quantity ↔
      (x.target.kind = .seat → x.item.quantity = 1) := by
  constructor
  · intro hagree hseat
    obtain ⟨w, before, hwent⟩ := hon.went
    obtain ⟨henters, htakes⟩ := createOrder_takes hwent hx
    have hfirst := x.target.span.covers_fromIndex
    have hclaimed := hagree.claimed w before hwent _ hfirst henters
    rw [htakes _ hfirst henters, if_pos hseat] at hclaimed
    omega
  · intro hone
    refine ⟨fun w before hwent i hi hlt => ?_, fun hissued hticketed => ?_⟩
    · rw [(createOrder_takes hwent hx).2 i hi hlt]
      by_cases hseat : x.target.kind = .seat
      · rw [if_pos hseat, hone hseat]
      · rw [if_neg hseat]
        omega
    · obtain ⟨⟨id, tickets⟩, hm, hid⟩ := List.mem_map.mp hissued
      cases hid
      obtain ⟨signer, _, _, hexact, -⟩ := hr.issuance.exact record.orderId tickets hm
      obtain ⟨seats, admitted, heach⟩ := hexact.oneEach
      have hrows : ((itemsOf v.db record.orderId).map (fun r => (r.tripId, r.unitId))).Nodup := by
        rw [hon.items, List.map_map]
        exact hapart
      have hmem : itemRow record.orderId record.passengers x ∈ itemsOf v.db record.orderId := by
        rw [hon.items]
        exact List.mem_map_of_mem hx
      have hcount : ticketCount v.db record.orderId (cellOf x) = _ := heach.count hrows hmem
      rw [hcount]
      have hkind : (itemRow record.orderId record.passengers x).kind = x.target.kind := rfl
      have hquantity : (itemRow record.orderId record.passengers x).quantity = max x.item.quantity 1 := rfl
      rw [hkind, hquantity]
      by_cases hseat : x.target.kind = .seat
      · have hno : admits v.db (itemRow record.orderId record.passengers x) = false := by
          simp [admits, hkind, hseat]
        rw [if_pos hseat, hno, hone hseat]
        rfl
      · rw [if_neg hseat, if_pos (hticketed.resolve_left hseat)]
        omega

/-- The kind of the unit a requested item names. -/
def unitKind (db : Db) (y : Uuid × OrderItemRequest) : Option UnitKind :=
  (db.trips.find? y.1).bind (fun t => (db.capacityUnits.rows.find? (fun cu =>
    decide (cu.resourceId = t.resourceId) && decide (cu.code = y.2.unitCode))).map CapacityUnitRow.kind)

lemma unitKind_of_resolved {db₀ : Db} {y : Uuid × OrderItemRequest} {x : WiredItem} (hy : Requested y x.item)
    (hx : ResolvedFrom (SameFleet db₀) x.item.tripId x.item.unitCode x.item.origin x.item.destination x.target) :
    unitKind db₀ y = some x.target.kind := by
  obtain ⟨v, hv, hres⟩ := hx
  obtain ⟨t, cu, ht, hcu, -, hkind⟩ := resolveTarget_found hres
  have htrip := hv.trips x.item.tripId
  rw [ht, Option.map_some] at htrip
  obtain ⟨t₀, ht₀, hresource⟩ := Option.map_eq_some_iff.mp htrip.symm
  rw [hv.units, ← hresource, hy.unit] at hcu
  rw [unitKind, ← hy.trip, ht₀, Option.bind_some, hcu, Option.map_some, hkind]

lemma forall_iff_of_forall₂ {α β : Type} {P : α → Prop} {Q : β → Prop} {l : List α} {l' : List β}
    (h : List.Forall₂ (fun a b => P a ↔ Q b) l l') : (∀ a ∈ l, P a) ↔ ∀ b ∈ l', Q b := by
  induction h with
  | nil => simp
  | cons hab _ ih => rw [List.forall_mem_cons, List.forall_mem_cons, hab, ih]

/-- Every item of an order gets as many units as it was priced for, unless a seat is asked for in
another number than one. -/
theorem units_charged_iff {c : LockConf Request World Tx TxResult Call Reply Answer Uuid LockRead LockRead}
    {pid : Nat} {subject : Option Subject} {key : Option String} {req : CreateOrderRequest}
    {source : Option QuoteResponse} (hs : s.db.Seeded) (hc : Reaches app s c)
    (hsource : Source app c.trace req.quoteToken source)
    (horder : .commit pid (.createOrder subject key req) (.createOrder order wired expiresAt)
      (.created record) ∈ c.trace) :
    ∃ line, PricedBy app source order wired line ∧
      ((∀ x ∈ wired, UnitsAgree c.store.db c.trace order wired expiresAt record x (line x).quantity) ↔
        ∀ y ∈ requestedItems req, unitKind s.db y = some .seat → y.2.quantity.getD 1 = 1) := by
  have hatomic := (rowLocks app).reachable_atomic hc
  obtain ⟨hres, hreq, line, hline, -, -⟩ := exists_lines hc hsource horder
  refine ⟨line, hline, ?_⟩
  have hon := allOnRecord hs hatomic _ _ _ _ _ _ horder
  have hapart := (allMade hatomic _ _ _ _ _ _ horder).apart
  have hmem : List.Forall₂ (fun x y => x ∈ wired ∧ Requested y (WiredItem.item x)) wired (requestedItems req) :=
    (List.forall₂_and_left _ _).mpr ⟨fun _ hx => hx, hreq.flip⟩
  apply forall_iff_of_forall₂
  refine hmem.imp (fun x y h => ?_)
  obtain ⟨hx, hy⟩ := h
  have hpos : 0 < x.item.quantity := by
    rw [hline.quantity x hx]
    exact (hline.engine x hx).positive
  rw [← hline.quantity x hx, unitsAgree_iff (hc.runOk hs) hon hapart hx hpos,
    unitKind_of_resolved hy (hres.2 x hx).1, ← hy.quantity, Option.some.injEq]

end Units

section Harbour

lemma tariffs_seeded : tariffs.db.Seeded := { harbour_seeded with }

/-- A deployment that prices by the unit. -/
def perUnit : AppState :=
  { sandbox with price := fun _ input => .ok ⟨"PHP", 1000 * input.quantity, [], 1000 * input.quantity⟩ }

/-- Ana orders a seat at live prices, any number of it. -/
def seatOrder (n : Option Int) : CreateOrderRequest :=
  { withQuote [⟨1, [⟨"1A", "CEB", "ORM", n, some 0⟩]⟩] with quoteToken := none }

def seatRun (n : Option Int) : List (LockAct Request Reply Oracle Nat) :=
  [.arrive (.createOrder none none (seatOrder n)), .read 0 true, .read 0 true, .peek 0, .read 0 true, .read 0 true,
    .read 0 true, .peek 0, .short 0 (drawn 100)]

lemma seatRun_books (n : Option Int) (m : Int)
    (h : ((rowLocks perUnit).exec (RowLocks.init tariffs) (seatRun n)).map (fun c =>
      (c.trace[1]?.bind bookingOf).map (fun x =>
        (x.1, x.2.2.1.map (fun w => (w.target.kind, w.item.quantity))))) =
      some (some (.createOrder none none (seatOrder n), [(.seat, m)]))) :
    ∃ c pid order wired expiresAt record, Reaches perUnit tariffs c ∧
      .commit pid (.createOrder none none (seatOrder n)) (.createOrder order wired expiresAt)
        (.created record) ∈ c.trace ∧ wired.map (fun w => (w.target.kind, w.item.quantity)) = [(.seat, m)] := by
  obtain ⟨c, hc, hbooked⟩ := Option.map_eq_some_iff.mp h
  obtain ⟨pid, order, wired, expiresAt, record, horder, hseat⟩ :=
    booking_at (fun _ wired _ => wired.map (fun w => (w.target.kind, w.item.quantity))) hbooked
  exact ⟨c, pid, order, wired, expiresAt, record, RowLocks.reachable_of_exec hc, horder, hseat⟩

/-- One seat, at the price of three. -/
theorem one_seat_for_three : ¬ ∀ (app : AppState) (s : World)
    (c : LockConf Request World Tx TxResult Call Reply Answer Uuid LockRead LockRead) (pid : Nat)
    (subject : Option Subject) (key : Option String) (req : CreateOrderRequest) (source : Option QuoteResponse)
    (order : NewOrder) (wired : List WiredItem) (expiresAt : Timestamp) (record : OrderRecord), s.db.Seeded →
    Reaches app s c → Source app c.trace req.quoteToken source →
    .commit pid (.createOrder subject key req) (.createOrder order wired expiresAt) (.created record) ∈ c.trace →
    ∃ line, PricedBy app source order wired line ∧
      ∀ x ∈ wired, UnitsAgree c.store.db c.trace order wired expiresAt record x (line x).quantity := by
  intro hclaim
  obtain ⟨c, pid, order, wired, expiresAt, record, hc, horder, hseats⟩ :=
    seatRun_books (some 3) 3 (by decide)
  obtain ⟨line, hline, hagree⟩ := hclaim perUnit tariffs c pid none none _ none order wired expiresAt record
    tariffs_seeded hc .live horder
  have hatomic := (rowLocks perUnit).reachable_atomic hc
  obtain ⟨x, rest, rfl, hx, -⟩ := List.map_eq_cons_iff.mp hseats
  obtain ⟨hseat, hthree⟩ := Prod.mk.inj hx
  have hmem : x ∈ x :: rest := List.mem_cons_self
  have hunits := hagree x hmem
  rw [← hline.quantity x hmem] at hunits
  have hone := (unitsAgree_iff (hc.runOk tariffs_seeded) (allOnRecord tariffs_seeded hatomic _ _ _ _ _ _ horder)
    (allMade hatomic _ _ _ _ _ _ horder).apart hmem (by rw [hthree]; decide)).mp hunits hseat
  rw [hthree] at hone
  cases hone

/-- A seat asked for without a number. -/
theorem units_charged_iff_harbour : ∃ c pid order wired expiresAt record line, Reaches perUnit tariffs c ∧
    .commit pid (.createOrder none none (seatOrder none)) (.createOrder order wired expiresAt)
      (.created record) ∈ c.trace ∧ wired.length = 1 ∧ PricedBy perUnit none order wired line ∧
    ∀ x ∈ wired, UnitsAgree c.store.db c.trace order wired expiresAt record x (line x).quantity := by
  obtain ⟨c, pid, order, wired, expiresAt, record, hc, horder, hseats⟩ := seatRun_books none 1 (by decide)
  obtain ⟨line, hline, hiff⟩ := units_charged_iff tariffs_seeded hc .live horder
  refine ⟨c, pid, order, wired, expiresAt, record, line, hc, horder, ?_, hline, hiff.mpr ?_⟩
  · simpa using congrArg List.length hseats
  · intro y hy _
    cases List.mem_singleton.mp hy
    rfl

/-- A deployment that prices later trips in another currency. -/
def twoTills : AppState :=
  { counter with
    price := fun _ input => .ok ⟨if input.daysBeforeDeparture ≤ 1 then "PHP" else "USD", 1000, [], 800⟩ }

/-- The round trip in two currencies. -/
def mixedQuote : QuoteResponse :=
  { roundTripQuote with
    items := [⟨1, "1A", "CEB", "ORM", 0, 2, 1, some "adult", ⟨"PHP", 1000, [], 800⟩⟩,
      ⟨2, "1A", "ORM", "CEB", 0, 2, 1, some "adult", ⟨"USD", 1000, [], 800⟩⟩] }

instance : DecidableEq Event := inferInstance

/-- The currencies of the lines an order buys of the mixed quote, and its own. -/
def currencies (order : NewOrder) (wired : List WiredItem) (record : OrderRecord) : List (Option String) :=
  some record.currency ::
    wired.map (fun x => (quotedLine mixedQuote (purchaseOf order.passengers x)).map (fun p => p.quote.currency))

/-- An order in pesos for a ticket priced in dollars. -/
theorem two_currencies_booked : ¬ ∀ (app : AppState) (s : World)
    (c : LockConf Request World Tx TxResult Call Reply Answer Uuid LockRead LockRead) (pid : Nat)
    (subject : Option Subject) (key : Option String) (req : CreateOrderRequest) (source : Option QuoteResponse)
    (order : NewOrder) (wired : List WiredItem) (expiresAt : Timestamp) (record : OrderRecord), Reaches app s c →
    Source app c.trace req.quoteToken source →
    .commit pid (.createOrder subject key req) (.createOrder order wired expiresAt) (.created record) ∈ c.trace →
    ∃ line, PricedBy app source order wired line ∧ ∀ x ∈ wired, (line x).quote.currency = record.currency := by
  intro hclaim
  obtain ⟨c, pid, order, wired, expiresAt, record, hc, hquote, horder, hsold⟩ :=
    quoteRun_books twoTills mixedQuote [outbound, homeward] 4 currencies
      [some "PHP", some "PHP", some "USD"] (by decide)
  obtain ⟨line, hline, hsame⟩ := hclaim twoTills tariffs c pid none none _ _ order wired expiresAt record hc
    (.quoted hquote ⟨rfl, by decide⟩) horder
  obtain ⟨hrecord, hcurrencies⟩ := List.cons.inj hsold
  have hmem : some "USD" ∈ [some "PHP", some "USD"] := by decide
  rw [← hcurrencies] at hmem
  obtain ⟨x, hx, hdollars⟩ := List.mem_map.mp hmem
  rw [hline.quoted mixedQuote rfl x hx, Option.map_some, hsame x hx, Option.some.inj hrecord] at hdollars
  exact absurd hdollars (by decide)

/-- The round trip in pesos. -/
theorem single_currency_iff_harbour : ∃ c pid order wired expiresAt record line, Reaches counter tariffs c ∧
    .commit pid (.createOrder none none (withQuote [outbound, homeward])) (.createOrder order wired expiresAt)
      (.created record) ∈ c.trace ∧ wired.length = 2 ∧
    PricedBy counter (some roundTripQuote) order wired line ∧
    ∀ x ∈ wired, (line x).quote.currency = record.currency := by
  obtain ⟨c, pid, order, wired, expiresAt, record, hc, hquote, horder, hlen⟩ :=
    quoteRun_books counter roundTripQuote [outbound, homeward] 4 (fun _ wired _ => wired.length) 2 (by decide)
  obtain ⟨line, hline, hiff⟩ := single_currency_iff hc (.quoted hquote counter_decodes) horder
  refine ⟨c, pid, order, wired, expiresAt, record, line, hc, horder, hlen, hline, hiff.mpr ?_⟩
  rintro response hresponse x hx p hp
  cases hresponse
  have hpesos : ∀ p ∈ roundTripQuote.items, p.quote.currency = "PHP" := by decide
  rw [hpesos p (List.mem_of_find?_eq_some hp)]
  rfl

end Harbour

end Lulan.Proofs
