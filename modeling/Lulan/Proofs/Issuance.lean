import Lulan.Proofs.Growth

/-!
# Ticket issuance

The tickets of an order are written once, by the step to Ticketed: one for each seat item
and one for each unit of its admission pools. Boarding and refunds change their status
and nothing else.
-/

namespace Lulan.Proofs

open Lulan Lulan.Db Lib

def ticketsOf (db : Db) (orderId : Uuid) : List TicketRow :=
  db.tickets.select (fun t => decide (t.orderId = orderId))

/-- A ticket without its boarding state. -/
def TicketRow.core (t : TicketRow) : TicketRow := { t with status := .issued, boardedAt := none }

def IssuedTicket.face (t : IssuedTicket) : IssuedTicket := { t with status := .issued }

/-- Whether an item is sold by the count and admits one holder for each unit. -/
def admits (db : Db) (r : OrderItemRow) : Bool :=
  decide (r.kind = .pool) && ((db.capacityUnits.find? r.unitId).any CapacityUnitRow.admission)

/-- A seat ticket as it is drawn: its id, its line and its passenger. -/
abbrev SeatDraw := Uuid × TicketLine × PassengerRow

/-- An admission as it is drawn: the ids of its passenger and ticket, and its line. -/
abbrev AdmissionDraw := (Uuid × Uuid) × TicketLine

def seatTicket (orderId : Uuid) (signer : TicketSigner) (l : SeatDraw) : TicketRow :=
  ticketRow orderId signer l.2.1 l.1 l.2.2.id l.2.2.fullName

def admissionTicket (orderId : Uuid) (signer : TicketSigner) (l : AdmissionDraw) : TicketRow :=
  ticketRow orderId signer l.2 l.1.2 l.1.1 (humanize l.2.item.unitCode)

/-- What an issue call returns for a row it wrote. -/
def issuedAs (t : TicketRow) : IssuedTicket :=
  ⟨t.id, t.passengerId, t.token.claims.pax, t.token.claims.unt, .issued, t.token⟩

/-- The tickets of an order are exactly those of its items. -/
structure Exact (db : Db) (orderId : Uuid) (signer : TicketSigner) (seats : List SeatDraw)
    (admitted : List AdmissionDraw) : Prop where
  rows : (ticketsOf db orderId).map TicketRow.core =
    seats.map (seatTicket orderId signer) ++ admitted.map (admissionTicket orderId signer)
  seatItems : (seats.map (fun l => l.2.1.item)).Perm ((itemsOf db orderId).filter (fun r => decide (r.kind = .seat)))
  seatHolder : ∀ l ∈ seats, l.2.1.item.passengerId = some l.2.2.id ∧ db.passengers.find? l.2.2.id = some l.2.2
  poolItems : (admitted.map (fun l => l.2.item)).Perm
    (((itemsOf db orderId).filter (admits db)).flatMap (fun r => List.replicate r.quantity.toNat r))
  bearers : (admitted.map (fun l => l.1.1)).Nodup
  bearer : ∀ l ∈ admitted, ∃ now, db.passengers.find? l.1.1 =
    some ⟨l.1.1, orderId, humanize l.2.item.unitCode, .adult, none, now⟩
  unnamed : ∀ l ∈ admitted, ∀ r ∈ db.orderItems.rows, r.passengerId ≠ some l.1.1

/-- The states an order can be in once its tickets are issued. -/
def afterIssue : OrderStatus → Bool
  | .ticketed | .boarded | .completed | .refunded => true
  | _ => false

/-- The tickets a transaction issued. -/
def issuedBy : Tx → TxResult → List (Uuid × List IssuedTicket)
  | .issueForOrder orderId _, .issued (.issued tickets) => [(orderId, tickets)]
  | _, _ => []

/-- Every order's tickets against the log of issue steps. -/
structure Issuance (db : Db) (log : List (Uuid × List IssuedTicket)) : Prop where
  once : (log.map Prod.fst).Nodup
  later : ∀ id ∈ log.map Prod.fst, ∃ cur, db.lockOrder id = some cur ∧ afterIssue cur = true
  logged : ∀ id cur, db.lockOrder id = some cur → afterIssue cur = true → cur ≠ .refunded → id ∈ log.map Prod.fst
  unissued : ∀ id, id ∉ log.map Prod.fst → ticketsOf db id = []
  exact : ∀ id tickets, (id, tickets) ∈ log → ∃ signer seats admitted, Exact db id signer seats admitted ∧
    tickets = (seats.map (seatTicket id signer) ++ admitted.map (admissionTicket id signer)).map issuedAs

section Lines

variable {db : Db} {orderId : Uuid}

/-- A join that finds every row keeps them all. -/
lemma map_filterMap_of_forall {α β : Type} {f : α → Option β} {g : β → α} {l : List α}
    (h : ∀ x ∈ l, ∃ y, f x = some y ∧ g y = x) : (l.filterMap f).map g = l := by
  induction l with
  | nil => rfl
  | cons a l ih =>
    obtain ⟨y, hy, hg⟩ := h a List.mem_cons_self
    rw [List.filterMap_cons_some hy, List.map_cons, hg, ih (fun x hx => h x (List.mem_cons_of_mem _ hx))]

lemma joinLine_of_ok {r : OrderItemRow} (h : ItemOk db r) :
    ∃ line cu, db.capacityUnits.find? r.unitId = some cu ∧ line.item = r ∧ db.joinLine r = some (line, cu) := by
  obtain ⟨cu, hcu⟩ := Option.isSome_iff_exists.mp h.refs.unit
  obtain ⟨t, ht⟩ := Option.isSome_iff_exists.mp h.refs.trip
  refine ⟨⟨r, cu.fareClass, t.departsAt⟩, cu, hcu, rfl, ?_⟩
  unfold joinLine
  rw [hcu, ht]

lemma joinSeat_of_ok {r : OrderItemRow} (h : ItemOk db r) (hk : r.kind = .seat) :
    ∃ line p, db.joinSeat r = some (line, p) ∧ line.item = r ∧ r.passengerId = some p.id ∧
      db.passengers.find? p.id = some p := by
  obtain ⟨pid, hpid⟩ := Option.isSome_iff_exists.mp (h.passenger hk)
  obtain ⟨p, hp⟩ := Option.isSome_iff_exists.mp (h.refs.passenger pid hpid)
  have hid : p.id = pid := Lib.Table.find?_key hp
  obtain ⟨line, cu, -, hitem, hline⟩ := joinLine_of_ok h
  refine ⟨line, p, ?_, hitem, by rw [hpid, hid], by rw [hid]; exact hp⟩
  unfold joinSeat
  rw [hpid, Option.bind_some, hp, hline]

lemma joinAdmission_of_ok {r : OrderItemRow} (h : ItemOk db r) (hk : r.kind = .pool) :
    (admits db r = true → ∃ line, db.joinAdmission r = some line ∧ line.item = r) ∧
    (admits db r = false → db.joinAdmission r = none) := by
  obtain ⟨line, cu, hcu, hitem, hline⟩ := joinLine_of_ok h
  unfold joinAdmission
  rw [hline]
  cases ha : cu.admission with
  | true => simp [admits, hk, hcu, ha, hitem]
  | false => simp [admits, hk, hcu, ha]

/-- The seat lines of an order are its seat items, each with its passenger. -/
lemma seatLines_items (h : ItemsOk db) :
    ((db.seatLines orderId).map (fun l => l.1.item)).Perm
      ((itemsOf db orderId).filter (fun r => decide (r.kind = .seat))) ∧
    ∀ l ∈ db.seatLines orderId, l.1.item.passengerId = some l.2.id ∧ db.passengers.find? l.2.id = some l.2 := by
  have hsel : db.orderItems.select (fun oi => decide (oi.orderId = orderId) && decide (oi.kind = .seat)) =
      (itemsOf db orderId).filter (fun r => decide (r.kind = .seat)) := by
    unfold itemsOf Lib.Table.select
    rw [List.filter_filter]
    exact List.filter_congr (fun r _ => Bool.and_comm _ _)
  have hjoin : ∀ r ∈ (itemsOf db orderId).filter (fun r => decide (r.kind = .seat)), ∃ line p,
      db.joinSeat r = some (line, p) ∧ line.item = r ∧ r.passengerId = some p.id ∧
        db.passengers.find? p.id = some p := by
    intro r hr
    obtain ⟨hr, hk⟩ := List.mem_filter.mp hr
    exact joinSeat_of_ok (h r (Lib.Table.mem_select.mp hr).1) (of_decide_eq_true hk)
  unfold seatLines
  rw [hsel]
  constructor
  · refine ((List.perm_insertionSort _ _).map _).trans ?_
    rw [map_filterMap_of_forall]
    intro r hr
    obtain ⟨line, p, hf, hitem, -, -⟩ := hjoin r hr
    exact ⟨(line, p), hf, hitem⟩
  · intro l hl
    rw [List.mem_insertionSort, List.mem_filterMap] at hl
    obtain ⟨r, hr, hl⟩ := hl
    obtain ⟨line, p, hf, hitem, hpid, hp⟩ := hjoin r hr
    rw [hf] at hl
    cases hl
    exact ⟨by rw [hitem]; exact hpid, hp⟩

/-- One admission for each unit of each admission pool item. -/
lemma admissions_items (h : ItemsOk db) :
    ((db.admissions orderId).map TicketLine.item).Perm
      (((itemsOf db orderId).filter (admits db)).flatMap (fun r => List.replicate r.quantity.toNat r)) := by
  have hlines : ((db.poolLines orderId).map TicketLine.item).Perm ((itemsOf db orderId).filter (admits db)) := by
    unfold poolLines
    refine ((List.perm_insertionSort _ _).map _).trans ?_
    have hsel : ∀ l : List OrderItemRow, (∀ r ∈ l, ItemOk db r) →
        ((l.filter (fun oi => decide (oi.orderId = orderId) && decide (oi.kind = .pool))).filterMap
          db.joinAdmission).map TicketLine.item =
        (l.filter (fun r => decide (r.orderId = orderId))).filter (admits db) := by
      intro l hl
      induction l with
      | nil => rfl
      | cons r l ih =>
        have hrest := ih (fun x hx => hl x (List.mem_cons_of_mem _ hx))
        by_cases ho : r.orderId = orderId
        · by_cases hk : r.kind = .pool
          · obtain ⟨hyes, hno⟩ := joinAdmission_of_ok (hl r List.mem_cons_self) hk
            cases ha : admits db r with
            | true =>
              obtain ⟨line, hf, hitem⟩ := hyes ha
              simp [ho, hk, hf, hitem, ha, hrest]
            | false => simp [ho, hk, hno ha, ha, hrest]
          · have ha : admits db r = false := by simp [admits, hk]
            simp [ho, hk, ha, hrest]
        · simp [ho, hrest]
    exact List.Perm.of_eq (hsel db.orderItems.rows h)
  have hmap : ∀ l : List TicketLine,
      (l.flatMap (fun line => List.replicate (max line.item.quantity 0).toNat line)).map TicketLine.item =
        (l.map TicketLine.item).flatMap (fun r => List.replicate r.quantity.toNat r) := by
    intro l
    induction l with
    | nil => rfl
    | cons line l ih =>
      have hq : (max line.item.quantity 0).toNat = line.item.quantity.toNat := by omega
      simp only [List.flatMap_cons, List.map_append, List.map_cons, List.map_replicate, ih, hq]
  unfold admissions
  rw [hmap]
  exact hlines.flatMap_right _

end Lines

section Tickets

variable {db db' : Db} {orderId : Uuid}

/-- An update of the boarding state changes no ticket. -/
lemma ticketsOf_update {p : TicketRow → Bool} {f : Lib.Assign TicketRow.id}
    (hf : ∀ t, TicketRow.core (f.set t) = TicketRow.core t) (ht : db'.tickets = db.tickets.update p f) (k : Uuid) :
    (ticketsOf db' k).map TicketRow.core = (ticketsOf db k).map TicketRow.core := by
  have hord : ∀ t, (f.set t).orderId = t.orderId := by
    intro t
    have h := congrArg TicketRow.orderId (hf t)
    exact h
  unfold ticketsOf Lib.Table.select
  rw [ht, Lib.Table.rows_update]
  induction db.tickets.rows with
  | nil => rfl
  | cons t l ih =>
    cases hp : p t <;> by_cases hk : t.orderId = k <;> simp [hp, hk, hord, hf, ih]

lemma admits_congr (h : db'.capacityUnits = db.capacityUnits) : admits db' = admits db := by
  funext r
  rw [admits, admits, h]

/-- Tickets that are exact stay exact while the database grows. -/
lemma Exact.mono {signer : TicketSigner} {seats : List SeatDraw} {admitted : List AdmissionDraw}
    (h : Exact db orderId signer seats admitted) (hg : Grows db db')
    (ho : (db.orders.find? orderId).isSome = true)
    (ht : (ticketsOf db' orderId).map TicketRow.core = (ticketsOf db orderId).map TicketRow.core) :
    Exact db' orderId signer seats admitted where
  rows := ht.trans h.rows
  seatItems := by
    rw [hg.items orderId ho]
    exact h.seatItems
  seatHolder l hl := ⟨(h.seatHolder l hl).1, hg.passengers _ _ (h.seatHolder l hl).2⟩
  poolItems := by
    rw [hg.items orderId ho, admits_congr hg.units]
    exact h.poolItems
  bearers := h.bearers
  bearer l hl := by
    obtain ⟨now, hb⟩ := h.bearer l hl
    exact ⟨now, hg.passengers _ _ hb⟩
  unnamed l hl r hr hp := by
    rcases hg.named r hr with hr | hn
    · exact h.unnamed l hl r hr hp
    · obtain ⟨now, hb⟩ := h.bearer l hl
      rw [hn _ hp] at hb
      cases hb

lemma map_snd_mapIdx {α β : Type} (l : List β) (f : Nat → α) :
    (l.mapIdx (fun i x => (f i, x))).map Prod.snd = l := by
  apply List.ext_getElem?
  intro i
  simp

/-- The issue step writes exactly the tickets of the order's items. -/
theorem IssuedInto.exact {now : Timestamp} {fresh : Nat → Uuid} {signer : TicketSigner}
    {tickets : List IssuedTicket} (h : IssuedInto now fresh signer orderId tickets db db') (hi : ItemsOk db)
    (hnone : ticketsOf db orderId = []) :
    (∃ seats admitted, Exact db' orderId signer seats admitted ∧ tickets =
      (seats.map (seatTicket orderId signer) ++ admitted.map (admissionTicket orderId signer)).map issuedAs) ∧
    ∀ k, k ≠ orderId → ticketsOf db' k = ticketsOf db k := by
  obtain ⟨db₁, seatTickets, admittedTickets, h₁, h₂, rfl⟩ := h
  obtain ⟨t₁, hrows₁, hts₁, rfl⟩ := issueSeats_eq_ok h₁
  obtain ⟨p₂, t₂, hpas, hrows₂, hts₂, rfl⟩ := issueAdmissions_eq_ok h₂
  -- reading the admissions after the seat tickets are written reads the same lines
  have hadm : Db.admissions { db with tickets := t₁ } orderId = db.admissions orderId := rfl
  rw [hadm] at hpas hrows₂ hts₂
  generalize hseats : (db.seatLines orderId).mapIdx (fun i line => (fresh (3 * i), line)) = seats at *
  generalize hadmitted : (db.admissions orderId).mapIdx
    (fun i line => ((fresh (3 * i + 1), fresh (3 * i + 2)), line)) = admitted at *
  have hseatlines : seats.map Prod.snd = db.seatLines orderId := by
    rw [← hseats]
    exact map_snd_mapIdx _ _
  have hadmlines : admitted.map Prod.snd = db.admissions orderId := by
    rw [← hadmitted]
    exact map_snd_mapIdx _ (fun i => (fresh (3 * i + 1), fresh (3 * i + 2)))
  have hrows : t₂.rows = db.tickets.rows ++
      (seats.map (seatTicket orderId signer) ++ admitted.map (admissionTicket orderId signer)) := by
    rw [hrows₂, hrows₁, List.append_assoc]
    rfl
  have hnew : ∀ t ∈ seats.map (seatTicket orderId signer) ++ admitted.map (admissionTicket orderId signer),
      t.orderId = orderId ∧ TicketRow.core t = t := by
    intro t ht
    rcases List.mem_append.mp ht with ht | ht <;> obtain ⟨l, -, rfl⟩ := List.mem_map.mp ht <;> exact ⟨rfl, rfl⟩
  obtain ⟨hitems, hholder⟩ := seatLines_items hi
  refine ⟨⟨seats, admitted, ?_, ?_⟩, ?_⟩
  · constructor
    · unfold ticketsOf Lib.Table.select at hnone ⊢
      rw [hrows, List.filter_append, hnone, List.nil_append,
        List.filter_eq_self.mpr (fun t ht => decide_eq_true (hnew t ht).1)]
      rw [List.map_congr_left (fun t ht => (hnew t ht).2), List.map_id']
    · have hmap : seats.map (fun l => l.2.1.item) = (db.seatLines orderId).map (fun l => l.1.item) := by
        rw [← hseatlines, List.map_map]
        rfl
      rw [hmap]
      exact hitems
    · intro l hl
      have hl' : l.2 ∈ db.seatLines orderId := by
        rw [← hseatlines]
        exact List.mem_map_of_mem hl
      exact ⟨(hholder l.2 hl').1, find?_of_append hpas (hholder l.2 hl').2⟩
    · have hmap : admitted.map (fun l => l.2.item) = (db.admissions orderId).map TicketLine.item := by
        rw [← hadmlines, List.map_map]
        rfl
      rw [hmap]
      exact admissions_items hi
    · have hnd := p₂.nodup
      rw [hpas, List.map_append, List.nodup_append, List.map_map] at hnd
      exact hnd.2.1
    · intro l hl
      refine ⟨now, Lib.Table.find?_eq_some.mpr ⟨?_, rfl⟩⟩
      rw [hpas]
      exact List.mem_append_right _ (List.mem_map.mpr ⟨l, hl, rfl⟩)
    · intro l hl r hr hp
      have hsome := (hi r hr).refs.passenger _ hp
      have hnone' := find?_none_of_append hpas (List.mem_map_of_mem hl)
      have hkey : db.passengers.find? l.1.1 = none := hnone'
      rw [hkey] at hsome
      cases hsome
  · rw [hts₁, hts₂, List.map_append, List.map_map, List.map_map]
    rfl
  · intro k hk
    unfold ticketsOf Lib.Table.select
    rw [hrows, List.filter_append]
    have hnil : (seats.map (seatTicket orderId signer) ++ admitted.map (admissionTicket orderId signer)).filter
        (fun t => decide (t.orderId = k)) = [] := by
      rw [List.filter_eq_nil_iff]
      intro t ht
      rw [decide_eq_true_eq, (hnew t ht).1]
      exact hk.symm
    rw [hnil, List.append_nil]

end Tickets

section Step

variable {db db' : Db} {log : List (Uuid × List IssuedTicket)}

lemma issuedBy_of_not_wins {t : Tx} {res : TxResult} (h : wins t res = false) : issuedBy t res = [] := by
  unfold issuedBy
  split
  · simp [wins] at h
  · rfl

lemma issuedBy_of_not_issued {t : Tx} {res : TxResult} (h : ∀ o, res ≠ .issued o) : issuedBy t res = [] := by
  cases res with
  | issued o => exact absurd rfl (h o)
  | _ => cases t <;> rfl

lemma issuance_of_seeded (h : db.Seeded) : Issuance db [] where
  once := List.nodup_nil
  later := by simp
  logged id cur hl := by
    obtain ⟨row, hrow, -⟩ := Option.map_eq_some_iff.mp hl
    have hm := Lib.Table.find?_mem hrow
    rw [h.orders] at hm
    cases hm
  unissued id _ := by simp [ticketsOf, Lib.Table.select, h.tickets]
  exact := by simp

lemma isSome_of_lock {orderId : Uuid} {cur : OrderStatus} (h : db.lockOrder orderId = some cur) :
    (db.orders.find? orderId).isSome = true := by
  obtain ⟨row, hrow, -⟩ := Option.map_eq_some_iff.mp h
  rw [hrow]
  rfl

lemma Advance.lockOrder {orderId seq : Nat} {event : OrderEventType} {change : Lib.Assign OrderRow.id}
    {cur next : OrderStatus} (h : Advance db db' orderId seq event change) (hl : db.lockOrder orderId = some cur)
    (hs : ∀ r, (change.set r).status = next) (k : Uuid) :
    db'.lockOrder k = if k = orderId then some next else db.lockOrder k := by
  rw [Db.lockOrder, Db.lockOrder, h.find?_orders]
  by_cases hk : k = orderId
  · obtain ⟨row, hrow, -⟩ := Option.map_eq_some_iff.mp hl
    subst hk
    rw [if_pos rfl, if_pos rfl, hrow]
    simp [hs]
  · rw [if_neg hk, if_neg hk]

/-- Where no order enters or leaves the issued states, the log stays. -/
lemma Issuance.keep (h : Issuance db log) (hg : Grows db db')
    (ht : ∀ k, (ticketsOf db' k).map TicketRow.core = (ticketsOf db k).map TicketRow.core)
    (hlater : ∀ k cur, db.lockOrder k = some cur → afterIssue cur = true →
      ∃ cur', db'.lockOrder k = some cur' ∧ afterIssue cur' = true)
    (hlogged : ∀ k cur', db'.lockOrder k = some cur' → afterIssue cur' = true → cur' ≠ .refunded →
      ∃ cur, db.lockOrder k = some cur ∧ afterIssue cur = true ∧ cur ≠ .refunded) : Issuance db' log where
  once := h.once
  later id hid := by
    obtain ⟨cur, hl, ha⟩ := h.later id hid
    exact hlater id cur hl ha
  logged id cur' hl' ha' hr' := by
    obtain ⟨cur, hl, ha, hr⟩ := hlogged id cur' hl' ha' hr'
    exact h.logged id cur hl ha hr
  unissued id hid := by
    have hnil := ht id
    rw [h.unissued id hid, List.map_nil] at hnil
    exact List.map_eq_nil_iff.mp hnil
  exact id tickets hm := by
    obtain ⟨signer, seats, admitted, hex, htk⟩ := h.exact id tickets hm
    obtain ⟨cur, hl, -⟩ := h.later id (List.mem_map_of_mem hm)
    exact ⟨signer, seats, admitted, hex.mono hg (isSome_of_lock hl) (ht id), htk⟩

/-- Lifecycle steps other than the issue step keep orders on their side of it. -/
lemma Issuance.advance {orderId seq : Nat} {event : OrderEventType} {change : Lib.Assign OrderRow.id}
    {cur next : OrderStatus} (h : Issuance db log) (ha : Advance db db' orderId seq event change)
    (hl : db.lockOrder orderId = some cur) (hs : ∀ r, (change.set r).status = next)
    (happ : apply (some cur) event = .ok next) (he : event ≠ .ticketIssued) : Issuance db' log := by
  have hlock := ha.lockOrder hl hs
  have hside : (afterIssue cur = true → afterIssue next = true) ∧
      (afterIssue next = true → next ≠ .refunded → afterIssue cur = true ∧ cur ≠ .refunded) := by
    rcases apply_cases happ with h | h | h | h | h | h | h | h | h | h <;> obtain ⟨hc, hev, rfl⟩ := h
    all_goals first
      | exact absurd hev he
      | (subst hc; exact ⟨by decide, by decide⟩)
      | (rcases hc with rfl | rfl <;> exact ⟨by decide, by decide⟩)
  refine h.keep ha.grows (fun k => by rw [ticketsOf, ticketsOf, ha.tickets]) ?_ ?_
  · intro k c hk hc
    rw [hlock]
    by_cases hkey : k = orderId
    · subst hkey
      rw [hl] at hk
      cases hk
      exact ⟨next, if_pos rfl, hside.1 hc⟩
    · exact ⟨c, by rw [if_neg hkey]; exact hk, hc⟩
  · intro k c hk hc hr
    rw [hlock] at hk
    by_cases hkey : k = orderId
    · rw [if_pos hkey] at hk
      cases hk
      subst hkey
      exact ⟨cur, hl, hside.2 hc hr⟩
    · rw [if_neg hkey] at hk
      exact ⟨c, hk, hc, hr⟩

lemma Issuance.congr (h : Issuance db log) (hg : Grows db db') (ho : db'.orders = db.orders)
    (ht : ∀ k, (ticketsOf db' k).map TicketRow.core = (ticketsOf db k).map TicketRow.core) : Issuance db' log := by
  refine h.keep hg ht (fun k cur hl ha => ⟨cur, ?_, ha⟩) (fun k cur hl ha hr => ⟨cur, ?_, ha, hr⟩)
  · rw [lockOrder_congr ho]
    exact hl
  · rw [lockOrder_congr ho] at hl
    exact hl

/-- The issue step enters the log, and only there do tickets appear. -/
lemma Issuance.issue {orderId seq : Nat} {signer : TicketSigner} {tickets : List IssuedTicket} {now : Timestamp}
    {fresh : Nat → Uuid} {mid : Db} (h : Issuance db log) (hi : ItemsOk db)
    (hl : db.lockOrder orderId = some .paid) (hin : IssuedInto now fresh signer orderId tickets db mid)
    (ha : Advance mid db' orderId seq .ticketIssued ⟨fun r => { r with status := .ticketed }, fun _ => rfl⟩) :
    Issuance db' (log ++ [(orderId, tickets)]) := by
  have hlm : mid.lockOrder orderId = some .paid := (lockOrder_congr hin.frame.orders _).trans hl
  have hlock := ha.lockOrder hlm (fun _ => rfl)
  have hout : orderId ∉ log.map Prod.fst := by
    intro hm
    obtain ⟨cur, hc, hafter⟩ := h.later orderId hm
    rw [hl] at hc
    cases hc
    cases hafter
  have hnone := h.unissued orderId hout
  obtain ⟨⟨seats, admitted, hex, htk⟩, hother⟩ := hin.exact hi hnone
  have hg := hin.grows.trans ha.grows
  have htick : ∀ k, ticketsOf db' k = ticketsOf mid k := fun k => by rw [ticketsOf, ticketsOf, ha.tickets]
  have hold : ∀ k, k ≠ orderId → db'.lockOrder k = db.lockOrder k := by
    intro k hk
    rw [hlock, if_neg hk, lockOrder_congr hin.frame.orders]
  constructor
  · rw [List.map_append, List.nodup_append]
    refine ⟨h.once, by simp, ?_⟩
    intro a hmem b hb
    rw [List.map_singleton, List.mem_singleton] at hb
    subst hb
    rintro rfl
    exact hout hmem
  · intro id hid
    by_cases hk : id = orderId
    · exact ⟨.ticketed, by rw [hlock, if_pos hk], rfl⟩
    · rw [hold id hk]
      refine h.later id ?_
      rw [List.map_append, List.mem_append] at hid
      rcases hid with hid | hid
      · exact hid
      · exact absurd (List.mem_singleton.mp hid) hk
  · intro id cur hid hafter hr
    rw [List.map_append, List.mem_append]
    by_cases hk : id = orderId
    · exact .inr (List.mem_singleton.mpr hk)
    · rw [hold id hk] at hid
      exact .inl (h.logged id cur hid hafter hr)
  · intro id hid
    rw [List.map_append, List.mem_append, not_or] at hid
    have hk : id ≠ orderId := fun hc => hid.2 (List.mem_singleton.mpr hc)
    rw [htick, hother id hk]
    exact h.unissued id hid.1
  · intro id ts hm
    rcases List.mem_append.mp hm with hm | hm
    · have hin' : id ∈ log.map Prod.fst := List.mem_map_of_mem hm
      have hk : id ≠ orderId := fun hc => hout (hc ▸ hin')
      obtain ⟨signer', seats', admitted', hex', htk'⟩ := h.exact id ts hm
      obtain ⟨cur, hc, -⟩ := h.later id hin'
      exact ⟨signer', seats', admitted', hex'.mono hg (isSome_of_lock hc) (by rw [htick, hother id hk]), htk'⟩
    · cases List.mem_singleton.mp hm
      exact ⟨signer, seats, admitted, hex.mono ha.grows (isSome_of_lock hlm) (by rw [htick]), htk⟩

/-- A booking adds an order that has no tickets yet. -/
lemma Issuance.booked {ids : BookingIds} {now expiresAt : Timestamp} {o : NewOrder} {wired : List WiredItem}
    {record : OrderRecord} (h : Issuance db log) (hb : Booked ids now expiresAt o wired record db db')
    (hg : Grows db db') : Issuance db' log := by
  obtain ⟨hnone, hfind⟩ := hb.lockOrder
  refine h.keep hg (fun k => ?_) ?_ ?_
  · rw [ticketsOf, ticketsOf, hb.tickets]
  · intro k cur hl ha
    have hk : ids.orderId ≠ k := by
      rintro rfl
      rw [hnone] at hl
      cases hl
    exact ⟨cur, by rw [hfind, if_neg hk]; exact hl, ha⟩
  · intro k cur hl ha hr
    rw [hfind] at hl
    by_cases hk : ids.orderId = k
    · rw [if_pos hk] at hl
      cases hl
      cases ha
    · rw [if_neg hk] at hl
      exact ⟨cur, hl, ha, hr⟩

/-- Every transaction keeps the tickets exact. -/
theorem Issuance.step {w : Oracle} {now : Timestamp} {t : Tx} {res : TxResult} (h : Issuance db log)
    (hi : ItemsOk db) (he : Effect w now db t res db') (hs : Sound db.capacityUnits t) :
    Issuance db' (log ++ issuedBy t res) := by
  have hg := (hi.step he hs).1
  cases he with
  | quiet frame hw _ =>
    rw [issuedBy_of_not_wins hw, List.append_nil]
    exact h.congr hg frame.orders (fun k => by rw [ticketsOf, ticketsOf, frame.tickets])
  | booked hb =>
    rw [issuedBy_of_not_issued (by simp), List.append_nil]
    exact h.booked hb hg
  | seatSold _ =>
    rw [issuedBy_of_not_issued (by simp), List.append_nil]
    exact h.congr hg rfl (fun _ => rfl)
  | poolSold _ =>
    rw [issuedBy_of_not_issued (by simp), List.append_nil]
    exact h.congr hg rfl (fun _ => rfl)
  | requested hl ha =>
    rw [issuedBy_of_not_issued (by simp), List.append_nil]
    exact h.advance ha hl.current (fun _ => rfl) rfl (by decide)
  | captured hl ha =>
    rw [issuedBy_of_not_issued (by simp), List.append_nil]
    exact h.advance ha hl.current (fun _ => rfl) rfl (by decide)
  | declined hl ha =>
    rw [issuedBy_of_not_issued (by simp), List.append_nil]
    exact h.advance ha hl.current (fun _ => rfl) rfl (by decide)
  | @exited t event orderId cur next seq mid ht hl happ ha =>
    rw [issuedBy_of_not_issued (by simp), List.append_nil]
    have hne : event ≠ .ticketIssued := by
      rcases ht with ⟨-, rfl⟩ | ⟨-, rfl⟩ <;> decide
    have hmid := h.advance ha hl.current (fun _ => rfl) happ hne
    refine hmid.congr (releaseOrderItems_grows _ _) ?_ (fun k => ?_)
    · rw [releaseOrderItems_frame]
    · rw [releaseOrderItems_frame]
      rfl
  | refunded hl happ ha =>
    rw [issuedBy_of_not_issued (by simp), List.append_nil]
    have hmid := h.advance ha hl.current (fun _ => rfl) happ (by decide)
    refine hmid.congr ((releaseOrderItems_grows _ _).trans
      (.of_eq rfl (fun _ => rfl) (fun _ _ h => h) (fun _ => rfl) rfl)) ?_ (fun k => ?_)
    · rw [releaseOrderItems_frame]
      rfl
    · rw [releaseOrderItems_frame]
      exact ticketsOf_update (fun _ => rfl) rfl k
  | issued hl hin ha => exact h.issue hi hl.current hin ha
  | boarded _ _ =>
    rw [issuedBy_of_not_issued (by simp), List.append_nil]
    exact h.congr hg rfl (fun k => ticketsOf_update (fun _ => rfl) rfl k)
  | lastBoarded _ _ hl _ ha =>
    rw [issuedBy_of_not_issued (by simp), List.append_nil]
    refine Issuance.advance ?_ ha hl.current (fun _ => rfl) rfl (by decide)
    exact h.congr (.of_eq rfl (fun _ => rfl) (fun _ _ h => h) (fun _ => rfl) rfl) rfl
      (fun k => ticketsOf_update (fun _ => rfl) rfl k)

end Step

end Lulan.Proofs
