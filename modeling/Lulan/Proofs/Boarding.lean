import Lulan.Lib.Loop
import Lulan.Proofs.Lifecycle
import Lulan.Validate.Ticket

/-!
# Tickets and the orders they belong to

What a transaction does to a ticket follows from what it does to the ticket's order: a
refund voids all of them, a scan boards one that is issued, and nothing brings a void
ticket back.
-/

namespace Lulan.Proofs

open Lulan Lulan.Db Lib

/-- What a transaction that makes the lifecycle step `moved` does to one ticket. -/
inductive TicketChange (moved : Option (Uuid × OrderEventType)) (t : TicketRow) : TicketRow → Prop where
  | kept (h : moved ≠ some (t.orderId, .orderRefunded)) : TicketChange moved t t
  | boarded (hs : t.status = .issued) (h : moved ≠ some (t.orderId, .orderRefunded)) (scannedAt : Timestamp) :
      TicketChange moved t { t with status := .boarded, boardedAt := some scannedAt }
  | voided (h : moved = some (t.orderId, .orderRefunded)) : TicketChange moved t { t with status := .void }

/-- A ticket as it is issued: good for a day after its trip departs. -/
structure Fresh (db : Db) (moved : Option (Uuid × OrderEventType)) (t : TicketRow) : Prop where
  status : t.status = .issued
  order : moved = some (t.orderId, .ticketIssued)
  exp : ∃ trip, db.trips.find? t.tripId = some trip ∧
    t.token.claims.exp = trip.departsAt + validityAfterDepartureHours * 3600

/-- What a transaction does to the tickets: it changes those that are there and adds new ones. -/
def TicketsStep (db : Db) (moved : Option (Uuid × OrderEventType)) (db' : Db) : Prop :=
  ∃ f new, db'.tickets.rows = db.tickets.rows.map f ++ new ∧
    (∀ t ∈ db.tickets.rows, TicketChange moved t (f t)) ∧ ∀ t ∈ new, Fresh db moved t

section Changes

variable {moved : Option (Uuid × OrderEventType)} {t t' : TicketRow} {db db' : Db} {w : Oracle} {now : Timestamp}
  {tx : Tx} {res : TxResult}

lemma TicketChange.id (h : TicketChange moved t t') : t'.id = t.id := by
  cases h <;> rfl

lemma TicketChange.orderId (h : TicketChange moved t t') : t'.orderId = t.orderId := by
  cases h <;> rfl

lemma TicketChange.tripId (h : TicketChange moved t t') : t'.tripId = t.tripId := by
  cases h <;> rfl

lemma TicketChange.token (h : TicketChange moved t t') : t'.token = t.token := by
  cases h <;> rfl

lemma TicketChange.void (h : TicketChange moved t t') (hv : t.status = .void) : t'.status = .void := by
  cases h with
  | kept _ => exact hv
  | boarded hs _ _ =>
    rw [hv] at hs
    cases hs
  | voided _ => rfl

/-- Only a refund of its order takes a boarded ticket back. -/
lemma TicketChange.aboard (h : TicketChange moved t t') (hb : t.status = .boarded)
    (hm : moved ≠ some (t.orderId, .orderRefunded)) : t'.status = .boarded := by
  cases h with
  | kept _ => exact hb
  | boarded _ _ _ => rfl
  | voided hv => exact absurd hv hm

lemma TicketsStep.same (ht : db'.tickets = db.tickets) (hm : ∀ id, moved ≠ some (id, .orderRefunded)) :
    TicketsStep db moved db' :=
  ⟨fun t => t, [], by rw [ht, List.map_id', List.append_nil], fun t _ => .kept (hm t.orderId), by simp⟩

lemma joinLine_departs {oi : OrderItemRow} {line : TicketLine} {cu : CapacityUnitRow}
    (h : db.joinLine oi = some (line, cu)) : line.item = oi ∧
      ∃ trip, db.trips.find? oi.tripId = some trip ∧ line.departsAt = trip.departsAt := by
  unfold joinLine at h
  split at h
  · rename_i cu' trip hcu htrip
    cases h
    exact ⟨rfl, trip, htrip, rfl⟩
  · cases h

lemma seatLines_departs {orderId : Uuid} {l : TicketLine × PassengerRow} (h : l ∈ db.seatLines orderId) :
    ∃ trip, db.trips.find? l.1.item.tripId = some trip ∧ l.1.departsAt = trip.departsAt := by
  rw [seatLines, List.mem_insertionSort] at h
  obtain ⟨oi, -, hj⟩ := List.mem_filterMap.mp h
  unfold joinSeat at hj
  split at hj
  · rename_i p line cu hp hline
    cases hj
    obtain ⟨hitem, htrip⟩ := joinLine_departs hline
    rw [hitem]
    exact htrip
  · cases hj

lemma admissions_departs {orderId : Uuid} {l : TicketLine} (h : l ∈ db.admissions orderId) :
    ∃ trip, db.trips.find? l.item.tripId = some trip ∧ l.departsAt = trip.departsAt := by
  obtain ⟨line, hline, hrep⟩ := List.mem_flatMap.mp h
  rw [List.eq_of_mem_replicate hrep]
  rw [poolLines, List.mem_insertionSort] at hline
  obtain ⟨oi, -, hj⟩ := List.mem_filterMap.mp hline
  unfold joinAdmission at hj
  split at hj
  · rename_i line' cu hline'
    split at hj
    · cases hj
      obtain ⟨hitem, htrip⟩ := joinLine_departs hline'
      rw [hitem]
      exact htrip
    · cases hj
  · cases hj

lemma IssuedInto.fresh {ids : Nat → Uuid} {signer : TicketSigner} {orderId : Uuid} {tickets : List IssuedTicket}
    (h : IssuedInto now ids signer orderId tickets db db') :
    ∃ new, db'.tickets.rows = db.tickets.rows ++ new ∧ ∀ t ∈ new, Fresh db (some (orderId, .ticketIssued)) t := by
  obtain ⟨db₁, seats, admitted, h₁, h₂, -⟩ := h
  obtain ⟨t₁, hrows₁, -, rfl⟩ := issueSeats_eq_ok h₁
  obtain ⟨p₂, t₂, -, hrows₂, -, rfl⟩ := issueAdmissions_eq_ok h₂
  refine ⟨_, by rw [hrows₂, hrows₁, List.append_assoc], fun t ht => ?_⟩
  rcases List.mem_append.mp ht with ht | ht
  · obtain ⟨l, hl, rfl⟩ := List.mem_map.mp ht
    obtain ⟨i, hi, rfl⟩ := List.mem_mapIdx.mp hl
    obtain ⟨trip, htrip, hdep⟩ := seatLines_departs (List.getElem_mem hi)
    exact ⟨rfl, rfl, trip, htrip, by rw [← hdep]; rfl⟩
  · obtain ⟨l, hl, rfl⟩ := List.mem_map.mp ht
    obtain ⟨i, hi, rfl⟩ := List.mem_mapIdx.mp hl
    obtain ⟨trip, htrip, hdep⟩ := admissions_departs (List.getElem_mem hi)
    exact ⟨rfl, rfl, trip, htrip, by rw [← hdep]; rfl⟩

lemma TicketsStep.board {ticketId : Uuid} {scannedAt : Timestamp} (hf : db.tickets.find? ticketId = some t)
    (hs : t.status = .issued) (ht : db'.tickets = (db.boardTicket ticketId scannedAt).tickets)
    (hm : ∀ id, moved ≠ some (id, .orderRefunded)) : TicketsStep db moved db' := by
  refine ⟨fun r => if decide (r.id = ticketId) then { r with status := .boarded, boardedAt := some scannedAt } else r,
    [], by rw [ht, List.append_nil]; rfl, fun r hr => ?_, by simp⟩
  by_cases hid : r.id = ticketId
  · have hfr : db.tickets.find? ticketId = some r := by
      rw [← hid]
      exact Lib.Table.find?_of_mem hr
    rw [hf] at hfr
    cases hfr
    dsimp only
    rw [if_pos (decide_eq_true hid)]
    exact .boarded hs (hm _) scannedAt
  · dsimp only
    rw [if_neg (by simpa using hid)]
    exact .kept (hm _)

/-- What a transaction does to the tickets, next to the step of the order. -/
theorem Effect.tickets (he : Effect w now db tx res db') : TicketsStep db (moveOf db tx res) db' := by
  cases he with
  | quiet frame hw _ _ => exact .same frame.tickets (by simp [moveOf_of_not_wins hw])
  | booked hb => exact .same hb.tickets (by simp [moveOf])
  | seatSold _ => exact .same rfl (by simp [moveOf])
  | poolSold _ => exact .same rfl (by simp [moveOf])
  | requested _ ha => exact .same ha.tickets (by simp [moveOf])
  | captured _ ha => exact .same ha.tickets (by simp [moveOf, paymentEvent])
  | declined _ ha => exact .same ha.tickets (by simp [moveOf, paymentEvent])
  | exited ht _ _ ha =>
    refine .same ?_ ?_
    · rw [releaseOrderItems_frame]
      exact ha.tickets
    · rcases ht with ⟨rfl, -⟩ | ⟨rfl, -⟩ <;> simp [moveOf]
  | @refunded orderId cur seq mid _ _ ha =>
    refine ⟨fun r => if decide (r.orderId = orderId) then { r with status := .void } else r, [], ?_, fun r _ => ?_,
      by simp⟩
    · rw [releaseOrderItems_frame, List.append_nil, ← ha.tickets]
      rfl
    · by_cases hid : r.orderId = orderId
      · dsimp only
        rw [if_pos (decide_eq_true hid)]
        exact .voided (by rw [hid]; rfl)
      · dsimp only
        rw [if_neg (by simpa using hid)]
        refine .kept (fun h => hid ?_)
        exact (Prod.mk.inj (Option.some.inj h)).1.symm
  | issued _ hi ha =>
    obtain ⟨new, hrows, hnew⟩ := hi.fresh
    refine ⟨fun r => r, new, by rw [ha.tickets, hrows, List.map_id'], fun r _ => .kept (by simp [moveOf]), hnew⟩
  | boarded ht hs => exact .board ht hs rfl (by simp [moveOf])
  | lastBoarded ht hs _ _ ha => exact .board ht hs ha.tickets (by simp [moveOf, ht])

end Changes

section Invariant

variable {db db' : Db} {w : Oracle} {now : Timestamp} {tx : Tx} {res : TxResult}

/-- The tickets an order in state `st` can have. -/
def Suits (st : OrderStatus) : TicketStatus → Prop
  | .void => st = .refunded
  | .issued | .boarded => st = .ticketed ∨ st = .boarded ∨ st = .completed

/-- The states of orders that own nothing any more. -/
def Given (st : OrderStatus) : Prop := st = .cancelled ∨ st = .expired ∨ st = .refunded

/-- Every ticket fits the state of its order and runs out a day after its trip departs;
what was released belongs to orders that own nothing any more. -/
structure TicketsOk (s : World) (h : List Event) : Prop where
  suits : ∀ t ∈ s.db.tickets.rows, ∃ st, s.db.lockOrder t.orderId = some st ∧ Suits st t.status
  exp : ∀ t ∈ s.db.tickets.rows, ∃ trip, s.db.trips.find? t.tripId = some trip ∧
    t.token.claims.exp = trip.departsAt + validityAfterDepartureHours * 3600
  released : ∀ x ∈ releasesIn h, ∃ st, s.db.lockOrder x.1.orderId = some st ∧ Given st

lemma Effect.lockOrder_step (he : Effect w now db tx res db') {k : Uuid} {st : OrderStatus}
    (hs : db.lockOrder k = some st) : ∃ st', db'.lockOrder k = some st' ∧
      ((st' = st ∧ ∀ event, moveOf db tx res ≠ some (k, event)) ∨
        ∃ event, moveOf db tx res = some (k, event) ∧ apply (some st) event = .ok st') := by
  obtain ⟨row, hrow, rfl⟩ := Option.map_eq_some_iff.mp hs
  cases hm : moveOf db tx res with
  | none =>
    obtain ⟨row', hrow', rfl | ⟨event, next, hm', -⟩⟩ := he.status hrow
    · exact ⟨row'.status, by rw [Db.lockOrder, hrow']; rfl, .inl ⟨rfl, by simp⟩⟩
    · rw [hm] at hm'
      cases hm'
  | some x =>
    obtain ⟨row', next, hrow', happ, hk⟩ := he.moved hm
    by_cases hid : k = x.1
    · subst hid
      rw [hrow] at hrow'
      cases hrow'
      exact ⟨next, by rw [Db.lockOrder, hk, if_pos rfl]; rfl, .inr ⟨x.2, rfl, happ⟩⟩
    · refine ⟨row.status, by rw [Db.lockOrder, hk, if_neg hid, hrow]; rfl, .inl ⟨rfl, fun event h => ?_⟩⟩
      cases h
      exact absurd rfl hid

lemma Schedule.departs (h : Schedule db tx res db') {k : Uuid} {trip : TripRow}
    (ht : db.trips.find? k = some trip) : ∃ trip', db'.trips.find? k = some trip' ∧ trip'.departsAt = trip.departsAt := by
  rcases h with h | ⟨tripId, -, -, rfl⟩
  · exact ⟨trip, by rw [h]; exact ht, rfl⟩
  · refine ⟨_, by rw [cancelTrip, Lib.Table.find?_update, ht]; rfl, ?_⟩
    dsimp only
    split <;> rfl

/-- The items a transaction releases are those of one order, which it takes out of the
states that own their claims. -/
lemma Effect.releases (he : Effect w now db tx res db') {x : OrderItemRow × Nat} (hx : x ∈ releasedBy res) :
    ∃ st, db'.lockOrder x.1.orderId = some st ∧ Given st := by
  have hmem : ∀ {mid : Db} {orderId : Uuid}, x ∈ (mid.releaseOrderItems orderId).1 → x.1.orderId = orderId := by
    intro mid orderId hx
    have hfst : x.1 ∈ (mid.releaseOrderItems orderId).1.map Prod.fst := List.mem_map_of_mem hx
    rw [releaseOrderItems, releaseItems_map_fst] at hfst
    simpa using (Lib.Table.mem_select.mp hfst).2
  cases he with
  | quiet _ _ hr _ =>
    rw [hr] at hx
    cases hx
  | booked _ => cases hx
  | seatSold _ => cases hx
  | poolSold _ => cases hx
  | requested _ _ => cases hx
  | captured _ _ => cases hx
  | declined _ _ => cases hx
  | @exited tx event orderId cur next seq mid ht hl happ ha =>
    refine ⟨next, ?_, ?_⟩
    · rw [hmem hx, releaseOrderItems_frame]
      exact (ha.lockOrder hl.current (fun _ => rfl) _).trans (if_pos rfl)
    · rcases ht with ⟨-, rfl⟩ | ⟨-, rfl⟩
      · rcases apply_cases happ with h | h | h | h | h | h | h | h | h | h <;> obtain ⟨-, hev, hn⟩ := h <;> cases hev
        exact .inl hn
      · rcases apply_cases happ with h | h | h | h | h | h | h | h | h | h <;> obtain ⟨-, hev, hn⟩ := h <;> cases hev
        exact .inr (.inl hn)
  | refunded hl happ ha =>
    refine ⟨.refunded, ?_, .inr (.inr rfl)⟩
    rw [hmem hx, releaseOrderItems_frame]
    exact (ha.lockOrder hl.current (fun _ => rfl) _).trans (if_pos rfl)
  | issued _ _ _ => cases hx
  | boarded _ _ => cases hx
  | lastBoarded _ _ _ _ _ => cases hx

/-- A ticket goes on fitting its order, unless the order was refunded and the ticket is void. -/
lemma TicketChange.suits {moved : Option (Uuid × OrderEventType)} {t t' : TicketRow} (h : TicketChange moved t t') :
    (moved ≠ some (t.orderId, .orderRefunded) ∧ ∀ st, Suits st t.status → Suits st t'.status) ∨
      (moved = some (t.orderId, .orderRefunded) ∧ t'.status = .void) := by
  cases h with
  | kept hm => exact .inl ⟨hm, fun _ hc => hc⟩
  | boarded hs hm _ =>
    refine .inl ⟨hm, fun st hc => ?_⟩
    rw [hs] at hc
    exact hc
  | voided hm => exact .inr ⟨hm, rfl⟩

/-- The states from which an order with tickets, or one that gave its claims back, can go on. -/
lemma apply_settled {st st' : OrderStatus} {event : OrderEventType} (happ : apply (some st) event = .ok st') :
    (∀ v, Suits st v → event = .orderRefunded ∨ Suits st' v) ∧ ¬ Given st := by
  rcases apply_cases happ with h | h | h | h | h | h | h | h | h | h <;> obtain ⟨hst, rfl, rfl⟩ := h
  case inr.inr.inr.inr.inr.inr.inr.inl | inr.inr.inr.inr.inr.inr.inr.inr.inl =>
    subst hst
    refine ⟨fun v hv => .inr ?_, by simp [Given]⟩
    cases v <;> simp [Suits] at hv ⊢
  case inr.inr.inr.inr.inr.inr.inr.inr.inr =>
    refine ⟨fun _ _ => .inl rfl, ?_⟩
    rcases hst with rfl | rfl <;> simp [Given]
  case inr.inr.inr.inr.inl | inr.inr.inr.inr.inr.inl =>
    rcases hst with rfl | rfl <;>
      exact ⟨fun v hv => by cases v <;> simp [Suits] at hv, by simp [Given]⟩
  all_goals
    subst hst
    exact ⟨fun v hv => by cases v <;> simp [Suits] at hv, by simp [Given]⟩

lemma ticketsOk_of_seeded {s : World} (h : s.db.Seeded) : TicketsOk s [] where
  suits := by simp [h.tickets]
  exp := by simp [h.tickets]
  released := by simp [releasesIn]

lemma TicketsOk.quiet {s : World} {h : List Event} {ev : Event} (ht : TicketsOk s h)
    (hev : ∀ pid i t r, ev ≠ .commit pid i t r) : TicketsOk s (h ++ [ev]) := by
  refine ⟨ht.suits, ht.exp, ?_⟩
  have hrel : releasesIn (h ++ [ev]) = releasesIn h := by
    cases ev with
    | commit pid i t r => exact absurd rfl (hev pid i t r)
    | arrive | call | answer => simp [releasesIn]
  rw [hrel]
  exact ht.released

/-- Every transaction keeps tickets and orders in step. -/
theorem TicketsOk.commit {s : World} {h : List Event} (ht : TicketsOk s h) (pid : Nat) (i : Request) (tx : Tx)
    (w : Oracle) : TicketsOk (tx.run w s).2 (h ++ [.commit pid i tx (tx.run w s).1]) := by
  have he := (run_effect tx w s).1
  obtain ⟨f, new, hrows, hold, hnew⟩ := he.tickets
  refine ⟨fun t' ht' => ?_, fun t' ht' => ?_, fun x hx => ?_⟩
  · rw [hrows, List.mem_append] at ht'
    rcases ht' with ht' | ht'
    · obtain ⟨t, hm, rfl⟩ := List.mem_map.mp ht'
      obtain ⟨st, hst, hc⟩ := ht.suits t hm
      obtain ⟨st', hst', hstep⟩ := he.lockOrder_step hst
      rw [(hold t hm).orderId]
      refine ⟨st', hst', ?_⟩
      rcases hstep with ⟨rfl, hno⟩ | ⟨event, hmove, happ⟩
      · rcases (hold t hm).suits with ⟨-, hkeep⟩ | ⟨hrefund, -⟩
        · exact hkeep _ hc
        · exact absurd hrefund (hno _)
      · rcases (hold t hm).suits with ⟨hne, hkeep⟩ | ⟨hrefund, hvoid⟩
        · rcases (apply_settled happ).1 _ hc with rfl | hc'
          · exact absurd hmove hne
          · exact hkeep _ hc'
        · rw [hmove] at hrefund
          cases hrefund
          rw [hvoid]
          rcases apply_cases happ with h | h | h | h | h | h | h | h | h | h <;> obtain ⟨-, hev, hn⟩ := h <;>
            cases hev
          exact hn
    · obtain ⟨row, next, -, happ, hk⟩ := he.moved (hnew t' ht').order
      refine ⟨next, by rw [Db.lockOrder, hk, if_pos rfl]; rfl, ?_⟩
      rw [(hnew t' ht').status]
      rcases apply_cases happ with h | h | h | h | h | h | h | h | h | h <;> obtain ⟨-, hev, hn⟩ := h <;> cases hev
      exact .inl hn
  · rw [hrows, List.mem_append] at ht'
    have hkeep : ∀ {k : Uuid} {e : Timestamp}, (∃ trip, s.db.trips.find? k = some trip ∧
        e = trip.departsAt + validityAfterDepartureHours * 3600) →
        ∃ trip, (tx.run w s).2.db.trips.find? k = some trip ∧
          e = trip.departsAt + validityAfterDepartureHours * 3600 := by
      rintro k e ⟨trip, htrip, hexp⟩
      obtain ⟨trip', htrip', hdep⟩ := he.schedule.departs htrip
      exact ⟨trip', htrip', by rw [hexp, hdep]⟩
    rcases ht' with ht' | ht'
    · obtain ⟨t, hm, rfl⟩ := List.mem_map.mp ht'
      rw [(hold t hm).tripId, (hold t hm).token]
      exact hkeep (ht.exp t hm)
    · exact hkeep (hnew t' ht').exp
  · have hrel : releasesIn (h ++ [.commit pid i tx (tx.run w s).1]) =
        releasesIn h ++ releasedBy (tx.run w s).1 := by simp [releasesIn]
    rw [hrel, List.mem_append] at hx
    rcases hx with hx | hx
    · obtain ⟨st, hst, hg⟩ := ht.released x hx
      obtain ⟨st', hst', ⟨rfl, -⟩ | ⟨event, -, happ⟩⟩ := he.lockOrder_step hst
      · exact ⟨_, hst', hg⟩
      · exact absurd hg (apply_settled happ).2
    · exact he.releases hx

end Invariant

section Runs

variable {app : AppState} {s : World} {c c' : LockConf Request World Tx TxResult Call Reply Answer Uuid LockRead LockRead}

/-- Tickets and orders are in step after any run. -/
theorem Reaches.ticketsOk (hs : s.db.Seeded) (hc : Reaches app s c) : TicketsOk c.store c.trace := by
  have hS : ∀ i, (Request.handler app i).Only (fun _ => True) (fun _ => True) (fun _ => True) (fun _ => True) :=
    fun i => Lib.Prog.only_mono (handler_only (fun _ => True) app i) (fun _ _ => trivial) (fun _ _ => trivial)
      (fun _ _ => trivial)
  exact Lib.Site.store_invariant (S := site app) (P := fun _ _ => True) hS (ticketsOk_of_seeded hs)
    (fun _ _ _ => trivial) (fun _ _ _ h => ⟨h.suits, h.exp, h.released⟩) (fun _ _ _ hev h => h.quiet hev)
    (fun _ _ pid i t w _ h => h.commit pid i t w) ((rowLocks app).reachable_atomic hc)

/-- What every step keeps of a ticket, every run keeps. -/
lemma ticket_later {G : World → List Event → Event → Prop} {P : TicketRow → Prop}
    (hc : (rowLocks app).ReachableWhen G (RowLocks.init s) c) (hc' : (rowLocks app).ReachableWhen G c c')
    (hstep : ∀ s h pid i tx w, G s h (.commit pid i tx (Tx.run tx w s).1) → ∀ t ∈ s.db.tickets.rows, P t →
      ∀ t', TicketChange (moveOf s.db tx (Tx.run tx w s).1) t t' → P t')
    {t : TicketRow} (ht : t ∈ c.store.db.tickets.rows) (hP : P t) :
    ∃ t' ∈ c'.store.db.tickets.rows, t'.id = t.id ∧ P t' := by
  have hrel := Site.ReachableWhen.store_related (R := fun s s' : World => ∀ t ∈ s.db.tickets.rows, P t →
    ∃ t' ∈ s'.db.tickets.rows, t'.id = t.id ∧ P t') ((rowLocks app).reachable_atomicWhen_rest hc hc')
  refine hrel ?_ ?_ ?_ ?_ t ht hP
  · exact fun _ t ht hP => ⟨t, ht, rfl, hP⟩
  · intro s₁ s₂ s₃ h₁₂ h₂₃ t ht hP
    obtain ⟨t₂, ht₂, hid₂, hP₂⟩ := h₁₂ t ht hP
    obtain ⟨t₃, ht₃, hid₃, hP₃⟩ := h₂₃ t₂ ht₂ hP₂
    exact ⟨t₃, ht₃, hid₃.trans hid₂, hP₃⟩
  · exact fun _ _ t ht hP => ⟨t, ht, rfl, hP⟩
  · intro s h pid i tx w hG t ht hP
    obtain ⟨f, new, hrows, hold, -⟩ := (run_effect tx w s).1.tickets
    refine ⟨f t, ?_, (hold t ht).id, hstep s h pid i tx w hG t ht hP _ (hold t ht)⟩
    change f t ∈ (tx.run w s).2.db.tickets.rows
    rw [hrows]
    exact List.mem_append_left _ (List.mem_map_of_mem ht)

/-- The condition on a run: when a refund of the order takes effect, nobody is aboard on it. -/
def NobodyAboard (orderId : Uuid) (s : World) (_ : List Event) : Event → Prop
  | .commit _ _ (.refund id) (.transition (.applied _) _) =>
    id = orderId → ∀ t ∈ s.db.tickets.rows, t.orderId = orderId → t.status ≠ .boarded
  | _ => True

lemma refund_of_moveOf {db : Db} {tx : Tx} {res : TxResult} {orderId : Uuid}
    (h : moveOf db tx res = some (orderId, .orderRefunded)) :
    tx = .refund orderId ∧ ∃ next released, res = .transition (.applied next) released := by
  unfold moveOf at h
  split at h
  case h_2 succeeded _ _ => cases succeeded <;> cases h
  case h_5 =>
    cases h
    exact ⟨rfl, _, _, rfl⟩
  case h_7 =>
    split at h
    · obtain ⟨ticket, -, he⟩ := Option.map_eq_some_iff.mp h
      cases he
    · cases h
  all_goals cases h

/-- A passenger who is aboard stays aboard, and what the order holds is not released. -/
theorem aboard_keeps_seat {orderId : Uuid} (hs : s.db.Seeded)
    (hc : (rowLocks app).ReachableWhen (NobodyAboard orderId) (RowLocks.init s) c)
    (hc' : (rowLocks app).ReachableWhen (NobodyAboard orderId) c c') {t : TicketRow}
    (ht : t ∈ c.store.db.tickets.rows) (ho : t.orderId = orderId) (hb : t.status = .boarded) :
    (∃ t' ∈ c'.store.db.tickets.rows, t'.id = t.id ∧ t'.orderId = orderId ∧ t'.status = .boarded) ∧
      ∀ x ∈ releasesIn c'.trace, x.1.orderId ≠ orderId := by
  have hstay : ∃ t' ∈ c'.store.db.tickets.rows, t'.id = t.id ∧ t'.orderId = orderId ∧ t'.status = .boarded := by
    refine ticket_later (P := fun t => t.orderId = orderId ∧ t.status = .boarded) hc hc' ?_ ht ⟨ho, hb⟩
    rintro s h pid i tx w hG t ht ⟨ho, hb⟩ t' hchange
    refine ⟨hchange.orderId.trans ho, hchange.aboard hb (fun hm => ?_)⟩
    obtain ⟨rfl, next, released, hres⟩ := refund_of_moveOf hm
    rw [hres] at hG
    exact hG ho t ht ho hb
  obtain ⟨t', ht', hid, ho', hb'⟩ := hstay
  refine ⟨⟨t', ht', hid, ho', hb'⟩, fun x hx hxo => ?_⟩
  have hend : (rowLocks app).ReachableWhen (NobodyAboard orderId) (RowLocks.init s) c' :=
    Relation.ReflTransGen.trans hc hc'
  have hok := Reaches.ticketsOk hs hend.reachable
  obtain ⟨st, hst, hcar⟩ := hok.suits t' ht'
  obtain ⟨st', hst', hg⟩ := hok.released x hx
  rw [ho'] at hst
  rw [hxo, hst] at hst'
  cases hst'
  rw [hb'] at hcar
  rcases hcar with rfl | rfl | rfl <;> rcases hg with hg | hg | hg <;> cases hg

/-- A gate that carries the list from `since` on lets nobody in with the token of the ticket. -/
def Refuses (revoked : List Uuid) (since : Timestamp) (t : TicketRow) : Prop :=
  ∀ (lib : Wire.Libraries) (wire : Uuid → Wire.Uuid) (token : String) (keys : List Validate.KeyEntry) (nowUnix : Int64)
    (trip : Option Wire.Uuid) (verified : Validate.VerifiedTicket), since ≤ nowUnix.toInt →
    Validate.verifyTicketWithRevocations lib token keys nowUnix trip (revoked.map wire) = .ok verified →
    verified.expiresAtUnix.toInt = t.token.claims.exp → verified.ticketId ≠ wire t.id

lemma passed {lib : Wire.Libraries} {token : String} {keys : List Validate.KeyEntry} {nowUnix : Int64}
    {trip : Option Wire.Uuid} {revoked : List Wire.Uuid} {verified : Validate.VerifiedTicket}
    (h : Validate.verifyTicketWithRevocations lib token keys nowUnix trip revoked = .ok verified) :
    ¬ verified.expiresAtUnix < nowUnix ∧ verified.ticketId ∉ revoked := by
  unfold Validate.verifyTicketWithRevocations at h
  split at h
  · cases h
  · split at h
    · cases h
    · split at h
      · cases h
      · split at h
        · cases h
        · split_ifs at h with hsig hexp htrip hrev
          cases h
          exact ⟨hexp, hrev⟩

lemma bmod_of_i32 {n : Int} (hlo : -2 ^ 31 ≤ n) (hhi : n < 2 ^ 31) : n.bmod (2 ^ 32) = n := by
  apply Int.bmod_eq_of_le_mul_two
  · push_cast
    omega
  · push_cast
    omega

/-- The list of a trip names every void ticket of it, and the general list those that can
still be in use on a trip within the horizon. -/
lemma mem_revokedTickets {h : List Event} {s : World} {t : TicketRow} (hok : TicketsOk s h)
    (ht : t ∈ s.db.tickets.rows) (hv : t.status = .void) (horizon : Int) :
    t.id ∈ s.db.revokedTickets s.now (some t.tripId) horizon ∧
      ∀ trip, s.db.trips.find? t.tripId = some trip → s.now ≤ t.token.claims.exp →
        trip.departsAt ≤ s.now + horizon.bmod (2 ^ 32) * 3600 → t.id ∈ s.db.revokedTickets s.now none horizon := by
  obtain ⟨trip, htrip, hexp⟩ := hok.exp t ht
  have hin : ∀ tripId, revocable s.now tripId (horizon.bmod (2 ^ 32)) trip = true →
      t.id ∈ s.db.revokedTickets s.now tripId horizon := by
    intro tripId hr
    rw [revokedTickets, List.mem_insertionSort]
    refine List.mem_map_of_mem (Lib.Table.mem_select.mpr ⟨ht, ?_⟩)
    simpa [hv, htrip] using hr
  refine ⟨hin _ ?_, fun trip' htrip' hlive hdep => hin _ ?_⟩
  · simpa [revocable] using Lib.Table.find?_key htrip
  · rw [htrip] at htrip'
    cases htrip'
    have hstart : s.now - 24 * 3600 ≤ trip.departsAt := by
      rw [hexp, validityAfterDepartureHours] at hlive
      have hday : ∀ a b : Int, a ≤ b + 24 * 3600 → a - 24 * 3600 ≤ b := by omega
      exact hday _ _ hlive
    rw [revocable, Bool.and_eq_true, decide_eq_true_eq, decide_eq_true_eq]
    exact ⟨hstart, hdep⟩

/-- Refunded orders have void tickets only, void tickets stay void, every other ticket
belongs to an order that is still served, and the lists of revoked tickets name every
void ticket that could still pass, so that a gate which has synced refuses it. -/
theorem refunded_tickets_refused (hs : s.db.Seeded) (hc : Reaches app s c) (hc' : (rowLocks app).Reachable c c') :
    (∀ t ∈ c.store.db.tickets.rows, c.store.db.lockOrder t.orderId = some .refunded → t.status = .void) ∧
    (∀ t ∈ c.store.db.tickets.rows, t.status ≠ .void → ∃ st, c.store.db.lockOrder t.orderId = some st ∧
      (st = .ticketed ∨ st = .boarded ∨ st = .completed)) ∧
    ∀ t ∈ c.store.db.tickets.rows, t.status = .void →
      (∃ t' ∈ c'.store.db.tickets.rows, t'.id = t.id ∧ t'.status = .void) ∧
      (∀ horizon, t.id ∈ c.store.db.revokedTickets c.store.now (some t.tripId) horizon ∧
        Refuses (c.store.db.revokedTickets c.store.now (some t.tripId) horizon) c.store.now t) ∧
      ∀ (horizon : Int) trip, -2 ^ 31 ≤ horizon → horizon < 2 ^ 31 → c.store.db.trips.find? t.tripId = some trip →
        trip.departsAt ≤ c.store.now + horizon * 3600 →
        (c.store.now ≤ t.token.claims.exp → t.id ∈ c.store.db.revokedTickets c.store.now none horizon) ∧
        Refuses (c.store.db.revokedTickets c.store.now none horizon) c.store.now t := by
  have hok := hc.ticketsOk hs
  refine ⟨fun t ht href => ?_, fun t ht hv => ?_, fun t ht hv => ⟨?_, fun horizon => ?_, ?_⟩⟩
  · obtain ⟨st, hst, hcar⟩ := hok.suits t ht
    rw [href] at hst
    cases hst
    cases hstatus : t.status with
    | void => rfl
    | issued | boarded =>
      rw [hstatus] at hcar
      rcases hcar with hcar | hcar | hcar <;> cases hcar
  · obtain ⟨st, hst, hcar⟩ := hok.suits t ht
    refine ⟨st, hst, ?_⟩
    cases hstatus : t.status with
    | void => exact absurd hstatus hv
    | issued | boarded =>
      rw [hstatus] at hcar
      exact hcar
  · exact ticket_later (P := fun t => t.status = .void) hc.reachableWhen hc'.reachableWhen
      (fun _ _ _ _ _ _ _ _ _ hv _ hchange => hchange.void hv) ht hv
  · obtain ⟨htrip, -⟩ := mem_revokedTickets hok ht hv horizon
    refine ⟨htrip, fun lib wire token keys nowUnix trip verified _ hver _ hid => ?_⟩
    refine (passed hver).2 ?_
    rw [hid]
    exact List.mem_map_of_mem htrip
  · intro horizon trip hlo hhi htrip hdep
    obtain ⟨-, hall⟩ := mem_revokedTickets hok ht hv horizon
    rw [bmod_of_i32 hlo hhi] at hall
    have hlist : c.store.now ≤ t.token.claims.exp → t.id ∈ c.store.db.revokedTickets c.store.now none horizon :=
      fun hlive => hall trip htrip hlive hdep
    refine ⟨hlist, fun lib wire token keys nowUnix trip' verified hsince hver hexp hid => ?_⟩
    obtain ⟨hlive, hnot⟩ := passed hver
    refine hnot ?_
    rw [hid]
    refine List.mem_map_of_mem (hlist ?_)
    rw [Int64.lt_iff_toInt_lt, not_lt, hexp] at hlive
    exact le_trans hsince hlive

end Runs

section Harbour

instance (orderId : Uuid) (s : World) (h : List Event) (ev : Event) : Decidable (NobodyAboard orderId s h ev) := by
  unfold NobodyAboard
  split <;> infer_instance

/-- Ana books, pays and has her three tickets. -/
def ticketedRun : List (LockAct Request Reply Oracle Nat) :=
  [.arrive (.storeCreate booking), .read 0 true, .read 0 true, .peek 0, .short 0 (drawn 100), .answer 0,
    .arrive (.requestPayment 100), .read 3 true, .reply 3 (.intent (.ok ⟨"pi_1", none⟩)), .lock 3, .plan 3,
    .commit 3 (drawn 0), .answer 3, .arrive (.paymentWebhook none none "pi_1"), .read 7 true, .lock 7, .plan 7,
    .commit 7 (drawn 0), .read 7 true, .read 7 true, .lock 7, .plan 7, .commit 7 (drawn 200), .answer 7]

/-- One of the party goes aboard. -/
def scanRun : List (LockAct Request Reply Oracle Nat) :=
  [.arrive (.syncScans "gate-1" [⟨200, 0, "ok"⟩]), .short 11 (drawn 0), .answer 11]

/-- Then the order is refunded. -/
def lateRefundRun : List (LockAct Request Reply Oracle Nat) :=
  [.arrive (.refundOrder 100), .read 14 true, .reply 14 (.refunded (.ok ())), .lock 14, .plan 14, .commit 14 (drawn 0)]

def statusOf (db : Db) (ticketId : Uuid) : Option TicketStatus := (db.tickets.find? ticketId).map TicketRow.status

lemma lateRefundRun_reaches : ∃ c c', Reaches sandbox harbour c ∧ (rowLocks sandbox).Reachable c c' ∧
    statusOf c.store.db 200 = some .boarded ∧ statusOf c'.store.db 200 = some .void ∧
    (releasesIn c'.trace).length = 2 := by
  have hrun : ((rowLocks sandbox).exec (RowLocks.init harbour) (ticketedRun ++ scanRun)).bind (fun c =>
      ((rowLocks sandbox).exec c lateRefundRun).map (fun c' =>
        (statusOf c.store.db 200, statusOf c'.store.db 200, (releasesIn c'.trace).length))) =
      some (some .boarded, some .void, 2) := by decide
  obtain ⟨c, hc, hrest⟩ := Option.bind_eq_some_iff.mp hrun
  obtain ⟨c', hc', hend⟩ := Option.map_eq_some_iff.mp hrest
  obtain ⟨hb, hend⟩ := Prod.mk.inj hend
  obtain ⟨hv, hrel⟩ := Prod.mk.inj hend
  exact ⟨c, c', RowLocks.reachable_of_exec hc, RowLocks.reachable_of_exec hc', hb, hv, hrel⟩

/-- A refund takes the ticket of a passenger who is aboard. -/
theorem refund_takes_seat : ¬ ∀ (app : AppState) (s : World)
    (c c' : LockConf Request World Tx TxResult Call Reply Answer Uuid LockRead LockRead), s.db.Seeded →
    Reaches app s c → (rowLocks app).Reachable c c' → ∀ t ∈ c.store.db.tickets.rows, t.status = .boarded →
    (∃ t' ∈ c'.store.db.tickets.rows, t'.id = t.id ∧ t'.orderId = t.orderId ∧ t'.status = .boarded) ∧
      ∀ x ∈ releasesIn c'.trace, x.1.orderId ≠ t.orderId := by
  intro hclaim
  obtain ⟨c, c', hc, hc', hb, hv, -⟩ := lateRefundRun_reaches
  obtain ⟨t, ht, hst⟩ := Option.map_eq_some_iff.mp hb
  obtain ⟨⟨t', ht', hid, -, hst'⟩, -⟩ :=
    hclaim sandbox harbour c c' harbour_seeded hc hc' t (Lib.Table.find?_mem ht) hst
  have hfind : c'.store.db.tickets.find? 200 = some t' := by
    rw [← Lib.Table.find?_key ht, ← hid]
    exact Lib.Table.find?_of_mem ht'
  rw [statusOf, hfind, Option.map_some, hst'] at hv
  cases hv

theorem aboard_keeps_seat_harbour : ∃ c c' : LockConf Request World Tx TxResult Call Reply Answer Uuid LockRead LockRead,
    (∃ t' ∈ c'.store.db.tickets.rows, t'.id = 200 ∧ t'.orderId = 100 ∧ t'.status = .boarded) ∧
      statusOf c.store.db 200 = some .boarded ∧ ∀ x ∈ releasesIn c'.trace, x.1.orderId ≠ 100 := by
  have hrun : ((rowLocks sandbox).execWhen (NobodyAboard 100) (RowLocks.init harbour) (ticketedRun ++ scanRun)).bind
      (fun c => ((rowLocks sandbox).execWhen (NobodyAboard 100) c
        [.arrive (.syncScans "gate-2" [⟨202, 5, "ok"⟩]), .short 14 (drawn 0), .answer 14]).map
          (fun _ => (c.store.db.tickets.find? 200).map (fun t => (t.orderId, t.status)))) =
      some (some (100, .boarded)) := by decide
  obtain ⟨c, hc, hrest⟩ := Option.bind_eq_some_iff.mp hrun
  obtain ⟨c', hc', hend⟩ := Option.map_eq_some_iff.mp hrest
  obtain ⟨t, ht, hst⟩ := Option.map_eq_some_iff.mp hend
  obtain ⟨ho, hb⟩ := Prod.mk.inj hst
  obtain ⟨⟨t', ht', hid, ho', hb'⟩, hrel⟩ := aboard_keeps_seat harbour_seeded (RowLocks.reachable_of_execWhen hc)
    (RowLocks.reachable_of_execWhen hc') (Lib.Table.find?_mem ht) ho hb
  refine ⟨c, c', ⟨t', ht', hid.trans (Lib.Table.find?_key ht), ho', hb'⟩, ?_, hrel⟩
  rw [statusOf, ht, Option.map_some, hb]

theorem refunded_tickets_refused_harbour : ∃ c t, Reaches sandbox harbour c ∧ t ∈ c.store.db.tickets.rows ∧
    t.status = .void ∧ t.id = 200 ∧ 200 ∈ c.store.db.revokedTickets c.store.now none Tickets.revocationHorizonHours := by
  have hrun : ((rowLocks sandbox).exec (RowLocks.init harbour) (ticketedRun ++ scanRun ++ lateRefundRun)).map
      (fun c => (c.store.now, (c.store.db.tickets.find? 200).map (fun t => (t.status, t.tripId, t.token.claims.exp)),
        c.store.db.trips.find? 1)) =
      some (0, some (.void, 1, 172800), some ⟨1, 1, 1, 86400, 2, .scheduled⟩) := by decide
  obtain ⟨c, hc, hend⟩ := Option.map_eq_some_iff.mp hrun
  obtain ⟨hnow, hend⟩ := Prod.mk.inj hend
  obtain ⟨hticket, htrip⟩ := Prod.mk.inj hend
  obtain ⟨t, ht, hst⟩ := Option.map_eq_some_iff.mp hticket
  obtain ⟨hv, hst⟩ := Prod.mk.inj hst
  obtain ⟨htr, hexp⟩ := Prod.mk.inj hst
  have hreach : Reaches sandbox harbour c := RowLocks.reachable_of_exec hc
  obtain ⟨-, -, hvoid⟩ := refunded_tickets_refused harbour_seeded hreach Relation.ReflTransGen.refl
  obtain ⟨-, -, hall⟩ := hvoid t (Lib.Table.find?_mem ht) hv
  have hid : t.id = 200 := Lib.Table.find?_key ht
  obtain ⟨hlist, -⟩ := hall Tickets.revocationHorizonHours _ (by decide) (by decide) (by rw [htr]; exact htrip)
    (by rw [hnow]; decide)
  refine ⟨c, t, hreach, Lib.Table.find?_mem ht, hv, hid, ?_⟩
  rw [← hid]
  exact hlist (by rw [hnow, hexp]; decide)

end Harbour

section Expiry

variable {app : AppState} {s : World} {c c' : LockConf Request World Tx TxResult Call Reply Answer Uuid LockRead LockRead}

lemma departs_later (hc : Reaches app s c) (hc' : (rowLocks app).Reachable c c') {k : Uuid} {trip : TripRow}
    (ht : c.store.db.trips.find? k = some trip) :
    ∃ trip', c'.store.db.trips.find? k = some trip' ∧ trip'.departsAt = trip.departsAt := by
  have hrel := Site.ReachableWhen.store_related (R := fun s s' : World => ∀ trip, s.db.trips.find? k = some trip →
    ∃ trip', s'.db.trips.find? k = some trip' ∧ trip'.departsAt = trip.departsAt)
    ((rowLocks app).reachable_atomicWhen_rest hc.reachableWhen hc'.reachableWhen)
  refine hrel ?_ ?_ ?_ ?_ trip ht
  · exact fun _ trip ht => ⟨trip, ht, rfl⟩
  · intro s₁ s₂ s₃ h₁₂ h₂₃ trip ht
    obtain ⟨trip₂, ht₂, hd₂⟩ := h₁₂ trip ht
    obtain ⟨trip₃, ht₃, hd₃⟩ := h₂₃ trip₂ ht₂
    exact ⟨trip₃, ht₃, hd₃.trans hd₂⟩
  · exact fun _ _ trip ht => ⟨trip, ht, rfl⟩
  · exact fun s h pid i tx w _ trip ht => (run_effect tx w s).1.schedule.departs ht

lemma resolveTarget_sells {w : World} {tripId : Uuid} {unitCode origin destination : String} {target : ClaimTarget}
    (h : resolveTarget w tripId unitCode origin destination = .ok (some target)) :
    ∃ trip offset, w.db.trips.find? tripId = some trip ∧
      w.db.resolveSpan trip.routeId origin destination = .ok (target.span, offset) := by
  unfold resolveTarget at h
  cases ht : w.db.trips.find? tripId with
  | none => simp [ht] at h
  | some trip =>
    simp only [ht] at h
    split at h
    · cases h
    · split at h
      · cases h
      · split at h
        · cases h
        · rename_i offset hspan
          split at h
          · cases h
          · cases h
            exact ⟨trip, offset, rfl, hspan⟩

/-- A leg is sold, and a ticket of the trip is there later: it is still good when its holder
boards exactly when the origin's departure is within a day of the trip's first. -/
theorem ticket_good_at_boarding (hs : s.db.Seeded) (hc : Reaches app s c) (hc' : (rowLocks app).Reachable c c')
    {tripId : Uuid} {unitCode origin destination : String} {target : ClaimTarget}
    (hsold : resolveTarget c.store tripId unitCode origin destination = .ok (some target)) {t : TicketRow}
    (ht : t ∈ c'.store.db.tickets.rows) (htrip : t.tripId = tripId) :
    ∃ trip offset, c.store.db.trips.find? tripId = some trip ∧
      c.store.db.resolveSpan trip.routeId origin destination = .ok (target.span, offset) ∧
      (trip.departsAt + offset * 60 ≤ t.token.claims.exp ↔ offset ≤ 24 * 60) := by
  obtain ⟨trip, offset, hfind, hspan⟩ := resolveTarget_sells hsold
  obtain ⟨later, hlater, hdeparts⟩ := departs_later hc hc' hfind
  obtain ⟨trip', hfind', hexp⟩ := (Reaches.ticketsOk hs (hc.trans hc')).exp t ht
  rw [htrip, hlater] at hfind'
  cases hfind'
  refine ⟨trip, offset, hfind, hspan, ?_⟩
  rw [hexp, hdeparts, validityAfterDepartureHours]
  have hday : ∀ departsAt offset : Int,
      departsAt + offset * 60 ≤ departsAt + 24 * 3600 ↔ offset ≤ 24 * 60 := by omega
  exact hday trip.departsAt offset

/-- The second stop of the route is more than two days out. -/
def voyage : World :=
  { harbour with db := { harbour.db with
      routeStops := ⟨[⟨1, 0, 1, 0⟩, ⟨1, 1, 2, 3000⟩, ⟨1, 2, 3, 4500⟩], by decide⟩ } }

/-- A seat from the second stop on. -/
def onward : NewOrder := { booking with items := [⟨1, "1A", "TAG", "ORM", 1, 1000, some 0⟩] }

/-- Ana books the onward seat, pays and has her ticket. -/
def onwardRun : List (LockAct Request Reply Oracle Nat) :=
  [.arrive (.storeCreate onward), .read 0 true, .peek 0, .short 0 (drawn 100), .answer 0,
    .arrive (.requestPayment 100), .read 3 true, .reply 3 (.intent (.ok ⟨"pi_1", none⟩)), .lock 3, .plan 3,
    .commit 3 (drawn 0), .answer 3, .arrive (.paymentWebhook none none "pi_1"), .read 7 true, .lock 7, .plan 7,
    .commit 7 (drawn 0), .read 7 true, .read 7 true, .lock 7, .plan 7, .commit 7 (drawn 200), .answer 7]

lemma voyage_seeded : voyage.db.Seeded := { harbour_seeded with }

def onwardSpan : SegmentSpan := ⟨1, 2, Nat.one_lt_two, two_le_maxSegments⟩

lemma voyage_sells : (resolveTarget voyage 1 "1A" "TAG" "ORM").toOption =
    some (some ⟨1, .seat, some "business", onwardSpan⟩) := by decide

lemma voyage_spans : (voyage.db.resolveSpan 1 "TAG" "ORM").toOption = some (onwardSpan, 3000) := by decide

/-- Ana's ticket has run out a day before her boat calls. -/
theorem ticket_expires_before_boarding : ¬ ∀ (app : AppState) (s : World)
    (c c' : LockConf Request World Tx TxResult Call Reply Answer Uuid LockRead LockRead), s.db.Seeded →
    Reaches app s c → (rowLocks app).Reachable c c' → ∀ tripId unitCode origin destination target,
    resolveTarget c.store tripId unitCode origin destination = .ok (some target) →
    ∀ t ∈ c'.store.db.tickets.rows, t.tripId = tripId → ∃ trip offset, c.store.db.trips.find? tripId = some trip ∧
      c.store.db.resolveSpan trip.routeId origin destination = .ok (target.span, offset) ∧
      trip.departsAt + offset * 60 ≤ t.token.claims.exp := by
  intro hclaim
  have hrun : ((rowLocks sandbox).exec (RowLocks.init voyage) onwardRun).map (fun c =>
      (c.store.db.tickets.find? 200).map (fun t => (t.tripId, t.token.claims.exp))) =
      some (some (1, 172800)) := by decide
  obtain ⟨c, hc, hend⟩ := Option.map_eq_some_iff.mp hrun
  obtain ⟨t, ht, hfields⟩ := Option.map_eq_some_iff.mp hend
  obtain ⟨htrip, hexp⟩ := Prod.mk.inj hfields
  have hsold := eq_ok_of_toOption voyage_sells
  obtain ⟨trip, offset, hfind, hspan, hgood⟩ := hclaim sandbox voyage _ c voyage_seeded .refl
    (RowLocks.reachable_of_exec hc) _ _ _ _ _ hsold t (Lib.Table.find?_mem ht) htrip
  cases hfind
  obtain ⟨-, rfl⟩ := Prod.mk.inj (Except.ok.inj ((eq_ok_of_toOption voyage_spans).symm.trans hspan))
  rw [hexp] at hgood
  exact absurd hgood (by decide)

/-- On the ferry's own route the seat from the second stop on is boarded in time. -/
theorem ticket_good_at_boarding_harbour : ∃ c t, Reaches sandbox harbour c ∧ t ∈ c.store.db.tickets.rows ∧
    86400 + 120 * 60 ≤ t.token.claims.exp := by
  have hrun : ((rowLocks sandbox).exec (RowLocks.init harbour) onwardRun).map (fun c =>
      (c.store.db.tickets.find? 200).map TicketRow.tripId) = some (some 1) := by decide
  obtain ⟨c, hc, hend⟩ := Option.map_eq_some_iff.mp hrun
  obtain ⟨t, ht, htrip⟩ := Option.map_eq_some_iff.mp hend
  have hsold : resolveTarget harbour 1 "1A" "TAG" "ORM" = .ok (some ⟨1, .seat, some "business", onwardSpan⟩) :=
    eq_ok_of_toOption (by decide)
  have hspans : harbour.db.resolveSpan 1 "TAG" "ORM" = .ok (onwardSpan, 120) := eq_ok_of_toOption (by decide)
  obtain ⟨trip, offset, hfind, hspan, hgood⟩ := ticket_good_at_boarding harbour_seeded .refl
    (RowLocks.reachable_of_exec hc) hsold (Lib.Table.find?_mem ht) htrip
  cases hfind
  obtain ⟨-, rfl⟩ := Prod.mk.inj (Except.ok.inj (hspans.symm.trans hspan))
  exact ⟨c, t, RowLocks.reachable_of_exec hc, Lib.Table.find?_mem ht, hgood.mpr (by decide)⟩

end Expiry

end Lulan.Proofs
