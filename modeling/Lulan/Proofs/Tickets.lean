import Lulan.Proofs.Histories

/-!
# Tickets over whole runs

Whichever calls race for it, one of them issues the tickets of an order, and every other
call returns what that one wrote.
-/

namespace Lulan.Proofs

open Lulan Lulan.Db Lib

/-- One ticket for each seat item, for its passenger and journey, and one for each unit of
an admission item, each under a passenger of its own that no item names. -/
structure OneEach (db : Db) (orderId : Uuid) (seats admitted : List TicketRow) : Prop where
  rows : ticketsOf db orderId = seats ++ admitted
  seat : (seats.map (fun t => (some t.passengerId, t.tripId, t.unitId, t.token.claims.f, t.token.claims.t))).Perm
    (((itemsOf db orderId).filter (fun r => decide (r.kind = .seat))).map
      (fun r => (r.passengerId, r.tripId, r.unitId, r.span.fromIndex, r.span.toIndex)))
  admission : (admitted.map (fun t => (t.tripId, t.unitId, t.token.claims.f, t.token.claims.t))).Perm
    (((itemsOf db orderId).filter (admits db)).flatMap
      (fun r => List.replicate r.quantity.toNat (r.tripId, r.unitId, r.span.fromIndex, r.span.toIndex)))
  distinct : (admitted.map TicketRow.passengerId).Nodup
  bearer : ∀ t ∈ admitted, (∃ p, db.passengers.find? t.passengerId = some p ∧ p.orderId = orderId) ∧
    ∀ r ∈ db.orderItems.rows, r.passengerId ≠ some t.passengerId

section Rows

variable {db : Db} {orderId : Uuid} {signer : TicketSigner} {seats : List SeatDraw} {admitted : List AdmissionDraw}

lemma map_filterMap_eq {α β γ : Type} {f : α → Option β} {g : β → γ} {k : α → γ} {l : List α}
    (h : ∀ x ∈ l, ∃ y, f x = some y ∧ g y = k x) : (l.filterMap f).map g = l.map k := by
  induction l with
  | nil => rfl
  | cons a l ih =>
    obtain ⟨y, hy, hg⟩ := h a List.mem_cons_self
    rw [List.filterMap_cons_some hy, List.map_cons, List.map_cons, hg, ih (fun x hx => h x (List.mem_cons_of_mem _ hx))]

/-- What boarding does not change of a row is read off the draw it was written from. -/
lemma map_of_core {α γ : Type} {rows : List TicketRow} {l : List α} {k : α → TicketRow}
    (h : rows.map TicketRow.core = l.map k) (f : TicketRow → γ) (g : α → γ)
    (hf : ∀ t, f (TicketRow.core t) = f t) (hg : ∀ x, f (k x) = g x) : rows.map f = l.map g := by
  have hmap := congrArg (List.map f) h
  rw [List.map_map, List.map_map] at hmap
  rw [List.map_congr_left (fun t _ => (hf t).symm), List.map_congr_left (fun x _ => (hg x).symm)]
  exact hmap

/-- The rows of an order are the tickets it was issued. -/
lemma Exact.issued (h : Exact db orderId signer seats admitted) :
    (ticketsOf db orderId).map (fun t => issuedAs (TicketRow.core t)) =
      (seats.map (seatTicket orderId signer) ++ admitted.map (admissionTicket orderId signer)).map issuedAs := by
  rw [← h.rows, List.map_map]
  rfl

lemma Exact.oneEach (h : Exact db orderId signer seats admitted) :
    ∃ seatRows admittedRows, OneEach db orderId seatRows admittedRows := by
  obtain ⟨seatRows, admittedRows, hrows, hseat, hadm⟩ := List.map_eq_append_iff.mp h.rows
  refine ⟨seatRows, admittedRows, hrows, ?_, ?_, ?_, ?_⟩
  · rw [map_of_core hseat _ (fun l => (some l.2.2.id, l.2.1.item.tripId, l.2.1.item.unitId, l.2.1.item.span.fromIndex,
      l.2.1.item.span.toIndex)) (fun _ => rfl) (fun _ => rfl)]
    refine List.Perm.trans (List.Perm.of_eq ?_) (h.seatItems.map _)
    rw [List.map_map]
    refine List.map_congr_left (fun l hl => ?_)
    simp [(h.seatHolder l hl).1]
  · rw [map_of_core hadm _ (fun l => (l.2.item.tripId, l.2.item.unitId, l.2.item.span.fromIndex, l.2.item.span.toIndex))
      (fun _ => rfl) (fun _ => rfl)]
    refine List.Perm.trans (List.Perm.of_eq ?_) ((h.poolItems.map (fun r => (r.tripId, r.unitId, r.span.fromIndex,
      r.span.toIndex))).trans (List.Perm.of_eq ?_))
    · rw [List.map_map]
      rfl
    · rw [List.map_flatMap]
      simp only [List.map_replicate]
  · rw [map_of_core hadm _ (fun l => l.1.1) (fun _ => rfl) (fun _ => rfl)]
    exact h.bearers
  · intro t ht
    have hm : t.passengerId ∈ admitted.map (fun l => l.1.1) := by
      rw [← map_of_core hadm TicketRow.passengerId (fun l => l.1.1) (fun _ => rfl) (fun _ => rfl)]
      exact List.mem_map_of_mem ht
    obtain ⟨l, hl, he⟩ := List.mem_map.mp hm
    obtain ⟨now, hp⟩ := h.bearer l hl
    rw [← he]
    exact ⟨⟨_, hp, rfl⟩, h.unnamed l hl⟩

/-- What a later call reads is the set that was issued, boarding status aside. -/
lemma Exact.ticketsForOrder (h : Exact db orderId signer seats admitted) (hi : ItemsOk db) :
    ((db.ticketsForOrder orderId).map IssuedTicket.face).Perm
      ((ticketsOf db orderId).map (fun t => issuedAs (TicketRow.core t))) := by
  refine ((List.perm_insertionSort _ _).map _).trans (List.Perm.of_eq ?_)
  refine map_filterMap_eq (fun t ht => ?_)
  have hcode : ∀ r ∈ itemsOf db orderId, ∃ cu, db.capacityUnits.find? r.unitId = some cu ∧ cu.code = r.unitCode :=
    fun r hr => (hi r (Lib.Table.mem_select.mp hr).1).code
  have hm : TicketRow.core t ∈ seats.map (seatTicket orderId signer) ++ admitted.map (admissionTicket orderId signer) := by
    rw [← h.rows]
    exact List.mem_map_of_mem ht
  -- the passenger and the unit the join finds are those the token was signed for
  have hjoin : ∀ p cu, db.passengers.find? t.passengerId = some p → db.capacityUnits.find? t.unitId = some cu →
      p.fullName = t.token.claims.pax → cu.code = t.token.claims.unt →
      ∃ y, db.joinTicket t = some y ∧ IssuedTicket.face y = issuedAs (TicketRow.core t) := by
    intro p cu hp hcu hpax hunt
    refine ⟨⟨t.id, t.passengerId, p.fullName, cu.code, t.status, t.token⟩, ?_, ?_⟩
    · unfold joinTicket
      rw [hp, hcu]
    · rw [hpax, hunt]
      rfl
  rcases List.mem_append.mp hm with hm | hm
  · obtain ⟨l, hl, he⟩ := List.mem_map.mp hm
    have hitem : l.2.1.item ∈ itemsOf db orderId :=
      List.mem_of_mem_filter (h.seatItems.mem_iff.mp (List.mem_map_of_mem hl))
    obtain ⟨cu, hcu, hc⟩ := hcode _ hitem
    obtain ⟨-, hp⟩ := h.seatHolder l hl
    have hpid : l.2.2.id = t.passengerId := congrArg TicketRow.passengerId he
    have huid : l.2.1.item.unitId = t.unitId := congrArg TicketRow.unitId he
    have htoken := congrArg (fun r : TicketRow => r.token.claims) he
    exact hjoin l.2.2 cu (by rw [← hpid]; exact hp) (by rw [← huid]; exact hcu)
      (congrArg TicketClaims.pax htoken) (hc.trans (congrArg TicketClaims.unt htoken))
  · obtain ⟨l, hl, he⟩ := List.mem_map.mp hm
    have hitem : l.2.item ∈ itemsOf db orderId := by
      obtain ⟨r, hr, hrep⟩ := List.mem_flatMap.mp (h.poolItems.mem_iff.mp (List.mem_map_of_mem hl))
      rw [(List.mem_replicate.mp hrep).2]
      exact List.mem_of_mem_filter hr
    obtain ⟨cu, hcu, hc⟩ := hcode _ hitem
    obtain ⟨now, hp⟩ := h.bearer l hl
    have hpid : l.1.1 = t.passengerId := congrArg TicketRow.passengerId he
    have huid : l.2.item.unitId = t.unitId := congrArg TicketRow.unitId he
    have htoken := congrArg (fun r : TicketRow => r.token.claims) he
    exact hjoin _ cu (by rw [← hpid]; exact hp) (by rw [← huid]; exact hcu)
      (congrArg TicketClaims.pax htoken) (hc.trans (congrArg TicketClaims.unt htoken))

end Rows

section Calls

variable {app : AppState} {db₀ : Db} {pid : Nat} {i : Request} {orderId : Uuid}

lemma issuedIn_append (h h' : List Event) : issuedIn (h ++ h') = issuedIn h ++ issuedIn h' := by
  simp [issuedIn]

lemma issuedIn_later {h h' : List Event} (hl : Site.Later pid h h') {x : Uuid × List IssuedTicket}
    (hx : x ∈ issuedIn h) : x ∈ issuedIn h' := by
  obtain ⟨l, rfl, -⟩ := hl
  rw [issuedIn_append]
  exact List.mem_append_left _ hx

/-- An order is only taken for ticketed while it is. -/
lemma alreadyTicketed_lock {signer : TicketSigner} {w : Oracle} {s : World}
    (h : ((Tx.issueForOrder orderId signer).run w s).1 = .issued .alreadyTicketed) :
    ∃ cur, s.db.lockOrder orderId = some cur ∧ (cur = .ticketed ∨ cur = .boarded) := by
  rw [run_of_not_failed (by simp [h])] at h
  obtain ⟨outcome, db', hr, ho⟩ := settle_eq h (by simp)
  cases ho
  change s.db.issueForOrder (s.db.lockOrder orderId) _ orderId signer s.now w.fresh = _ at hr
  cases hc : s.db.lockOrder orderId with
  | none =>
    rw [hc] at hr
    cases hr
  | some cur =>
    refine ⟨cur, rfl, ?_⟩
    rw [hc] at hr
    simp only [issueForOrder] at hr
    split_ifs at hr with hdone hpaid
    · exact hdone
    · cases hr
    · rw [not_not] at hpaid
      subst hpaid
      simp only [apply] at hr
      obtain ⟨_, -, hr⟩ := bind_eq_ok.mp hr
      obtain ⟨_, -, hr⟩ := bind_eq_ok.mp hr
      obtain ⟨_, -, hr⟩ := bind_eq_ok.mp hr
      cases hr

/-- What an issue call returns is what was issued, by itself or before. -/
lemma issueForOrder_keeps {h : List Event} (h₀ : db₀.Seeded) :
    (site app).Keeps (fun _ _ _ => True) (fun s h => RunOk db₀ s h) pid i
      (OnOk (fun g ts => ∃ tickets, (orderId, tickets) ∈ issuedIn g ∧
        (ts.map IssuedTicket.face).Perm (tickets.map IssuedTicket.face)))
      (TicketStore.issueForOrder orderId) h := by
  unfold TicketStore.issueForOrder
  refine keeps_seq (R := fun _ _ => True) ?_ (fun signer g _ => ?_) (fun _ _ _ _ _ => onOk_error)
  · unfold TicketStore.activeSigner
    refine keeps_seq (R := fun _ _ => True) (keeps_query (fun _ _ => trivial) (fun _ _ _ _ _ _ => trivial))
      (fun row g _ => ?_) (fun _ _ _ _ _ => trivial)
    cases row with
    | none => exact keeps_throw (fun _ _ => trivial)
    | some row =>
      simp only
      split
      · exact keeps_throw (fun _ _ => trivial)
      · exact keeps_pure (fun _ _ => trivial)
  · refine keeps_seq (R := OnOk (fun g o => match o with
        | .issued tickets => (orderId, tickets) ∈ issuedIn g
        | .alreadyTicketed => orderId ∈ (issuedIn g).map Prod.fst
        | _ => True)) ?_ (fun o g ho => ?_) (fun _ _ _ _ _ => onOk_error)
    · refine keeps_transact (fun w s g _ hI _ => ⟨hI.commit h₀ pid i w trivial, fun g' hg' o ho => ?_⟩)
      have hr : ((Tx.issueForOrder orderId signer).run w s).1 = .issued o := by
        have hf := txResult_eq_ok ho
        cases hres : ((Tx.issueForOrder orderId signer).run w s).1 <;> rw [hres] at hf <;> cases hf
        rfl
      cases o with
      | issued tickets =>
        refine issuedIn_later hg' ?_
        rw [issuedIn_append]
        refine List.mem_append_right _ ?_
        simp [issuedIn, hr, issuedBy]
      | alreadyTicketed =>
        obtain ⟨cur, hc, hcur⟩ := alreadyTicketed_lock hr
        have hlog : orderId ∈ (issuedIn g).map Prod.fst := by
          rcases hcur with rfl | rfl <;> exact hI.issuance.logged orderId _ hc rfl (by decide)
        obtain ⟨x, hx, rfl⟩ := List.mem_map.mp hlog
        refine List.mem_map_of_mem (issuedIn_later hg' ?_)
        rw [issuedIn_append]
        exact List.mem_append_left _ hx
      | notPaid status => trivial
      | orderNotFound => trivial
    · rw [onOk_ok] at ho
      cases o with
      | issued tickets =>
        refine keeps_pure (fun g' hg' => onOk_ok.mpr ⟨tickets, issuedIn_later hg' ho, List.Perm.refl _⟩)
      | alreadyTicketed =>
        refine keeps_query (fun _ _ => onOk_error) (fun w g' hg hI g'' hg' => onOk_ok.mpr ?_)
        obtain ⟨⟨id, tickets⟩, hx, rfl⟩ := List.mem_map.mp ho
        have hx' := issuedIn_later hg hx
        obtain ⟨signer', seats, admitted, hex, rfl⟩ := hI.issuance.exact id tickets hx'
        refine ⟨_, issuedIn_later hg' hx', ?_⟩
        refine (hex.ticketsForOrder hI.items).trans (List.Perm.of_eq ?_)
        rw [hex.issued, List.map_map]
        rfl
      | notPaid status => exact keeps_throw (fun _ _ => onOk_error)
      | orderNotFound => exact keeps_throw (fun _ _ => onOk_error)

/-- The answers to issue calls, along every run. -/
lemma issue_protocol (h₀ : db₀.Seeded) :
    Site.Protocol (site app) (fun _ _ _ => True) (RunOk db₀) (fun _ i g a => ∀ orderId ts,
      i = .issueTickets orderId → a = .ok (.tickets ts) → ∃ tickets, (orderId, tickets) ∈ issuedIn g ∧
        (ts.map IssuedTicket.face).Perm (tickets.map IssuedTicket.face)) where
  env _ _ _ hr := ⟨hr.units, hr.balanced, hr.released, hr.streams, hr.items, hr.issuance⟩
  answer _ _ _ _ _ hr _ _ := hr.quiet (by simp)
  arrive s h i hr _ _ := by
    refine ⟨hr.quiet (by simp), ?_⟩
    by_cases hi : ∃ orderId, i = .issueTickets orderId
    · obtain ⟨orderId, rfl⟩ := hi
      refine keeps_answer (keeps_mapErr (issueForOrder_keeps h₀) (T := OnOk (fun g ts => ∃ tickets,
        (orderId, tickets) ∈ issuedIn g ∧ (ts.map IssuedTicket.face).Perm (tickets.map IssuedTicket.face))) ?_ ?_) ?_
      · intro ts g hR g' hg
        obtain ⟨tickets, hm, hp⟩ := onOk_ok.mp hR
        exact onOk_ok.mpr ⟨tickets, issuedIn_later hg hm, hp⟩
      · exact fun _ _ _ _ _ => onOk_error
      · intro r g hR g' hg id ts hi ha
        cases hi
        cases r with
        | error e => cases ha
        | ok ts' =>
          cases ha
          obtain ⟨tickets, hm, hp⟩ := onOk_ok.mp hR
          exact ⟨tickets, issuedIn_later hg hm, hp⟩
    · refine Site.Keeps.weaken (runOk_keeps h₀ _ i i _) ?_
      exact fun _ _ _ id _ h _ => absurd ⟨id, h⟩ hi

/-- Tickets are issued once: along every run, an order has none before its step to
Ticketed, that step is taken at most once and writes one for each seat and one for each
admission, nothing adds or removes any later, and every issue call that succeeds returns
that set. -/
theorem tickets_issued_once {s : World}
    {c : LockConf Request World Tx TxResult Call Reply Answer Uuid LockRead LockRead} (hs : s.db.Seeded)
    (hc : Reaches app s c) :
    ((issuedIn c.trace).map Prod.fst).Nodup ∧
    (∀ orderId cur, c.store.db.lockOrder orderId = some cur → cur = .ticketed ∨ cur = .boarded ∨ cur = .completed →
      orderId ∈ (issuedIn c.trace).map Prod.fst) ∧
    (∀ orderId, orderId ∉ (issuedIn c.trace).map Prod.fst → ticketsOf c.store.db orderId = []) ∧
    (∀ orderId tickets, (orderId, tickets) ∈ issuedIn c.trace →
      (ticketsOf c.store.db orderId).map (fun t => issuedAs (TicketRow.core t)) = tickets ∧
      ∃ seats admitted, OneEach c.store.db orderId seats admitted) ∧
    (∀ pid orderId ts, .answer pid (.issueTickets orderId) (.ok (.tickets ts)) ∈ c.trace →
      ∃ tickets, (orderId, tickets) ∈ issuedIn c.trace ∧
        (ts.map IssuedTicket.face).Perm (tickets.map IssuedTicket.face)) := by
  have hr := hc.runOk hs
  refine ⟨hr.issuance.once, ?_, hr.issuance.unissued, ?_, ?_⟩
  · rintro orderId cur hl (rfl | rfl | rfl) <;> exact hr.issuance.logged orderId _ hl rfl (by decide)
  · intro orderId tickets hm
    obtain ⟨signer, seats, admitted, hex, rfl⟩ := hr.issuance.exact orderId tickets hm
    exact ⟨hex.issued, hex.oneEach⟩
  · intro pid orderId ts hm
    have hat := (rowLocks app).reachable_atomic hc
    obtain ⟨g, l, hl⟩ := List.append_of_mem hm
    have hg : g ++ [.answer pid (.issueTickets orderId) (.ok (.tickets ts))] <+: c.trace := ⟨l, by rw [hl]; simp⟩
    obtain ⟨tickets, ht, hp⟩ := (issue_protocol hs).answered (runOk_of_seeded hs) hat hg orderId ts rfl rfl
    refine ⟨tickets, ?_, hp⟩
    rw [hl, issuedIn_append]
    exact List.mem_append_left _ ht

/-- Ana pays; while the callback is still issuing her tickets she asks for them herself. -/
def ticketRun : List (LockAct Request Reply Oracle Nat) :=
  [.arrive (.storeCreate booking), .read 0 true, .read 0 true, .peek 0, .short 0 (drawn 100),
    .arrive (.requestPayment 100), .read 2 true, .reply 2 (.intent (.ok ⟨"pi_1", none⟩)), .lock 2, .plan 2,
    .commit 2 (drawn 0), .arrive (.paymentWebhook none none "pi_1"), .read 5 true, .lock 5, .plan 5,
    .commit 5 (drawn 0), .read 5 true, .read 5 true, .arrive (.issueTickets 100), .read 7 true, .lock 5, .plan 5,
    .commit 5 (drawn 200), .lock 7, .plan 7, .commit 7 (drawn 300), .read 7 true, .answer 7]

theorem tickets_issued_once_harbour : ∃ c, Reaches sandbox harbour c ∧
    (issuedIn c.trace).map (fun x => x.2.length) = [3] ∧ ((issuedIn c.trace).map Prod.fst).Nodup ∧
    ∀ x ∈ issuedIn c.trace, (ticketsOf c.store.db x.1).map (fun t => issuedAs (TicketRow.core t)) = x.2 := by
  have hrun : ((rowLocks sandbox).exec (RowLocks.init harbour) ticketRun).map
      (fun c => (issuedIn c.trace).map (fun x => x.2.length)) = some [3] := by decide
  obtain ⟨c, hc, hlen⟩ := Option.map_eq_some_iff.mp hrun
  have hreach : Reaches sandbox harbour c := RowLocks.reachable_of_exec hc
  obtain ⟨honce, -, -, hrows, -⟩ := tickets_issued_once harbour_seeded hreach
  exact ⟨c, hreach, hlen, honce, fun x hx => (hrows x.1 x.2 hx).1⟩

end Calls

end Lulan.Proofs
