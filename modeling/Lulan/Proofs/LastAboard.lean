import Lulan.Api.Scans

/-!
# The last passenger aboard

An order is Boarded exactly when all its tickets are, as long as the scan that boards its last
ticket has counted the tickets after every other scan of the order has committed.
-/

namespace Lulan.Proofs

open Lulan Lib
open Lib.ReadCommitted (Conn Session Script Stable Wp)

abbrev ScanTable : Type := Table Scans.Row.id

abbrev ScanAnswer : Type := Except ApiError (List ScanOutcome)

abbrev GateEvent : Type := ReadCommitted.Ev Scans.SyncRequest Scans.Row.id ScanAnswer

abbrev GateConf : Type := ReadCommitted.Conf Scans.SyncRequest Scans.Row.id ScanAnswer

section Views

variable {s t : ScanTable} {id : Uuid}

/-- The tickets and the orders of a table. -/
def ticketIn (s : ScanTable) (id : Uuid) : Option TicketRow := (s.find? (.ticket id)).bind Scans.Row.ticket?

def orderIn (s : ScanTable) (id : Uuid) : Option OrderRow := (s.find? (.order id)).bind Scans.Row.order?

lemma ticketIn_eq_some {tk : TicketRow} :
    ticketIn s id = some tk ↔ s.find? (.ticket id) = some (.ticket tk) := by
  constructor
  · intro h
    obtain ⟨r, hr, hticket⟩ := Option.bind_eq_some_iff.mp h
    cases r with
    | ticket tk' =>
      cases hticket
      exact hr
    | _ => cases hticket
  · intro h
    rw [ticketIn, h]
    rfl

lemma orderIn_eq_some {o : OrderRow} : orderIn s id = some o ↔ s.find? (.order id) = some (.order o) := by
  constructor
  · intro h
    obtain ⟨r, hr, horder⟩ := Option.bind_eq_some_iff.mp h
    cases r with
    | order o' =>
      cases horder
      exact hr
    | _ => cases horder
  · intro h
    rw [orderIn, h]
    rfl

lemma ticketIn_id {tk : TicketRow} (h : ticketIn s id = some tk) : tk.id = id := by
  have hkey := Table.find?_key (ticketIn_eq_some.mp h)
  cases hkey
  rfl

lemma orderIn_id {o : OrderRow} (h : orderIn s id = some o) : o.id = id := by
  have hkey := Table.find?_key (orderIn_eq_some.mp h)
  cases hkey
  rfl

lemma mem_ticket {tk : TicketRow} : .ticket tk ∈ s.rows ↔ ticketIn s tk.id = some tk := by
  rw [ticketIn_eq_some]
  exact ⟨fun h => Table.find?_of_mem h, Table.find?_mem⟩

/-- A key that is found is the key of the row. -/
lemma find?_ticket_isSome (s : ScanTable) (id : Uuid) : (s.find? (.ticket id)).isSome = (ticketIn s id).isSome := by
  cases h : s.find? (.ticket id) with
  | none => rw [ticketIn, h]; rfl
  | some r =>
    have hkey := Table.find?_key h
    cases r with
    | ticket tk => rw [ticketIn, h]; rfl
    | _ => cases hkey

lemma find?_order_isSome (s : ScanTable) (id : Uuid) : (s.find? (.order id)).isSome = (orderIn s id).isSome := by
  cases h : s.find? (.order id) with
  | none => rw [orderIn, h]; rfl
  | some r =>
    have hkey := Table.find?_key h
    cases r with
    | order o => rw [orderIn, h]; rfl
    | _ => cases hkey

lemma ticketIn_merge : ticketIn (s.merge t) id = (ticketIn t id).or (ticketIn s id) := by
  unfold ticketIn
  rw [Table.find?_merge]
  cases h : t.find? (.ticket id) with
  | none => rfl
  | some r =>
    have hkey := Table.find?_key h
    cases r with
    | ticket tk => rfl
    | _ => cases hkey

lemma orderIn_merge : orderIn (s.merge t) id = (orderIn t id).or (orderIn s id) := by
  unfold orderIn
  rw [Table.find?_merge]
  cases h : t.find? (.order id) with
  | none => rfl
  | some r =>
    have hkey := Table.find?_key h
    cases r with
    | order o => rfl
    | _ => cases hkey

lemma ticketIn_put (t : ScanTable) (r : Scans.Row) (id : Uuid) :
    ticketIn (t.put r) id = if r.id = .ticket id then r.ticket? else ticketIn t id := by
  unfold ticketIn
  rw [Table.find?_put]
  split <;> rfl

lemma orderIn_put (t : ScanTable) (r : Scans.Row) (id : Uuid) :
    orderIn (t.put r) id = if r.id = .order id then r.order? else orderIn t id := by
  unfold orderIn
  rw [Table.find?_put]
  split <;> rfl

end Views

section Invariant

/-- No ticket of the order is left to board. -/
def NoneIssued (orderId : Uuid) (rows : List Scans.Row) : Prop :=
  ∀ t, .ticket t ∈ rows → t.orderId = orderId → t.status ≠ .issued

/-- An order is Boarded exactly when all its tickets are. -/
def BoardedIff (orderId : Uuid) (s : ScanTable) : Prop :=
  (∃ o, .order o ∈ s.rows ∧ o.id = orderId ∧ o.status = .boarded) ↔
    ∀ t, .ticket t ∈ s.rows → t.orderId = orderId → t.status = .boarded

/-- An order that has its tickets and was not refunded. -/
structure Sailing (orderId : Uuid) (s : ScanTable) : Prop where
  order : ∃ o, orderIn s orderId = some o ∧ (o.status = .ticketed ∨ o.status = .boarded)
  ticket : ∃ t, .ticket t ∈ s.rows ∧ t.orderId = orderId
  sound : ∀ t, .ticket t ∈ s.rows → t.orderId = orderId → t.status ≠ .void
  boarded : BoardedIff orderId s

/-- What the transaction of a request has counted last. -/
def lastCountBy (pid : Nat) (seen : Option (List Scans.Row)) : GateEvent → Option (List Scans.Row)
  | .did q _ (.snap _ .select rows) => if q = pid then some rows else seen
  | .did q _ (.commit _ _) => if q = pid then none else seen
  | _ => seen

def lastCount (pid : Nat) (h : List GateEvent) : Option (List Scans.Row) := h.foldl (lastCountBy pid) none

/-- The scan whose commit leaves no ticket of the order to board has counted none. -/
def LastCountsAll (orderId : Uuid) (s : ScanTable) (h : List GateEvent) (ev : GateEvent) : Prop :=
  match ev with
  | .did pid _ (.commit _ rows) =>
    NoneIssued orderId (s.merge rows).rows → ∀ seen, lastCount pid h = some seen → NoneIssued orderId seen
  | _ => True

/-- Tickets go aboard, and nothing else happens to them. -/
def Boards (s s' : ScanTable) : Prop :=
  ∀ id t', ticketIn s' id = some t' → ∃ t, ticketIn s id = some t ∧ t.orderId = t'.orderId ∧
    (t'.status = t.status ∨ t'.status = .boarded)

/-- Every event leaves the order as its tickets are. -/
def Lands (orderId : Uuid) (s : ScanTable) (_ : List GateEvent) (ev : GateEvent) : Prop :=
  Boards s (ev.store s) ∧ Sailing orderId (ev.store s)

variable {orderId : Uuid} {s s' : ScanTable} {pid : Nat} {h : List GateEvent} {ev : GateEvent}

lemma boards_refl (s : ScanTable) : Boards s s := fun _ t ht => ⟨t, ht, rfl, .inl rfl⟩

lemma lastCount_concat (pid : Nat) (h : List GateEvent) (ev : GateEvent) :
    lastCount pid (h ++ [ev]) = lastCountBy pid (lastCount pid h) ev := by
  rw [lastCount, List.foldl_append]
  rfl

lemma lastCount_other (hne : ev.pid ≠ pid) : lastCount pid (h ++ [ev]) = lastCount pid h := by
  rw [lastCount_concat]
  cases ev with
  | arrive q i => rfl
  | did q i n =>
    have hq : q ≠ pid := hne
    cases n with
    | snap d kind rows => cases kind <;> first | rfl | exact if_neg hq
    | commit d rows => exact if_neg hq
    | _ => rfl

lemma mem_order {o : OrderRow} : .order o ∈ s.rows ↔ orderIn s o.id = some o := by
  rw [orderIn_eq_some]
  exact ⟨fun h => Table.find?_of_mem h, Table.find?_mem⟩

lemma boardedIff_iff : BoardedIff orderId s ↔ ((∃ o, orderIn s orderId = some o ∧ o.status = .boarded) ↔
    ∀ id t, ticketIn s id = some t → t.orderId = orderId → t.status = .boarded) := by
  refine iff_congr ⟨?_, ?_⟩ ⟨fun h id t ht => h t ?_, fun h t ht => h t.id t (mem_ticket.mp ht)⟩
  · rintro ⟨o, ho, hid, hb⟩
    exact ⟨o, hid ▸ mem_order.mp ho, hb⟩
  · rintro ⟨o, ho, hb⟩
    exact ⟨o, mem_order.mpr (by rw [orderIn_id ho]; exact ho), orderIn_id ho, hb⟩
  · exact mem_ticket.mpr (by rw [ticketIn_id ht]; exact ht)

/-- Sailing, by the keys of the rows. -/
lemma sailing_iff : Sailing orderId s ↔
    (∃ o, orderIn s orderId = some o ∧ (o.status = .ticketed ∨ o.status = .boarded)) ∧
    (∃ id t, ticketIn s id = some t ∧ t.orderId = orderId) ∧
    (∀ id t, ticketIn s id = some t → t.orderId = orderId → t.status ≠ .void) ∧
    ((∃ o, orderIn s orderId = some o ∧ o.status = .boarded) ↔
      ∀ id t, ticketIn s id = some t → t.orderId = orderId → t.status = .boarded) := by
  constructor
  · rintro ⟨ho, ⟨t, ht, hto⟩, hv, hb⟩
    refine ⟨ho, ⟨t.id, t, mem_ticket.mp ht, hto⟩, fun id t ht => hv t ?_, boardedIff_iff.mp hb⟩
    exact mem_ticket.mpr (by rw [ticketIn_id ht]; exact ht)
  · rintro ⟨ho, ⟨id, t, ht, hto⟩, hv, hb⟩
    refine ⟨ho, ⟨t, ?_, hto⟩, fun t ht => hv t.id t (mem_ticket.mp ht), boardedIff_iff.mpr hb⟩
    exact mem_ticket.mpr (by rw [ticketIn_id ht]; exact ht)

lemma noneIssued_iff : NoneIssued orderId s.rows ↔
    ∀ id t, ticketIn s id = some t → t.orderId = orderId → t.status ≠ .issued := by
  refine ⟨fun h id t ht => h t ?_, fun h t ht => h t.id t (mem_ticket.mp ht)⟩
  exact mem_ticket.mpr (by rw [ticketIn_id ht]; exact ht)

lemma sailing_of_views (hticket : ∀ id, ticketIn s' id = ticketIn s id)
    (horder : orderIn s' orderId = orderIn s orderId) (hs : Sailing orderId s) : Sailing orderId s' := by
  rw [sailing_iff] at hs ⊢
  simp only [hticket, horder]
  exact hs

lemma boards_of_views (hticket : ∀ id, ticketIn s' id = ticketIn s id) : Boards s s' :=
  fun id t ht => ⟨t, (hticket id).symm.trans ht, rfl, .inl rfl⟩

/-- What is not a commit leaves everything as it is. -/
lemma lands_quiet (he : ev.store s = s) (hs : Sailing orderId s) : Lands orderId s h ev := by
  unfold Lands
  rw [he]
  exact ⟨boards_refl s, hs⟩

end Invariant

section Requests

variable {orderId : Uuid} {s s' : ScanTable} {pid : Nat} {h : List GateEvent} {ev : GateEvent} {i : Scans.SyncRequest}
  {own : Conn → ScanTable} {tk tk' : TicketRow} {o o' : Option OrderRow} {seen : Option (List Scans.Row)}

/-- The rows a transaction has locked or written: a ticket, and the order or not. -/
structure Writes (own : Conn → ScanTable) (tk : TicketRow) (o : Option OrderRow) : Prop where
  side : own .side = .empty
  ticket : ∀ id, ticketIn (own .main) id = if tk.id = id then some tk else none
  order : ∀ id, orderIn (own .main) id = o.filter (fun o => decide (o.id = id))

/-- Those rows as they are committed, and what the transaction has counted. -/
structure Stands (orderId : Uuid) (pid : Nat) (tk : TicketRow) (o : Option OrderRow) (seen : Option (List Scans.Row))
    (s : ScanTable) (h : List GateEvent) : Prop where
  ticket : ticketIn s tk.id = some tk
  order : ∀ x, o = some x → orderIn s x.id = some x
  count : ∀ rows, seen = some rows → lastCount pid h = some rows
  others : ∀ rows, seen = some rows → NoneIssued orderId rows →
    ∀ id t, id ≠ tk.id → ticketIn s id = some t → t.orderId = orderId → t.status ≠ .issued

abbrev GateInv : Type := ReadCommitted.Inv Scans.SyncRequest Scans.Row.id ScanAnswer

abbrev GateWp (orderId : Uuid) (pid : Nat) (i : Scans.SyncRequest) {ε α : Type} (x : Scans.ScanScript ε α)
    (Q : α → (Conn → ScanTable) → GateInv) (own : Conn → ScanTable) : GateInv :=
  Wp (fun s _ => Sailing orderId s) (LastCountsAll orderId) (Lands orderId) pid i x Q own

/-- What a request holds stays as it is, and what it has counted is not undone. -/
lemma stands_stable (hc : Writes own tk' o') (htk : tk'.id = tk.id) (ho : o'.map OrderRow.id = o.map OrderRow.id) :
    Stable (fun s _ => Sailing orderId s) (Lands orderId) pid own (Stands orderId pid tk o seen) := by
  intro s h ev hne _ hE hf hs
  constructor
  · have hkey : ((own .main).find? (.ticket tk.id)) ≠ none := by
      rw [← Option.isSome_iff_ne_none, find?_ticket_isSome, hc.ticket, if_pos htk]
      rfl
    rw [ticketIn, hf .main _ hkey]
    exact hs.ticket
  · intro x hx
    have hkey : ((own .main).find? (.order x.id)) ≠ none := by
      rw [hx] at ho
      obtain ⟨y, rfl, hid⟩ := Option.map_eq_some_iff.mp ho
      rw [← Option.isSome_iff_ne_none, find?_order_isSome, hc.order, Option.filter_some, if_pos (decide_eq_true hid)]
      rfl
    rw [orderIn, hf .main _ hkey]
    exact hs.order x hx
  · intro rows hr
    rw [lastCount_other hne]
    exact hs.count rows hr
  · intro rows hr hn id t' hid ht' ho' hissued
    obtain ⟨t, ht, hsame, hst⟩ := hE.1 id t' ht'
    rcases hst with hst | hst
    · exact hs.others rows hr hn id t hid ht (hsame.trans ho') (hst.symm.trans hissued)
    · rw [hst] at hissued
      cases hissued

/-- What a request does between its count and its commit. -/
lemma Stands.did {n : ReadCommitted.Note Scans.Row.id ScanAnswer} (hs : Stands orderId pid tk o seen s h)
    (hn : lastCountBy pid (lastCount pid h) (.did pid i n) = lastCount pid h) :
    Stands orderId pid tk o seen s (h ++ [.did pid i n]) :=
  ⟨hs.ticket, hs.order, fun rows hr => by rw [lastCount_concat, hn]; exact hs.count rows hr, hs.others⟩

section Statements

lemma stands_locked (htk : ticketIn s tk.id = some tk) : Stands orderId pid tk none none s h :=
  ⟨htk, fun _ hx => (by cases hx), fun _ hr => (by cases hr), fun _ hr => by cases hr⟩

/-- The ticket is locked, if there is one. -/
lemma wp_lockTicket (ticketId : Uuid) : GateWp orderId pid i (Scans.sql (.change .main (Scans.lockTicket ticketId)))
    (fun done own s h => done.findSome? Scans.Row.ticket? = none ∧ own = (fun _ => .empty) ∨
      ∃ tk, tk.id = ticketId ∧ done.findSome? Scans.Row.ticket? = some tk ∧ Writes own tk none ∧
        Stands orderId pid tk none none s h)
    (fun _ => .empty) s h := by
  have hwrites {tk : TicketRow} : Writes (Function.update (fun _ => .empty) .main (Table.empty.put (.ticket tk)))
      tk none := by
    refine ⟨rfl, fun id => ?_, fun id => ?_⟩
    · rw [Function.update_self, ticketIn_put]
      simp only [Scans.Row.id, Scans.RowKey.ticket.injEq, Scans.Row.ticket?]
      rfl
    · rw [Function.update_self, orderIn_put, if_neg (by simp [Scans.Row.id])]
      rfl
  refine ReadCommitted.wp_adapt (ReadCommitted.wp_change_key (A := fun _ _ => True)
    (B := fun r s h => ∃ tk, r = .ticket tk ∧ tk.id = ticketId ∧ Stands orderId pid tk none none s h) (fun _ _ => rfl)
    rfl rfl rfl trivial (fun _ _ _ _ _ _ _ _ => trivial) (fun r hr => ?_) (fun s h _ hI _ => ⟨lands_quiet rfl hI, trivial⟩)
    (fun s h r _ hI hr _ => ⟨lands_quiet rfl hI, ?_⟩) (fun s h r hb hI => ?_) (fun s h _ _ _ => .inl ⟨rfl, rfl⟩))
  · intro s h ev hne hI hE hf hb
    obtain ⟨tk, rfl, hid, hs⟩ := hb
    exact ⟨tk, rfl, hid, stands_stable hwrites rfl rfl s h ev hne hI hE hf hs⟩
  · have hkey := Table.find?_key hr
    rw [Table.find?_merge] at hr
    cases r with
    | ticket tk =>
      cases hkey
      exact ⟨tk, rfl, rfl, stands_locked (ticketIn_eq_some.mpr hr)⟩
    | _ => cases hkey
  · obtain ⟨tk, rfl, hid, hs⟩ := hb
    exact .inr ⟨tk, hid, rfl, hwrites, hs⟩

/-- Rows that are neither tickets nor orders. -/
lemma wp_journal {n : ReadCommitted.Addition Scans.Row}
    (hn : ∀ rows, ∀ r ∈ n.rows rows, r.ticket? = none ∧ r.order? = none) (hc : Writes own tk' o')
    (htk : tk'.id = tk.id) (ho : o'.map OrderRow.id = o.map OrderRow.id) (hs : Stands orderId pid tk o seen s h) :
    GateWp orderId pid i (Script.add .main n)
      (fun _ own s h => Writes own tk' o' ∧ Stands orderId pid tk o seen s h) own s h := by
  have hput {t : ScanTable} {r : Scans.Row} (hr : r.ticket? = none ∧ r.order? = none)
      (ht : Writes (Function.update own .main t) tk' o') : Writes (Function.update own .main (t.put r)) tk' o' := by
    obtain ⟨hside, hticket, horder⟩ := ht
    refine ⟨hside, fun id => ?_, fun id => ?_⟩
    · rw [← hticket id, Function.update_self, Function.update_self, ticketIn_put, if_neg]
      intro he
      cases r with
      | ticket t => cases hr.1
      | _ => cases he
    · rw [← horder id, Function.update_self, Function.update_self, orderIn_put, if_neg]
      intro he
      cases r with
      | order t => cases hr.2
      | _ => cases he
  exact ReadCommitted.wp_add_keeps (T := fun t => Writes (Function.update own .main t) tk' o')
    (by rwa [Function.update_eq_self]) (fun rows t r hr ht => hput (hn rows r hr) ht) hs
    (fun t ht => stands_stable ht htk ho) (fun s h hs hI _ => ⟨lands_quiet rfl hI, hs.did rfl⟩)
    (fun s h r hs hI _ => ⟨lands_quiet rfl hI, hs.did rfl⟩) (fun done t s h ht hs _ => ⟨ht, hs⟩)

/-- The ticket as the transaction writes it. -/
def boardedAt (tk : TicketRow) (scannedAt : Timestamp) : TicketRow :=
  { tk with status := .boarded, boardedAt := some scannedAt }

lemma boardedAt_id (tk : TicketRow) (scannedAt : Timestamp) : (boardedAt tk scannedAt).id = tk.id := rfl

lemma boardedAt_orderId (tk : TicketRow) (scannedAt : Timestamp) : (boardedAt tk scannedAt).orderId = tk.orderId := rfl

/-- The ticket goes aboard, for the transaction. -/
lemma wp_boardTicket (scannedAt : Timestamp) (hc : Writes own tk none) (hs : Stands orderId pid tk none none s h) :
    GateWp orderId pid i (Scans.sql (.change .main (Scans.boardTicket tk.id scannedAt)))
      (fun _ own s h => Writes own (boardedAt tk scannedAt) none ∧ Stands orderId pid tk none none s h) own s h := by
  have hwrites : Writes (Function.update own .main ((own .main).put
      (.ticket (boardedAt tk scannedAt)))) (boardedAt tk scannedAt) none := by
    refine ⟨hc.side, fun id => ?_, fun id => ?_⟩
    · rw [Function.update_self, ticketIn_put, hc.ticket]
      simp only [Scans.Row.id, Scans.RowKey.ticket.injEq, Scans.Row.ticket?]
      split
      · rfl
      · rename_i hne
        exact if_neg hne
    · rw [Function.update_self, orderIn_put, if_neg (by simp [Scans.Row.id])]
      exact hc.order id
  refine ReadCommitted.wp_adapt (ReadCommitted.wp_change_key (A := Stands orderId pid tk none none)
    (B := fun r s h => r = .ticket tk ∧ Stands orderId pid tk none none s h) (fun _ _ => rfl) rfl rfl rfl hs
    (stands_stable hc rfl rfl) (fun r hr => ?_) (fun s h hs hI _ => ⟨lands_quiet rfl hI, hs.did rfl⟩)
    (fun s h r hs hI hr _ => ⟨lands_quiet rfl hI, ?_, hs.did rfl⟩) (fun s h r hb hI => ?_) (fun s h _ _ hnone => ?_))
  · intro s h ev hne hI hE hf hb
    obtain ⟨rfl, hs⟩ := hb
    exact ⟨rfl, stands_stable hwrites (boardedAt_id tk scannedAt) rfl s h ev hne hI hE hf hs⟩
  · have hown : ticketIn (s.merge (own .main)) tk.id = some tk := by
      rw [ticketIn_merge, hc.ticket, if_pos rfl, Option.some_or]
    rw [ticketIn_eq_some, hr] at hown
    exact Option.some.inj hown
  · obtain ⟨rfl, hs⟩ := hb
    exact ⟨hwrites, hs⟩
  · have hown := find?_ticket_isSome (own .main) tk.id
    rw [hnone, hc.ticket, if_pos rfl] at hown
    cases hown

/-- What the count finds, of the tickets of the others. -/
lemma wp_count (hc : Writes own tk' none) (htk : tk'.id = tk.id) (hs : Stands orderId pid tk none none s h) :
    GateWp orderId pid i (Scans.sql (.read .main))
      (fun rows own' s h => own' = own ∧ Stands orderId pid tk none (some rows) s h) own s h := by
  refine ReadCommitted.wp_adapt (ReadCommitted.wp_read hs (stands_stable hc htk rfl) (fun s h hs hI _ =>
    ⟨lands_quiet rfl hI, rfl, hs.ticket, hs.order, fun rows hr => ?_, fun rows hr hn id t hid ht ho => ?_⟩))
  · cases hr
    rw [lastCount_concat]
    exact if_pos rfl
  · cases hr
    refine noneIssued_iff.mp hn id t ?_ ho
    rw [ticketIn_merge, hc.ticket, if_neg (by rw [htk]; exact hid.symm), Option.none_or, ht]

lemma writes_order {x : OrderRow} (hc : Writes own tk' o') (ho : ∀ y, o' = some y → y.id = x.id) :
    Writes (Function.update own .main ((own .main).put (.order x))) tk' (some x) := by
  refine ⟨hc.side, fun id => ?_, fun id => ?_⟩
  · rw [Function.update_self, ticketIn_put, if_neg (by simp [Scans.Row.id])]
    exact hc.ticket id
  · rw [Function.update_self, orderIn_put, hc.order, Option.filter_some]
    simp only [Scans.Row.id, Scans.RowKey.order.injEq, Scans.Row.order?, decide_eq_true_eq]
    split
    · rfl
    · rename_i hne
      cases o' with
      | none => rfl
      | some y => rw [Option.filter_some, if_neg (by rw [ho y rfl]; simpa using hne)]

/-- The order is locked, if there is one. -/
lemma wp_lockOrder (k : Uuid) (hc : Writes own tk' none) (htk : tk'.id = tk.id)
    (hs : Stands orderId pid tk none seen s h) :
    GateWp orderId pid i (Scans.sql (.change .main (Scans.lockOrder k)))
      (fun done own s h => done.findSome? Scans.Row.order? = none ∨ ∃ x, x.id = k ∧
        done.findSome? Scans.Row.order? = some x ∧ Writes own tk' (some x) ∧ Stands orderId pid tk (some x) seen s h)
      own s h := by
  refine ReadCommitted.wp_adapt (ReadCommitted.wp_change_key (A := Stands orderId pid tk none seen)
    (B := fun r s h => ∃ x, r = .order x ∧ x.id = k ∧ Stands orderId pid tk (some x) seen s h) (fun _ _ => rfl) rfl rfl
    rfl hs (stands_stable hc htk rfl) (fun r hr => ?_) (fun s h hs hI _ => ⟨lands_quiet rfl hI, hs.did rfl⟩)
    (fun s h r hs hI hr _ => ⟨lands_quiet rfl hI, ?_⟩) (fun s h r hb hI => ?_) (fun s h _ _ _ => .inl rfl))
  · intro s h ev hne hI hE hf hb
    obtain ⟨x, rfl, hx, hs⟩ := hb
    exact ⟨x, rfl, hx, stands_stable (writes_order hc (fun _ hy => by cases hy)) htk rfl s h ev hne hI hE hf hs⟩
  · have hkey := Table.find?_key hr
    cases r with
    | order x =>
      cases hkey
      have hx := orderIn_eq_some.mpr hr
      rw [orderIn_merge, hc.order, Option.filter_none, Option.none_or] at hx
      exact ⟨x, rfl, rfl, hs.ticket, fun y hy => (by cases hy; exact hx),
        fun rows hrows => by rw [lastCount_concat]; exact hs.count rows hrows, hs.others⟩
    | _ => cases hkey
  · obtain ⟨x, rfl, hx, hs⟩ := hb
    exact .inr ⟨x, hx, rfl, writes_order hc (fun _ hy => by cases hy), hs⟩

lemma wp_setStatus {x : OrderRow} (next : OrderStatus) (hc : Writes own tk' (some x)) (htk : tk'.id = tk.id)
    (hs : Stands orderId pid tk (some x) seen s h) :
    GateWp orderId pid i (Scans.sql (.change .main (Scans.setStatus x.id next)))
      (fun _ own s h => Writes own tk' (some { x with status := next }) ∧ Stands orderId pid tk (some x) seen s h)
      own s h := by
  have hwrites := writes_order (x := { x with status := next }) hc (fun y hy => by cases hy; rfl)
  refine ReadCommitted.wp_adapt (ReadCommitted.wp_change_key (A := Stands orderId pid tk (some x) seen)
    (B := fun r s h => r = .order x ∧ Stands orderId pid tk (some x) seen s h) (fun _ _ => rfl) rfl rfl rfl hs
    (stands_stable hc htk rfl) (fun r hr => ?_) (fun s h hs hI _ => ⟨lands_quiet rfl hI, hs.did rfl⟩)
    (fun s h r hs hI hr _ => ⟨lands_quiet rfl hI, ?_, hs.did rfl⟩) (fun s h r hb hI => ?_) (fun s h _ _ hnone => ?_))
  · intro s h ev hne hI hE hf hb
    obtain ⟨rfl, hs⟩ := hb
    have hid : (some { x with status := next }).map OrderRow.id = (some x).map OrderRow.id := rfl
    exact ⟨rfl, stands_stable hwrites htk hid s h ev hne hI hE hf hs⟩
  · have hown : orderIn (s.merge (own .main)) x.id = some x := by
      rw [orderIn_merge, hc.order, Option.filter_some, if_pos (decide_eq_true rfl), Option.some_or]
    rw [orderIn_eq_some, hr] at hown
    exact Option.some.inj hown
  · obtain ⟨rfl, hs⟩ := hb
    exact ⟨hwrites, hs⟩
  · have hown := find?_order_isSome (own .main) x.id
    rw [hnone, hc.order, Option.filter_some, if_pos (decide_eq_true rfl)] at hown
    cases hown

/-- The order row of a transaction, against the committed one it has locked. -/
def Applies (k : Uuid) (tk' tk : TicketRow) (orderId : Uuid) (pid : Nat) (seen : Option (List Scans.Row))
    (own : Conn → ScanTable) (s : ScanTable) (h : List GateEvent) : Prop :=
  ∃ x y, x.id = k ∧ y.id = k ∧ (∀ next, apply (some x.status) .passengerBoarded = .ok next → y.status = next) ∧
    Writes own tk' (some y) ∧ Stands orderId pid tk (some x) seen s h

lemma wp_boardOrder (draw : Scans.Draw) (k : Uuid) (hc : Writes own tk' none) (htk : tk'.id = tk.id)
    (hs : Stands orderId pid tk none seen s h) :
    GateWp orderId pid i (Scans.boardOrder draw k) (fun _ => Applies k tk' tk orderId pid seen) own s h := by
  refine ReadCommitted.wp_bind (ReadCommitted.wp_mono (wp_lockOrder k hc htk hs) (fun done own s h hq => ?_))
  rcases hq with hnone | ⟨x, hx, hsome, hc, hs⟩
  · rw [hnone]
    exact ReadCommitted.wp_throw
  · rw [hsome]
    simp only
    cases happly : apply (some x.status) .passengerBoarded with
    | error e =>
      refine ReadCommitted.wp_pure ⟨x, x, hx, hx, fun next hn => ?_, hc, hs⟩
      rw [happly] at hn
      cases hn
    | ok next =>
      subst hx
      refine ReadCommitted.wp_bind (ReadCommitted.wp_mono (wp_setStatus next hc htk hs) (fun _ own s h hq => ?_))
      obtain ⟨hc, hs⟩ := hq
      have hid : (some { x with status := next }).map OrderRow.id = (some x).map OrderRow.id := rfl
      refine ReadCommitted.wp_bind (ReadCommitted.wp_adapt (ReadCommitted.wp_bind (ReadCommitted.wp_mono
        (wp_journal (fun rows r hr => ?_) hc htk hid hs) (fun _ own s h hq => ReadCommitted.wp_bind
          (ReadCommitted.wp_mono (wp_journal (fun rows r hr => ?_) hq.1 htk hid hq.2)
            (fun _ own s h hq => ReadCommitted.wp_pure (ReadCommitted.wp_pure ?_)))))))
      · rcases List.mem_cons.mp hr with rfl | hr
        · exact ⟨rfl, rfl⟩
        · cases List.mem_singleton.mp hr
          exact ⟨rfl, rfl⟩
      · cases List.mem_singleton.mp hr
        exact ⟨rfl, rfl⟩
      · refine ⟨x, { x with status := next }, rfl, rfl, fun next' hn => ?_, hq.1, hq.2⟩
        rw [happly] at hn
        cases hn
        rfl

/-- What a transaction comes to: it leaves the ticket as it is, or the ticket is aboard and the
order with it, if none was left to board. -/
def Finished (tk tk' : TicketRow) (o o' : Option OrderRow) (seen : Option (List Scans.Row)) : Prop :=
  tk' = tk ∧ o' = none ∨ tk.status = .issued ∧ tk'.status = .boarded ∧ ∃ rows, seen = some rows ∧
    (o' = none ∧ ¬NoneIssued tk.orderId rows ∨ NoneIssued tk.orderId rows ∧ ∃ x y, o = some x ∧ o' = some y ∧
      x.id = tk.orderId ∧ y.id = tk.orderId ∧
      ∀ next, apply (some x.status) .passengerBoarded = .ok next → y.status = next)

/-- A transaction commits an order with all its tickets aboard, or leaves it as it was. -/
lemma lands_commit (hc : Writes own tk' o') (htk : tk'.id = tk.id) (ho : tk'.orderId = tk.orderId)
    (hI : Sailing orderId s) (hs : Stands orderId pid tk o seen s h)
    (hG : LastCountsAll orderId s h (.did pid i (.commit .main (own .main))))
    (hend : Finished tk tk' o o' seen) :
    Lands orderId s h (.did pid i (.commit .main (own .main))) := by
  have hview (id : Uuid) : ticketIn (s.merge (own .main)) id = if tk.id = id then some tk' else ticketIn s id := by
    rw [ticketIn_merge, hc.ticket, htk]
    split <;> rfl
  have horders (id : Uuid) (hne : ∀ y, o' = some y → y.id ≠ id) : orderIn (s.merge (own .main)) id = orderIn s id := by
    rw [orderIn_merge, hc.order]
    cases o' with
    | none => rfl
    | some y => rw [Option.filter_some, if_neg (by simpa using hne y rfl), Option.none_or]
  rcases hend with ⟨rfl, rfl⟩ | ⟨hissued, hboarded, rows, rfl, hend⟩
  · have hsame (id : Uuid) : ticketIn (s.merge (own .main)) id = ticketIn s id := by
      rw [hview]
      split
      · rename_i he
        rw [← he, hs.ticket]
      · rfl
    exact ⟨boards_of_views hsame, sailing_of_views hsame (horders orderId (fun _ hy => by cases hy)) hI⟩
  refine ⟨fun id t' ht' => ?_, ?_⟩
  · change ticketIn (s.merge (own .main)) id = some t' at ht'
    rw [hview] at ht'
    split at ht'
    · rename_i he
      cases ht'
      exact ⟨tk, he ▸ hs.ticket, ho.symm, .inr hboarded⟩
    · exact ⟨t', ht', rfl, .inl rfl⟩
  change Sailing orderId (s.merge (own .main))
  rw [sailing_iff] at hI ⊢
  obtain ⟨⟨x₀, hx₀, hstatus⟩, ⟨id, t, ht, hto⟩, hsound, hlaw⟩ := hI
  have hticket : ∃ id t, ticketIn (s.merge (own .main)) id = some t ∧ t.orderId = orderId := by
    by_cases he : tk.id = id
    · subst he
      cases hs.ticket.symm.trans ht
      exact ⟨tk.id, tk', by rw [hview, if_pos rfl], ho.trans hto⟩
    · exact ⟨id, t, by rw [hview, if_neg he, ht], hto⟩
  have hvoid : ∀ id t, ticketIn (s.merge (own .main)) id = some t → t.orderId = orderId → t.status ≠ .void := by
    intro id t ht hto
    rw [hview] at ht
    split at ht
    · cases ht
      rw [hboarded]
      exact fun h => by cases h
    · exact hsound id t ht hto
  by_cases hmine : tk.orderId = orderId
  · have hnot : x₀.status = .ticketed := by
      refine hstatus.resolve_right (fun hb => ?_)
      have hall := hlaw.mp ⟨x₀, hx₀, hb⟩ tk.id tk hs.ticket hmine
      rw [hissued] at hall
      cases hall
    subst hmine
    rcases hend with ⟨rfl, hsome⟩ | ⟨hnone, x, y, rfl, rfl, hx, hy, hnext⟩
    · have horder := horders tk.orderId (fun _ hy => by cases hy)
      refine ⟨⟨x₀, horder.trans hx₀, hstatus⟩, hticket, hvoid, fun hb => ?_, fun hall => ?_⟩
      · obtain ⟨x, hx, hb⟩ := hb
        cases hx.symm.trans (horder.trans hx₀)
        rw [hnot] at hb
        cases hb
      · refine absurd (hG (noneIssued_iff.mpr (fun id t ht hto hi => ?_)) rows (hs.count rows rfl)) hsome
        have hb := hall id t ht hto
        rw [hi] at hb
        cases hb
    · have hxs := hs.order x rfl
      rw [hx, hx₀] at hxs
      cases hxs
      have hyb : y.status = .boarded := hnext .boarded (by rw [hnot]; rfl)
      have hyo : orderIn (s.merge (own .main)) tk.orderId = some y := by
        rw [orderIn_merge, hc.order, Option.filter_some, if_pos (decide_eq_true hy), Option.some_or]
      refine ⟨⟨y, hyo, .inr hyb⟩, hticket, hvoid, fun _ id t ht hto => ?_, fun _ => ⟨y, hyo, hyb⟩⟩
      have hnv := hvoid id t ht hto
      rw [hview] at ht
      split at ht
      · cases ht
        exact hboarded
      · rename_i hne
        have hni := hs.others rows rfl hnone id t (fun he => hne he.symm) ht hto
        cases hst : t.status with
        | issued => exact absurd hst hni
        | boarded => rfl
        | void => exact absurd hst hnv
  · have horder : orderIn (s.merge (own .main)) orderId = orderIn s orderId := by
      refine horders orderId (fun y hy hid => ?_)
      rcases hend with ⟨rfl, -⟩ | ⟨-, x, y', -, rfl, -, hy', -⟩
      · cases hy
      · cases hy
        exact hmine (hy'.symm.trans hid)
    refine ⟨⟨x₀, horder.trans hx₀, hstatus⟩, hticket, hvoid, ?_⟩
    rw [horder, hlaw]
    refine ⟨fun hall id t ht hto => ?_, fun hall id t ht hto => ?_⟩
    · rw [hview] at ht
      split at ht
      · cases ht
        exact hboarded
      · exact hall id t ht hto
    · refine hall id t ?_ hto
      rw [hview, if_neg, ht]
      rintro rfl
      cases hs.ticket.symm.trans ht
      exact hmine hto

/-- The end of a transaction. -/
lemma wp_end (hc : Writes own tk' o') (htk : tk'.id = tk.id) (ho : tk'.orderId = tk.orderId)
    (hid : o'.map OrderRow.id = o.map OrderRow.id) (hs : Stands orderId pid tk o seen s h)
    (hend : Finished tk tk' o o' seen) :
    GateWp orderId pid i (Scans.sql (.publish .main)) (fun _ own _ _ => own = fun _ => .empty) own s h := by
  refine ReadCommitted.wp_adapt (ReadCommitted.wp_publish hs (stands_stable hc htk hid) (fun s h hs hI hG => ?_))
  refine ⟨lands_commit hc htk ho hI hs hG hend, funext (fun d => ?_)⟩
  cases d with
  | main => exact Function.update_self ..
  | side => exact hc.side

/-- A transaction that leaves the ticket as it is. -/
lemma wp_close (ticketId : Uuid) (status : String) (hc : Writes own tk none)
    (hs : Stands orderId pid tk none none s h) :
    GateWp orderId pid i (Scans.close ticketId status) (fun _ own _ _ => own = fun _ => .empty) own s h :=
  ReadCommitted.wp_bind (ReadCommitted.wp_mono (wp_end hc rfl rfl rfl hs (.inl ⟨rfl, rfl⟩))
    (fun _ _ _ _ hown => ReadCommitted.wp_pure hown))

lemma unboarded_eq_zero {rows : List Scans.Row} {k : Uuid} : Scans.unboarded rows k = 0 ↔ NoneIssued k rows := by
  rw [Scans.unboarded, List.countP_eq_zero]
  refine ⟨fun h t ht ho hi => ?_, fun h t ht => ?_⟩
  · exact h t (List.mem_filterMap.mpr ⟨_, ht, rfl⟩) (by simp [ho, hi])
  · obtain ⟨r, hr, hticket⟩ := List.mem_filterMap.mp ht
    cases r with
    | ticket t' =>
      cases hticket
      simpa using h t hr
    | _ => cases hticket

/-- The transaction of a scan, from no rows held to no rows held. -/
lemma wp_recordScan (draw : Scans.Draw) (ticketId : Uuid) (deviceId : String) (scannedAt : Timestamp)
    (result : String) : GateWp orderId pid i (Scans.recordScan draw ticketId deviceId scannedAt result)
      (fun _ own _ _ => own = fun _ => .empty) (fun _ => .empty) s h := by
  refine ReadCommitted.wp_bind (ReadCommitted.wp_mono (wp_lockTicket ticketId) (fun done own s h hq => ?_))
  rcases hq with ⟨hnone, rfl⟩ | ⟨tk, rfl, hsome, hc, hs⟩
  · rw [hnone]
    exact ReadCommitted.wp_pure rfl
  rw [hsome]
  simp only
  refine ReadCommitted.wp_bind (ReadCommitted.wp_adapt (ReadCommitted.wp_mono
    (wp_journal (fun rows r hr => ?_) hc rfl rfl hs) (fun inserted own s h hq => ?_)))
  · cases List.mem_singleton.mp hr
    exact ⟨rfl, rfl⟩
  obtain ⟨hc, hs⟩ := hq
  split
  · exact wp_close _ _ hc hs
  split
  · exact wp_close _ _ hc hs
  · exact wp_close _ _ hc hs
  · rename_i hissued
    refine ReadCommitted.wp_bind (ReadCommitted.wp_mono (wp_boardTicket scannedAt hc hs) (fun _ own s h hq => ?_))
    obtain ⟨hc, hs⟩ := hq
    have hid := boardedAt_id tk scannedAt
    refine ReadCommitted.wp_bind (ReadCommitted.wp_mono (wp_count hc hid hs) (fun rows own s h hq => ?_))
    obtain ⟨rfl, hs⟩ := hq
    refine ReadCommitted.wp_bind ?_
    unfold Scans.lastAboard
    split
    · rename_i hzero
      refine ReadCommitted.wp_mono (wp_boardOrder draw tk.orderId hc hid hs) (fun _ own s h hq => ?_)
      obtain ⟨x, y, hx, hy, hnext, hc, hs⟩ := hq
      have horder : (some y).map OrderRow.id = (some x).map OrderRow.id := congrArg some (hy.trans hx.symm)
      exact ReadCommitted.wp_bind (ReadCommitted.wp_mono (wp_end hc hid (boardedAt_orderId tk scannedAt) horder hs
        (.inr ⟨hissued, rfl, rows, rfl, .inr ⟨unboarded_eq_zero.mp hzero, x, y, rfl, rfl, hx, hy, hnext⟩⟩))
          (fun _ _ _ _ hown => ReadCommitted.wp_pure hown))
    · rename_i hmore
      exact ReadCommitted.wp_pure (ReadCommitted.wp_bind (ReadCommitted.wp_mono (wp_end hc hid
        (boardedAt_orderId tk scannedAt) rfl hs
        (.inr ⟨hissued, rfl, rows, rfl, .inl ⟨rfl, fun h => hmore (unboarded_eq_zero.mpr h)⟩⟩))
          (fun _ _ _ _ hown => ReadCommitted.wp_pure hown)))

end Statements

lemma wp_syncScans (deviceId : String) (scans : List (ScanRequest × Scans.Draw)) :
    GateWp orderId pid i (Scans.syncScans deviceId scans) (fun _ own _ _ => own = fun _ => .empty)
      (fun _ => .empty) s h := by
  induction scans generalizing s h with
  | nil => exact ReadCommitted.wp_pure rfl
  | cons scan rest ih =>
    refine ReadCommitted.wp_bind (ReadCommitted.wp_adapt (ReadCommitted.wp_mono (wp_recordScan _ _ _ _ _)
      (fun _ own s h hown => ?_)))
    subst hown
    exact ReadCommitted.wp_bind (ReadCommitted.wp_mono ih (fun _ _ _ _ hown => ReadCommitted.wp_pure hown))

/-- Every batch of scans leaves the order as its tickets are. -/
lemma gates_protocol (orderId : Uuid) : ReadCommitted.Protocol Scans.gates (fun s _ => Sailing orderId s)
    (LastCountsAll orderId) (Lands orderId) where
  step _ _ _ _ hE := hE.2
  arrive _ _ _ hI _ := lands_quiet rfl hI
  safe s h i _ _ := by
    refine ReadCommitted.safe_of_wp (Q := fun _ own _ _ => own = fun _ => .empty) ?_
      (fun _ _ _ _ _ _ _ _ _ hown => hown) (fun _ _ _ hI _ => lands_quiet rfl hI)
      (fun _ _ _ _ _ hI _ => lands_quiet rfl hI)
    change GateWp orderId h.length i (Scans.sync i) _ _ s _
    unfold Scans.sync
    split
    · exact ReadCommitted.wp_throw
    split
    · exact ReadCommitted.wp_throw
    · exact wp_syncScans _ _

end Requests

section Main

variable {orderId : Uuid} {s : ScanTable} {c : GateConf}

/-- As long as the scan that boards the last ticket has counted after all the others, an order
is Boarded exactly when its tickets are. -/
theorem boarded_iff_all (h₀ : Sailing orderId s)
    (hc : ReadCommitted.ReachableWhen Scans.gates (LastCountsAll orderId) (ReadCommitted.init s) c) :
    BoardedIff orderId c.store :=
  ((gates_protocol orderId).invariant h₀ hc).1.boarded

end Main

section Harbour

instance (orderId : Uuid) (rows : List Scans.Row) : Decidable (NoneIssued orderId rows) :=
  decidable_of_iff (∀ t ∈ rows.filterMap Scans.Row.ticket?, t.orderId = orderId → t.status ≠ .issued) (by
    refine ⟨fun h t ht => h t (List.mem_filterMap.mpr ⟨_, ht, rfl⟩), fun h t ht => ?_⟩
    obtain ⟨r, hr, hticket⟩ := List.mem_filterMap.mp ht
    cases r with
    | ticket t' =>
      cases hticket
      exact h t hr
    | _ => cases hticket)

instance (orderId : Uuid) (s : ScanTable) (h : List GateEvent) (ev : GateEvent) :
    Decidable (LastCountsAll orderId s h ev) := by
  unfold LastCountsAll
  split
  · exact decidable_of_iff (NoneIssued orderId _ → ∀ seen ∈ lastCount _ h, NoneIssued orderId seen) Iff.rfl
  · infer_instance

/-- A ticket of Ana's party. -/
def partyTicket (id : Uuid) (unit : String) : TicketRow :=
  ⟨id, 100, id, 1, id, .issued, ⟨⟨1, id, 1, unit, 0, 2, "Ana", none, 172800, "k1"⟩, ⟨1⟩⟩, "k1", none⟩

/-- An order of two tickets, both issued. -/
def quay : ScanTable :=
  ⟨[.order ⟨100, "Ana", .ticketed, 2000, "PHP", some "pi_1", none, none, some "ana@example.com"⟩,
    .ticket (partyTicket 200 "1A"), .ticket (partyTicket 201 "1B")], by decide⟩

lemma quay_tickets {t : TicketRow} (h : .ticket t ∈ quay.rows) :
    t = partyTicket 200 "1A" ∨ t = partyTicket 201 "1B" := by
  simpa [quay] using h

lemma quay_sailing : Sailing 100 quay where
  order := ⟨_, rfl, .inl rfl⟩
  ticket := ⟨partyTicket 200 "1A", by simp [quay], rfl⟩
  sound t ht _ := by rcases quay_tickets ht with rfl | rfl <;> decide
  boarded := by
    constructor
    · rintro ⟨o, ho, -, hb⟩
      have hrow : o = ⟨100, "Ana", .ticketed, 2000, "PHP", some "pi_1", none, none, some "ana@example.com"⟩ := by
        simpa [quay] using ho
      rw [hrow] at hb
      cases hb
    · intro hall
      have hb := hall (partyTicket 200 "1A") (by simp [quay]) rfl
      cases hb

/-- A batch with one scan. -/
def gateScan (device : String) (ticketId : Uuid) (n : Nat) : Scans.SyncRequest :=
  ⟨device, [(⟨ticketId, 0, "ok"⟩, ⟨n, n⟩)]⟩

/-- The scan of `ticketId`, up to its count. -/
def countsRun (pid : Nat) (device : String) (ticketId : Uuid) :
    List (ReadCommitted.Act Scans.SyncRequest Scans.RowKey) :=
  [.move pid .step, .move pid (.row (.ticket ticketId)), .move pid .finish, .move pid .step,
    .move pid (.row (.scan (ticketId, device, 0))), .move pid .finish, .move pid .step,
    .move pid (.row (.ticket ticketId)), .move pid .finish, .move pid .step]

/-- The status of the order, and those of the tickets. -/
def statuses (s : ScanTable) : Option OrderStatus × List TicketStatus :=
  ((orderIn s 100).map OrderRow.status, (s.rows.filterMap Scans.Row.ticket?).map TicketRow.status)

/-- Both gates have counted before either has committed. -/
def togetherRun : List (ReadCommitted.Act Scans.SyncRequest Scans.RowKey) :=
  [.arrive (gateScan "gate-1" 200 1), .arrive (gateScan "gate-2" 201 2)] ++ countsRun 0 "gate-1" 200 ++
    countsRun 1 "gate-2" 201 ++ [.move 0 .step, .move 0 .step, .move 1 .step, .move 1 .step]

/-- The second gate scans after the first. -/
def inTurnRun : List (ReadCommitted.Act Scans.SyncRequest Scans.RowKey) :=
  [.arrive (gateScan "gate-1" 200 1)] ++ countsRun 0 "gate-1" 200 ++ [.move 0 .step, .move 0 .step,
    .arrive (gateScan "gate-2" 201 2)] ++ countsRun 10 "gate-2" 201 ++ [.move 10 .step, .move 10 (.row (.order 100)),
    .move 10 .finish, .move 10 .step, .move 10 (.row (.order 100)), .move 10 .finish, .move 10 .step,
    .move 10 (.row (.event 2)), .move 10 (.row (.position 100 1)), .move 10 .finish, .move 10 .step,
    .move 10 (.row (.outbox 2)), .move 10 .finish, .move 10 .step, .move 10 .step]

lemma statuses_boarded {s : ScanTable} {status : Option OrderStatus}
    (h : statuses s = (status, [.boarded, .boarded])) : BoardedIff 100 s ↔ status = some .boarded := by
  obtain ⟨horder, htickets⟩ := Prod.mk.inj h
  have hall : ∀ t, .ticket t ∈ s.rows → t.orderId = 100 → t.status = .boarded := by
    intro t ht _
    have hst : t.status ∈ (s.rows.filterMap Scans.Row.ticket?).map TicketRow.status :=
      List.mem_map.mpr ⟨t, List.mem_filterMap.mpr ⟨_, ht, rfl⟩, rfl⟩
    rw [htickets] at hst
    simpa using hst
  refine ⟨fun hb => ?_, fun hb => ⟨fun _ => hall, fun _ => ?_⟩⟩
  · obtain ⟨o, ho, hid, hst⟩ := hb.mpr hall
    rw [mem_order, hid] at ho
    rw [← horder, ho, Option.map_some, hst]
  · rw [hb] at horder
    obtain ⟨o, ho, hst⟩ := Option.map_eq_some_iff.mp horder
    exact ⟨o, mem_order.mpr (by rw [orderIn_id ho]; exact ho), orderIn_id ho, hst⟩

/-- Two gates at once: everybody is aboard and the order is still Ticketed. -/
theorem gates_miss_each_other : ¬ ∀ (orderId : Uuid) (s : ScanTable) (c : GateConf), Sailing orderId s →
    ReadCommitted.Reachable Scans.gates (ReadCommitted.init s) c → c.Quiet → BoardedIff orderId c.store := by
  intro hclaim
  have hrun : (ReadCommitted.exec Scans.gates (ReadCommitted.init quay) togetherRun).map (fun c =>
      (statuses c.store, (List.range c.trace.length).all (fun pid => (c.procs pid).isNone))) =
      some ((some .ticketed, [.boarded, .boarded]), true) := by decide
  obtain ⟨c, hexec, hend⟩ := Option.map_eq_some_iff.mp hrun
  obtain ⟨hst, hquiet⟩ := Prod.mk.inj hend
  have hc := ReadCommitted.reachable_of_exec hexec
  have hb := hclaim 100 quay c quay_sailing hc (ReadCommitted.quiet_of_range hc (fun pid hpid =>
    List.all_eq_true.mp hquiet pid (List.mem_range.mpr hpid)))
  cases (statuses_boarded hst).mp hb

/-- One gate after the other. -/
theorem boarded_iff_all_quay : ∃ c : GateConf, BoardedIff 100 c.store ∧
    statuses c.store = (some .boarded, [.boarded, .boarded]) := by
  have hrun : (ReadCommitted.execWhen Scans.gates (LastCountsAll 100) (ReadCommitted.init quay) inTurnRun).map
      (fun c => statuses c.store) = some (some .boarded, [.boarded, .boarded]) := by decide
  obtain ⟨c, hexec, hst⟩ := Option.map_eq_some_iff.mp hrun
  exact ⟨c, boarded_iff_all quay_sailing (ReadCommitted.reachable_of_execWhen hexec), hst⟩

end Harbour

end Lulan.Proofs
