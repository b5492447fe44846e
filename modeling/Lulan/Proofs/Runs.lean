import Lulan.Proofs.Handlers
import Lulan.Proofs.Issuance

/-!
# Runs of the system

The invariants of single transactions, carried along every interleaving; and the row
locks under which transactions may be taken as atomic.
-/

namespace Lulan.Proofs

open Lulan Lulan.Db Lib

/-- What was sold directly in a history. -/
def soldIn (h : List Event) : List (Cell × SegmentSpan × Int) :=
  h.flatMap (fun ev =>
    match ev with
    | .commit _ _ t r => soldBy t r
    | _ => [])

def directOf (h : List Event) : List (Claim Cell) := (soldIn h).map (fun x => spanClaim x.1 x.2.1 x.2.2)

/-- The issue steps of a history, in order. -/
def issuedIn (h : List Event) : List (Uuid × List IssuedTicket) :=
  h.flatMap (fun ev =>
    match ev with
    | .commit _ _ t r => issuedBy t r
    | _ => [])

/-- The releases of a history, with the rows each affected. -/
def releasesIn (h : List Event) : List (OrderItemRow × Nat) :=
  h.flatMap (fun ev =>
    match ev with
    | .commit _ _ _ r => releasedBy r
    | _ => [])

/-- What holds in every state the system reaches from a seeded database. -/
structure RunOk (db₀ : Db) (s : World) (h : List Event) : Prop where
  units : s.db.capacityUnits = db₀.capacityUnits
  balanced : Balanced db₀ s.db (directOf h)
  released : ∀ x ∈ releasesIn h, Regular db₀ (itemClaim x.1).cell → x.2 = 1
  streams : StreamsOk s.db
  items : ItemsOk s.db
  issuance : Issuance s.db (issuedIn h)

lemma RunOk.quiet {db₀ : Db} {s : World} {h : List Event} {ev : Event}
    (hev : ∀ pid i t r, ev ≠ .commit pid i t r) (hr : RunOk db₀ s h) : RunOk db₀ s (h ++ [ev]) := by
  obtain ⟨hd, hi, hrel⟩ : directOf (h ++ [ev]) = directOf h ∧ issuedIn (h ++ [ev]) = issuedIn h ∧
      releasesIn (h ++ [ev]) = releasesIn h := by
    cases ev with
    | commit pid i t r => exact absurd rfl (hev pid i t r)
    | arrive | call | answer => simp [directOf, soldIn, issuedIn, releasesIn]
  refine ⟨hr.units, ?_, ?_, hr.streams, hr.items, ?_⟩
  · rw [hd]
    exact hr.balanced
  · rw [hrel]
    exact hr.released
  · rw [hi]
    exact hr.issuance

/-- Every sound transaction keeps the system's invariants. -/
theorem RunOk.commit {db₀ : Db} {s : World} {h : List Event} {t : Tx} (h₀ : db₀.Seeded) (hr : RunOk db₀ s h)
    (pid : Nat) (i : Request) (w : Oracle) (hs : Sound db₀.capacityUnits t) :
    RunOk db₀ (t.run w s).2 (h ++ [.commit pid i t (t.run w s).1]) := by
  obtain ⟨he, -⟩ := run_effect t w s
  have hsound : Sound s.db.capacityUnits t := by
    rw [hr.units]
    exact hs
  obtain ⟨hbal, hrel⟩ := hr.balanced.step h₀ he (fun tripId unitId span qty ht => by
    subst ht
    exact hs)
  obtain ⟨hg, hitems⟩ := hr.items.step he hsound
  have hd : directOf (h ++ [.commit pid i t (t.run w s).1]) = directOf h ++ directClaim t (t.run w s).1 := by
    simp [directOf, soldIn, directClaim]
  have hi : issuedIn (h ++ [.commit pid i t (t.run w s).1]) = issuedIn h ++ issuedBy t (t.run w s).1 := by
    simp [issuedIn]
  have hl : releasesIn (h ++ [.commit pid i t (t.run w s).1]) = releasesIn h ++ releasedBy (t.run w s).1 := by
    simp [releasesIn]
  constructor
  · rw [hg.units, hr.units]
  · rw [hd]
    exact hbal
  · rw [hl]
    intro x hx
    rcases List.mem_append.mp hx with hx | hx
    · exact hr.released x hx
    · exact hrel x hx
  · exact hr.streams.step he
  · exact hitems
  · rw [hi]
    exact hr.issuance.step hr.items he hsound

lemma runOk_of_seeded {s : World} (h₀ : s.db.Seeded) : RunOk s.db s [] :=
  ⟨rfl, balanced_of_seeded h₀, by simp [releasesIn], streamsOk_of_seeded h₀, itemsOk_of_seeded h₀,
    issuance_of_seeded h₀⟩

/-- Every handler keeps the invariants. -/
lemma runOk_keeps {app : AppState} {db₀ : Db} (h₀ : db₀.Seeded) (pid : Nat) (i j : Request) (h : List Event) :
    (site app).Keeps (fun _ _ _ => True) (RunOk db₀) pid i (fun _ _ => True) (Request.handler app j) h := by
  refine (Lib.Site.keeps_of_only (handler_only (fun v => v.db.capacityUnits = db₀.capacityUnits) app j)
    (fun _ _ hr => hr.units) ?_ ?_ h).weaken (fun _ _ _ => trivial)
  · exact fun t w s h hP hr _ => hr.commit h₀ pid i w hP.sound
  · exact fun q b s h _ _ hr _ => hr.quiet (by simp)

/-- The invariants hold after any run, of any length and under any interleaving. -/
theorem runOk_of_reachable {app : AppState} {s : World} (h₀ : s.db.Seeded)
    {c : Lib.Conf Request World Tx TxResult Call Reply Answer} (hc : (site app).Reachable (Lib.Site.init s) c) :
    RunOk s.db c.store c.trace := by
  refine Lib.Site.store_invariant (S := site app) (J := fun v => v.db.capacityUnits = s.db.capacityUnits)
    (P := Runs (fun v => v.db.capacityUnits = s.db.capacityUnits) app) ?_ (runOk_of_seeded h₀) ?_ ?_ ?_ ?_ hc
  · intro i
    exact Lib.Prog.only_mono (handler_only _ app i) (fun _ h => h) (fun _ _ => trivial) (fun _ _ => trivial)
  · exact fun _ _ h => h.units
  · exact fun _ _ _ h => ⟨h.units, h.balanced, h.released, h.streams, h.items, h.issuance⟩
  · exact fun _ _ _ hev h => h.quiet hev
  · exact fun _ _ pid i t w hP h => h.commit h₀ pid i w hP.sound

section Locks

/-- The order row a transaction writes, if it writes one. -/
def touches (t : Tx) (w : Oracle) (s : World) : Option Uuid :=
  match t with
  | .createOrder .. => some (w.fresh 0)
  | .recordScan ticketId .. => (s.db.tickets.find? ticketId).map TicketRow.orderId
  | t => t.locks

lemma lockRead_congr {db db' : Db} (ho : db'.orders = db.orders) (he : db'.events = db.events) (k : Uuid) :
    (db'.orders.find? k).isSome = (db.orders.find? k).isSome ∧ db'.lockRead k = db.lockRead k := by
  unfold Db.lockRead Db.lockOrder Db.maxStreamSeq
  rw [ho, he]
  exact ⟨rfl, rfl⟩

/-- A transition leaves the rows and streams of the other orders alone. -/
lemma Advance.lockRead {db db' : Db} {orderId seq : Nat} {event : OrderEventType} {change : Lib.Assign OrderRow.id}
    (h : Advance db db' orderId seq event change) {k : Uuid} (hk : orderId ≠ k) :
    (db'.orders.find? k).isSome = (db.orders.find? k).isSome ∧ db'.lockRead k = db.lockRead k := by
  have hf := h.find?_orders k
  rw [if_neg (Ne.symm hk)] at hf
  refine ⟨by rw [hf], ?_⟩
  unfold Db.lockRead Db.lockOrder
  rw [hf, maxStreamSeq_append h.events_rows (by simpa using hk)]

lemma Booked.lockRead {ids : BookingIds} {now expiresAt : Timestamp} {o : NewOrder} {wired : List WiredItem}
    {record : OrderRecord} {db db' : Db} (h : Booked ids now expiresAt o wired record db db') {k : Uuid}
    (hk : ids.orderId ≠ k) :
    (db'.orders.find? k).isSome = (db.orders.find? k).isSome ∧ db'.lockRead k = db.lockRead k := by
  have hf : db'.orders.find? k =
      if ids.orderId = k then some (newOrderRow ids.orderId o expiresAt) else db.orders.find? k :=
    Lib.Table.find?_insert h.orders k
  rw [if_neg hk] at hf
  refine ⟨by rw [hf], ?_⟩
  obtain ⟨_, _, _, events, _, _, _, -, -, -, -, -, he, -, rfl⟩ := h
  unfold Db.lockRead Db.lockOrder
  rw [hf]
  have hseq : ({ db with events := events } : Db).maxStreamSeq k = db.maxStreamSeq k :=
    maxStreamSeq_append he (by simpa using hk)
  exact congrArg (fun n => LockRead.mk _ (n + 1)) hseq

/-- A transaction that does not write an order's row leaves what the row lock protects. -/
theorem Effect.lockRead {w : Oracle} {now : Timestamp} {s : World} {t : Tx} {res : TxResult} {db' : Db}
    (he : Effect w now s.db t res db') {k : Uuid} (hk : touches t w s ≠ some k) :
    (db'.orders.find? k).isSome = (s.db.orders.find? k).isSome ∧ db'.lockRead k = s.db.lockRead k := by
  cases he with
  | quiet frame _ _ => exact lockRead_congr frame.orders frame.events k
  | booked hb => exact hb.lockRead (fun h => hk (congrArg some h))
  | seatSold _ => exact lockRead_congr rfl rfl k
  | poolSold _ => exact lockRead_congr rfl rfl k
  | requested _ ha => exact ha.lockRead (fun h => hk (congrArg some h))
  | captured _ ha => exact ha.lockRead (fun h => hk (congrArg some h))
  | declined _ ha => exact ha.lockRead (fun h => hk (congrArg some h))
  | @exited t event orderId cur next seq mid ht _ _ ha =>
    have hne : orderId ≠ k := by
      rcases ht with ⟨rfl, -⟩ | ⟨rfl, -⟩ <;> exact fun h => hk (congrArg some h)
    have hrel : (mid.releaseOrderItems orderId).2.orders = mid.orders ∧
        (mid.releaseOrderItems orderId).2.events = mid.events := by
      rw [releaseOrderItems_frame]
      exact ⟨rfl, rfl⟩
    obtain ⟨h₁, h₂⟩ := lockRead_congr hrel.1 hrel.2 k
    obtain ⟨h₃, h₄⟩ := ha.lockRead hne
    exact ⟨h₁.trans h₃, h₂.trans h₄⟩
  | @refunded orderId cur seq mid _ _ ha =>
    have hne : orderId ≠ k := fun h => hk (congrArg some h)
    have hrel : ((mid.releaseOrderItems orderId).2.voidTickets orderId).orders = mid.orders ∧
        ((mid.releaseOrderItems orderId).2.voidTickets orderId).events = mid.events := by
      rw [releaseOrderItems_frame]
      exact ⟨rfl, rfl⟩
    obtain ⟨h₁, h₂⟩ := lockRead_congr hrel.1 hrel.2 k
    obtain ⟨h₃, h₄⟩ := ha.lockRead hne
    exact ⟨h₁.trans h₃, h₂.trans h₄⟩
  | issued _ hi ha =>
    obtain ⟨h₁, h₂⟩ := lockRead_congr hi.frame.orders hi.frame.events k
    obtain ⟨h₃, h₄⟩ := ha.lockRead (fun h => hk (congrArg some h))
    exact ⟨h₃.trans h₁, h₄.trans h₂⟩
  | boarded _ _ => exact lockRead_congr rfl rfl k
  | lastBoarded ht _ _ _ ha =>
    have hne := hk
    simp only [touches, ht, Option.map_some] at hne
    exact ha.lockRead (fun h => hne (congrArg some h))

/-- Transactions of the server under the order row lock: the status is read when the lock
is taken, the position in the stream before the writes, and both still hold at the commit. -/
def rowLocks (app : AppState) : Lib.RowLocks (site app) Uuid LockRead LockRead where
  key := Tx.locks
  touches := touches
  present k s := (s.db.orders.find? k).isSome
  view k s := s.db.lockRead k
  plan _ v v' := ⟨v.current, v'.seq⟩
  finish t p w s :=
    match w.fail with
    | some e => (.failed e, s)
    | none => t.body p w s
  run_eq t k w s hk _ := by
    have hr : t.reads s = s.db.lockRead k := by
      unfold Tx.reads
      rw [hk]
    exact congrArg (fun r => match w.fail with
      | some e => (TxResult.failed e, s)
      | none => t.body r w s) hr
  touches_key t k w s hk := by
    cases t <;> first
      | exact hk
      | cases hk
  frame t k w s hp hk := by
    obtain ⟨h₁, h₂⟩ := (run_effect t w s).1.lockRead hk
    exact ⟨h₁.trans hp, h₂⟩
  env_frame _ _ _ hp := ⟨hp, rfl⟩

end Locks

/-- A state the server reaches under row locks, from a database without orders. -/
def Reaches (app : AppState) (s : World)
    (c : Lib.LockConf Request World Tx TxResult Call Reply Answer Uuid LockRead LockRead) : Prop :=
  (rowLocks app).Reachable (Lib.RowLocks.init s) c

/-- The invariants hold under row locks too. -/
theorem Reaches.runOk {app : AppState} {s : World}
    {c : Lib.LockConf Request World Tx TxResult Call Reply Answer Uuid LockRead LockRead} (h₀ : s.db.Seeded)
    (hc : Reaches app s c) : RunOk s.db c.store c.trace :=
  runOk_of_reachable h₀ ((rowLocks app).reachable_atomic hc)

section Harbour

/-- A ferry with two seats and a deck of ten, which sails to two islands and back. -/
def harbour : World where
  now := 0
  db := { Db.empty with
    locations := ⟨[⟨1, "CEB"⟩, ⟨2, "TAG"⟩, ⟨3, "ORM"⟩], by decide⟩
    routeStops := ⟨[⟨1, 0, 1, 0⟩, ⟨1, 1, 2, 120⟩, ⟨1, 2, 3, 240⟩, ⟨2, 0, 3, 0⟩, ⟨2, 1, 2, 120⟩, ⟨2, 2, 1, 240⟩],
      by decide⟩
    trips := ⟨[⟨1, 1, 1, 86400, 2, .scheduled⟩, ⟨2, 2, 1, 172800, 2, .scheduled⟩], by decide⟩
    capacityUnits := ⟨[⟨1, 1, .seat, "1A", some "business", none, false⟩,
      ⟨2, 1, .seat, "1B", some "business", none, false⟩, ⟨3, 1, .pool, "DECK", none, some 10, true⟩], by decide⟩
    seatOccupancy := ⟨[⟨1, 1, 0⟩, ⟨1, 2, 0⟩, ⟨2, 1, 0⟩, ⟨2, 2, 0⟩], by decide⟩
    poolOccupancy := ⟨[⟨1, 3, [10, 10]⟩, ⟨2, 3, [10, 10]⟩], by decide⟩
    ticketKeys := ⟨[⟨"k1", some ⟨1⟩, true, 0⟩], by decide⟩ }

lemma harbour_seeded : harbour.db.Seeded where
  orders := rfl
  passengers := rfl
  orderItems := rfl
  orderAncillaries := rfl
  events := rfl
  outbox := rfl
  tickets := rfl
  scanEvents := rfl
  idempotencyKeys := rfl
  remaining := by decide

/-- A deployment whose provider reports every callback it is sent as a capture of the
intent in its body. -/
def sandbox : AppState where
  providerName := "sandbox"
  authenticatesCallbacks := true
  verifyCallback _ body := .ok (.captured body)
  parseRules json := some ⟨json⟩
  price _ input := .ok ⟨"PHP", 1000, [], if input.isRoundTrip then 800 else 1000⟩
  encode _ := "quote"
  decode _ := none
  tag payload := payload
  tagMatches payload presented := payload == presented
  retrievalToken orderId := "order-" ++ orderId.repr
  digestContact contact := contact
  requestHash _ := "hash"
  holds := false

/-- A party of one with a seat and two places on deck. -/
def booking : NewOrder where
  passengers := [⟨"Ana", .adult, none⟩]
  items := [⟨1, "1A", "CEB", "ORM", 1, 1000, some 0⟩, ⟨1, "DECK", "CEB", "TAG", 2, 500, none⟩]
  ancillaries := []
  currency := "PHP"
  customerId := none
  guestContact := some "ana@example.com"

/-- The identifiers a transaction draws from `n` on. -/
def drawn (n : Nat) : Oracle := ⟨none, fun i => n + i, 0⟩

end Harbour

end Lulan.Proofs
