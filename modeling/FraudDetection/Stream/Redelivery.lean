import Mathlib.Data.List.Perm.Subperm
import FraudDetection.Ingestion.CreateTransaction
import FraudDetection.Stream.EventShape

/-!
# Redelivered transactions

The stream processor counts what it is handed: the id of a transaction is looked at, and a message
is skipped without one, but the member of a sorted set is made from the amount and a new id. So a
message that is delivered twice is counted twice. Nor are the amounts added exactly: Redis rounds a
sum, and so does `float()` when it is read.

`lastHandled_consume` shows that the loop processes every message of a schedule. Within a minute no
key expires, and nothing leaves a window but what is a full minute old, so a snapshot shows the
deliveries (`AtLeastOnce.last_snapshot`). They are as many as the messages exactly when no id is
delivered twice (`AtLeastOnce.nodup_iff`).
-/

namespace FraudDetection.Stream

open Python Store Ingestion

/-! ## The consumer -/

/-- A message as it arrives: its decoded value, and the time and the ids made while it is
handled. -/
structure Received where
  value : Json
  now : ℚ
  uuid : EventUuid
  stamp : ℕ → Stamp

/-- The payload of a message and the id of its transaction; nothing if the message is skipped. -/
def screen (value : Json) : Except Exn (Option (Json × Json)) :=
  if value.truthy then do
    let payload ← value.get "payload" (.dict [])
    let customerId ← payload.get "customer_id" .null
    let txnId ← payload.get "transaction_id" .null
    return if customerId.truthy && txnId.truthy then some (payload, txnId) else none
  else
    .ok none

/-- What comes of a message: the snapshot, and the messages published for it. -/
structure Handled where
  snapshot : VelocitySnapshot
  published : List Message

variable (lib : NumberLib) (settings : StreamProcessorSettings)

/-- The body of the loop in `consume`. The producer reports no failure, so `evaluate` does not
raise. -/
def Received.handle (r : Received) (store : VelocityStore) :
    Except Exn (Option Handled) × VelocityStore :=
  match screen r.value with
  | .error x => (.error x, store)
  | .ok none => (.ok none, store)
  | .ok (some (payload, txnId)) =>
      match processTransaction lib payload r.now r.uuid store with
      | (.error x, store) => (.error x, store)
      | (.ok snapshot, store) =>
          (.ok (some ⟨snapshot, evaluate settings snapshot txnId r.stamp⟩), store)

/-- `consume`: handle the messages in turn, until one of them raises. -/
def consume : List Received → VelocityStore → List Handled × VelocityStore
  | [], store => ([], store)
  | r :: rs, store =>
      match r.handle lib settings store with
      | (.error _, store) => ([], store)
      | (.ok handled, store) =>
          let rest := consume rs store
          (handled.toList ++ rest.1, rest.2)

/-! ## Transaction messages -/

/-- A message that `consume` does not skip and whose payload can be processed: the id of its
transaction, and the amount in it. -/
structure TxnMessage where
  value : Json
  payload : Json
  transactionId : String
  amountField : Json
  amount : ℚ
  txn : Transaction
  screened : screen value = .ok (some (payload, .str transactionId))
  readable : Transaction.ofPayload lib.toPyLib payload = .ok txn
  amountField_eq : payload.get "amount" (.float 0) = .ok amountField
  number : amountField.number? = some amount

/-- A delivery of a transaction message. -/
structure TxnDelivery where
  message : TxnMessage lib
  now : ℚ
  uuid : EventUuid
  stamp : ℕ → Stamp

variable {lib}

/-- What `process_transaction` reads of an amount is the number in the payload. -/
theorem encode_amount {payload v : Json} {txn : Transaction}
    (hread : Transaction.ofPayload lib.toPyLib payload = .ok txn)
    (hv : payload.get "amount" (.float 0) = .ok v) : encode lib.toPyLib v = .ok txn.amount := by
  unfold Transaction.ofPayload at hread
  simp only [bind_eq_ok] at hread
  obtain ⟨_, -, v', hv', _, -, _, -, _, -, _, -, _, -, amount, hamount, _, -, _, -, hdone⟩ := hread
  obtain rfl : v = v' := Except.ok.inj (hv.symm.trans hv')
  cases hdone
  exact hamount

namespace TxnDelivery

variable (d : TxnDelivery lib)

/-- The message as it arrives. -/
def received : Received := ⟨d.message.value, d.now, d.uuid, d.stamp⟩

/-- The call of `process_transaction`. -/
def call : Call := ⟨d.message.payload, d.now, d.uuid⟩

/-- The transaction that is counted. -/
def event : Event := ⟨d.message.txn, d.now, d.uuid⟩

theorem event_call : d.call.event lib = some d.event := by
  rw [Call.event, call, d.message.readable]
  rfl

theorem events_calls (ds : List (TxnDelivery lib)) :
    Call.events lib (ds.map call) = ds.map event := by
  rw [Call.events, List.filterMap_map, ← List.filterMap_eq_map]
  congr 1
  funext d
  exact d.event_call

theorem addTo_event (sum : ℚ) : d.event.addTo lib sum = lib.incrSum sum d.message.amount := by
  have hread := incrArgument_of_encode d.message.number
    (encode_amount d.message.readable d.message.amountField_eq)
  unfold Event.addTo event
  rw [hread]

/-- The amounts of the deliveries, in order. -/
def amounts (ds : List (TxnDelivery lib)) : List ℚ := (ds.map message).map TxnMessage.amount

/-- What is read of the sum of deliveries. -/
theorem shownSum_events (ds : List (TxnDelivery lib)) :
    shownSum lib (ds.map event) = lib.floatReply (lib.redisSum (amounts ds)) := by
  unfold shownSum NumberLib.redisSum amounts
  rw [List.foldl_map, List.map_map, List.foldl_map]
  congr 2
  funext sum d
  exact d.addTo_event sum

end TxnDelivery

/-! ## The loop over a schedule -/

namespace TxnDelivery

variable (d : TxnDelivery lib)

/-- The snapshot that a delivery returns. -/
def snapshot (store : VelocityStore) : VelocitySnapshot :=
  ⟨d.message.txn.customerId, readWindow lib d.event.customer d.now (d.event.record lib store)⟩

theorem perform_call (store : VelocityStore) :
    d.call.perform lib store = (.ok (d.snapshot store), d.event.record lib store) := by
  have hamount := incrArgument_of_encode d.message.number
    (encode_amount d.message.readable d.message.amountField_eq)
  unfold Call.perform processTransaction
  rw [call, d.message.readable]
  simp only [hamount]
  rfl

/-- Every delivery is processed. -/
theorem handle_received (settings : StreamProcessorSettings) (store : VelocityStore) :
    d.received.handle lib settings store
      = (.ok (some ⟨d.snapshot store,
          evaluate settings (d.snapshot store) (.str d.message.transactionId) d.stamp⟩),
        d.event.record lib store) := by
  have hperform := d.perform_call store
  unfold Call.perform call at hperform
  unfold Received.handle received
  rw [d.message.screened]
  simp only [hperform]

end TxnDelivery

/-- The last snapshot of a schedule is the one its last delivery returns, after all the others. -/
theorem lastHandled_consume (settings : StreamProcessorSettings) (ds : List (TxnDelivery lib))
    (d : TxnDelivery lib) (store : VelocityStore) :
    (consume lib settings ((ds ++ [d]).map TxnDelivery.received) store).1.getLast?.map
        Handled.snapshot
      = some (d.snapshot (Call.stateAfter lib (ds.map TxnDelivery.call) store)) := by
  induction ds generalizing store with
  | nil =>
      simp only [List.nil_append, List.map_cons, List.map_nil, consume, d.handle_received]
      rfl
  | cons d' ds ih =>
      have hrest := ih (d'.event.record lib store)
      have hstore : Call.stateAfter lib ((d' :: ds).map TxnDelivery.call) store
          = Call.stateAfter lib (ds.map TxnDelivery.call) (d'.event.record lib store) := by
        rw [List.map_cons, Call.stateAfter, List.foldl_cons, d'.perform_call]
        rfl
      rw [hstore, ← hrest]
      simp only [List.cons_append, List.map_cons, consume, d'.handle_received, Option.toList_some,
        List.nil_append, List.getLast?_cons, Option.map_some]
      rw [Option.map_eq_some_iff] at hrest
      obtain ⟨h, hlast, -⟩ := hrest
      rw [hlast]
      rfl

/-! ## Schedules -/

/-- A delivery schedule of messages of one customer with distinct ids: each of them is delivered at
least once, in any order, and the schedule takes a minute at most. -/
structure AtLeastOnce (c : String) (ms : List (TxnMessage lib)) (ds : List (TxnDelivery lib)) :
    Prop where
  ids : (ms.map TxnMessage.transactionId).Nodup
  customer : ∀ m ∈ ms, m.txn.customer = c
  delivered : ∀ m, m ∈ ds.map TxnDelivery.message ↔ m ∈ ms
  time : ds.Pairwise fun i j => i.now ≤ j.now
  minute : ∀ i ∈ ds, ∀ j ∈ ds, j.now ≤ i.now + 60
  uuids : (ds.map fun d => d.uuid.text).Nodup

/-- The window of one minute is the shortest. -/
theorem Window.sixty_le_seconds (win : Window) : 60 ≤ win.seconds := by
  cases win <;> norm_num [seconds]

section Schedule

variable {c : String} {ms : List (TxnMessage lib)} {ds : List (TxnDelivery lib)}
  {d : TxnDelivery lib}

theorem AtLeastOnce.own_events (h : AtLeastOnce c ms ds) :
    own c (Call.events lib (ds.map TxnDelivery.call)) = ds.map TxnDelivery.event := by
  rw [TxnDelivery.events_calls, own, List.filter_eq_self]
  intro e he
  obtain ⟨d, hd, rfl⟩ := List.mem_map.mp he
  rw [decide_eq_true_eq]
  exact h.customer _ ((h.delivered _).mp (List.mem_map_of_mem hd))

/-- The window at the last delivery has the recent ones of the schedule. -/
theorem AtLeastOnce.inWindow_eq (h : AtLeastOnce c ms (ds ++ [d])) (win : Window) :
    inWindow lib c win d.now ((ds ++ [d]).map TxnDelivery.call)
      = since win d.now ((ds ++ [d]).map TxnDelivery.event) := by
  rw [inWindow, h.own_events, since]
  apply List.filter_congr
  intro e he
  obtain ⟨i, hi, rfl⟩ := List.mem_map.mp he
  have hpast : i.event.now ≤ d.now := by
    rcases List.mem_append.mp hi with hbefore | hlast
    · exact (List.pairwise_append.mp h.time).2.2 i hbefore d (by simp)
    · rw [List.mem_singleton.mp hlast]
      rfl
  simp [hpast]

/-- A window has the whole schedule exactly when each delivery is recent enough. -/
theorem length_since_iff (win : Window) (now : ℚ) (ds : List (TxnDelivery lib)) :
    (since win now (ds.map TxnDelivery.event)).length = ds.length ↔
      ∀ i ∈ ds, now < i.now + win.seconds := by
  have hlength : ds.length = (ds.map TxnDelivery.event).length :=
    (List.length_map TxnDelivery.event).symm
  rw [hlength, since, List.length_filter_eq_length_iff]
  simp [TxnDelivery.event, sub_lt_iff_lt_add]

/-- No key expires between two deliveries. -/
theorem AtLeastOnce.lastSession_eq (h : AtLeastOnce c ms ds) (win : Window) :
    lastSession lib c win (ds.map TxnDelivery.call) = ds.map TxnDelivery.event := by
  rw [lastSession, h.own_events]
  refine session_of_isChain (List.Pairwise.isChain ?_)
  rw [List.pairwise_map, List.pairwise_iff_forall_sublist]
  intro i j hij
  have hrecent := h.minute i (hij.mem (by simp)) j (hij.mem (by simp))
  have hlong := win.sixty_le_seconds
  show j.now ≤ i.now + (win.seconds + 10)
  linarith

/-- There are as many deliveries as messages exactly when no id is delivered twice, and then the
deliveries are those of the messages. -/
theorem AtLeastOnce.nodup_iff (h : AtLeastOnce c ms ds) :
    (ds.map fun d => d.message.transactionId).Nodup ↔ ds.length = ms.length := by
  have hinto : ms.map TxnMessage.transactionId ⊆ ds.map fun d => d.message.transactionId := by
    intro id hid
    obtain ⟨m, hm, rfl⟩ := List.mem_map.mp hid
    obtain ⟨d, hd, rfl⟩ := List.mem_map.mp ((h.delivered m).mpr hm)
    exact List.mem_map_of_mem hd
  have hback : (ds.map fun d => d.message.transactionId) ⊆ ms.map TxnMessage.transactionId := by
    intro id hid
    obtain ⟨d, hd, rfl⟩ := List.mem_map.mp hid
    exact List.mem_map_of_mem ((h.delivered _).mp (List.mem_map_of_mem hd))
  constructor
  · intro hnodup
    have hperm := (List.perm_ext_iff_of_nodup hnodup h.ids).mpr fun id => ⟨@hback id, @hinto id⟩
    simpa using hperm.length_eq
  · intro hlength
    have hsub := List.subperm_of_subset h.ids hinto
    have hperm := hsub.perm_of_length_le (by simp [hlength])
    exact hperm.nodup_iff.mp h.ids

/-- Deliveries with different ids are those of the messages, in some order. -/
theorem AtLeastOnce.perm (h : AtLeastOnce c ms ds)
    (hnodup : (ds.map fun d => d.message.transactionId).Nodup) :
    (ds.map TxnDelivery.message).Perm ms := by
  have hms : ms.Nodup := h.ids.of_map _
  have hds : (ds.map TxnDelivery.message).Nodup := by
    rw [← Function.comp_def TxnMessage.transactionId, ← List.map_map] at hnodup
    exact hnodup.of_map _
  exact (List.perm_ext_iff_of_nodup hds hms).mpr h.delivered

/-- At the end of a schedule every window shows the number of its recent deliveries, and what Redis
and `float()` make of the sum of all. -/
theorem AtLeastOnce.last_snapshot (h : AtLeastOnce c ms (ds ++ [d])) {last : VelocitySnapshot}
    (hlast : last
      = d.snapshot (Call.stateAfter lib (ds.map TxnDelivery.call) VelocityStore.empty))
    (win : Window) :
    (last.window win).txnCount = (since win d.now ((ds ++ [d]).map TxnDelivery.event)).length ∧
      (last.window win).txnSum
        = lib.floatReply (lib.redisSum (TxnDelivery.amounts (ds ++ [d]))) := by
  have hcustomer : d.event.customer = c :=
    h.customer _ ((h.delivered _).mp (List.mem_map_of_mem (by simp)))
  have hcalls : (ds ++ [d]).map TxnDelivery.call = ds.map TxnDelivery.call ++ [d.call] := by
    simp
  have hok : (d.call.perform lib (Call.stateAfter lib (ds.map TxnDelivery.call)
      VelocityStore.empty)).1 = .ok last := by
    rw [d.perform_call, hlast]
  constructor
  · have htime : (ds.map TxnDelivery.call ++ [d.call]).Pairwise fun i j => i.now ≤ j.now := by
      rw [← hcalls, List.pairwise_map]
      exact h.time
    have huuids : ((ds.map TxnDelivery.call ++ [d.call]).map fun k => k.uuid.text).Nodup := by
      rw [← hcalls, List.map_map]
      exact h.uuids
    rw [(read_stored htime huuids d.event_call hok win).1, ← inWindow_eq_stored htime d.event_call,
      ← hcalls, hcustomer]
    show (inWindow lib c win d.now _).length = _
    rw [h.inWindow_eq]
  · rw [(read_accumulated d.event_call hok win).1, ← hcalls, hcustomer, h.lastSession_eq,
      TxnDelivery.shownSum_events]

/-- At the end of a schedule every window shows the number of the messages and the sum of their
amounts exactly when no message was delivered twice, none a full minute before the last one, and the
amounts are added without rounding. -/
theorem redelivery_exact_iff (lib : NumberLib) (settings : StreamProcessorSettings) (c : String)
    (ms : List (TxnMessage lib)) (ds : List (TxnDelivery lib)) (d : TxnDelivery lib)
    (h : AtLeastOnce c ms (ds ++ [d])) :
    ∃ snapshot, (consume lib settings ((ds ++ [d]).map TxnDelivery.received)
        VelocityStore.empty).1.getLast?.map Handled.snapshot = some snapshot ∧
      ((∀ win, (snapshot.window win).txnCount = ms.length ∧
          (snapshot.window win).txnSum = (ms.map TxnMessage.amount).sum) ↔
        ((ds ++ [d]).map fun i => i.message.transactionId).Nodup ∧
          (∀ i ∈ ds, d.now < i.now + 60) ∧ lib.SumsExactly (TxnDelivery.amounts (ds ++ [d]))) := by
  refine ⟨_, lastHandled_consume settings ds d VelocityStore.empty, ?_⟩
  have hshown := h.last_snapshot rfl
  constructor
  · intro hexact
    have hlong : (since .m5 d.now ((ds ++ [d]).map TxnDelivery.event)).length
        = (ds ++ [d]).length := by
      rw [length_since_iff]
      intro i hi
      have hrecent := h.minute i hi d (by simp)
      norm_num [Window.seconds]
      linarith
    have hlength : (ds ++ [d]).length = ms.length := by
      rw [← hlong, ← (hshown .m5).1]
      exact (hexact .m5).1
    have hminute : (since .m1 d.now ((ds ++ [d]).map TxnDelivery.event)).length
        = (ds ++ [d]).length := by
      rw [hlength, ← (hshown .m1).1]
      exact (hexact .m1).1
    rw [length_since_iff] at hminute
    have hnodup := h.nodup_iff.mpr hlength
    refine ⟨hnodup, ?_, ?_⟩
    · intro i hi
      exact hminute i (List.mem_append_left _ hi)
    · have hsum := (hshown .m1).2.symm.trans (hexact .m1).2
      rwa [← ((h.perm hnodup).map _).sum_eq] at hsum
  · rintro ⟨hnodup, hminute, hsum⟩ win
    have hwhole : (since win d.now ((ds ++ [d]).map TxnDelivery.event)).length
        = (ds ++ [d]).length := by
      rw [length_since_iff]
      intro i hi
      have hlong := win.sixty_le_seconds
      rcases List.mem_append.mp hi with hbefore | hlast
      · have hrecent := hminute i hbefore
        linarith
      · rw [List.mem_singleton.mp hlast]
        linarith
    rw [(hshown win).1, (hshown win).2, hwhole, hsum, TxnDelivery.amounts,
      ((h.perm hnodup).map _).sum_eq]
    exact ⟨h.nodup_iff.mp hnodup, rfl⟩

/-- Whole amounts are added without rounding as long as their sum is at most `2 ^ 53`. -/
theorem AtLeastOnce.sumsExactly (h : AtLeastOnce c ms ds)
    (hnodup : (ds.map fun d => d.message.transactionId).Nodup) {value : TxnMessage lib → ℕ}
    (hwhole : ∀ m ∈ ms, m.amount = value m) (hsum : (ms.map value).sum ≤ 2 ^ 53) :
    lib.SumsExactly (TxnDelivery.amounts ds) := by
  have hamounts : TxnDelivery.amounts ds = ((ds.map TxnDelivery.message).map value).map Nat.cast := by
    rw [TxnDelivery.amounts, List.map_map (l := ds.map _)]
    apply List.map_congr_left
    intro m hm
    exact hwhole m ((h.perm hnodup).mem_iff.mp hm)
  rw [hamounts]
  apply NumberLib.sumsExactly_of_whole
  rwa [((h.perm hnodup).map value).sum_eq]

end Schedule

/-! ### A payment delivered twice -/

/-- The consumer does not skip the event of a request whose ids are not empty. -/
theorem screen_event {a : Arrival} (hid : a.payload.transactionId ≠ "")
    (hcustomer : a.payload.customerId ≠ "") :
    screen a.event.toDict = .ok (some (a.payload.modelDump, .str a.payload.transactionId)) := by
  simp [screen, Kafka.EventEnvelope.toDict, Arrival.event, TransactionPayload.modelDump, Json.truthy,
    List.lookup_cons, hid, hcustomer, bind, Except.bind, pure, Except.pure]

/-- The event of a request as a transaction message. -/
def Arrival.message (lib : NumberLib) (a : Arrival) (hid : a.payload.transactionId ≠ "")
    (hcustomer : a.payload.customerId ≠ "") : TxnMessage lib where
  value := a.event.toDict
  payload := a.payload.modelDump
  transactionId := a.payload.transactionId
  amountField := .float a.payload.amount
  amount := a.payload.amount
  txn := ⟨.str a.payload.customerId, a.payload.customerId, lib.str (.float a.payload.amount),
    "unknown", "unknown"⟩
  screened := screen_event hid hcustomer
  readable := ofPayload_modelDump lib ⟨a.payload, 0, sampleUuid '0'⟩
  amountField_eq := rfl
  number := rfl

/-- A request of the customer `alice`. -/
def sampleArrival (transactionId : String) : Arrival where
  payload := samplePayload transactionId "alice" "m-1" 25 twentyFive_pos
  internalId := "row-" ++ transactionId
  eventId := "evt-" ++ transactionId
  ingestedAt := ⟨1767225601, 0, "2026-01-01T00:00:01+00:00"⟩
  cardHash := "h-1"

theorem t1_ne : (sampleArrival "t-1").payload.transactionId ≠ "" := by decide

theorem t2_ne : (sampleArrival "t-2").payload.transactionId ≠ "" := by decide

theorem alice_ne (transactionId : String) :
    (sampleArrival transactionId).payload.customerId ≠ "" := by
  show "alice" ≠ ""
  decide

/-- The first payment. -/
def firstPayment : TxnMessage compactNumbers :=
  Arrival.message compactNumbers (sampleArrival "t-1") t1_ne (alice_ne "t-1")

/-- The second payment. -/
def secondPayment : TxnMessage compactNumbers :=
  Arrival.message compactNumbers (sampleArrival "t-2") t2_ne (alice_ne "t-2")

/-- A delivery of a payment. -/
def deliveryAt (m : TxnMessage compactNumbers) (now : ℚ) (digit : Char) :
    TxnDelivery compactNumbers :=
  ⟨m, now, sampleUuid digit, sampleStamp⟩

/-- Both payments, the first of them delivered again after the second. -/
def redelivered : List (TxnDelivery compactNumbers) :=
  [deliveryAt firstPayment 0 '0', deliveryAt secondPayment 10 '1']

theorem atLeastOnce_redelivered : AtLeastOnce "alice" [firstPayment, secondPayment]
    (redelivered ++ [deliveryAt firstPayment 20 '2']) where
  ids := by decide
  customer := by
    intro m hm
    rcases List.mem_pair.mp hm with rfl | rfl
    · rfl
    · rfl
  delivered := by
    intro m
    simp only [redelivered, deliveryAt, List.cons_append, List.nil_append, List.map_cons,
      List.map_nil, List.mem_cons, List.not_mem_nil, or_false]
    tauto
  time := by
    simp [redelivered, deliveryAt]
    norm_num
  minute := by
    simp [redelivered, deliveryAt]
    norm_num
  uuids := by
    simp [redelivered, deliveryAt, sampleUuid, uuidText]

theorem redelivery_exact_iff_twice :
    ∃ snapshot, (consume compactNumbers defaultSettings
        ((redelivered ++ [deliveryAt firstPayment 20 '2']).map TxnDelivery.received)
        VelocityStore.empty).1.getLast?.map Handled.snapshot = some snapshot ∧
      ((∀ win, (snapshot.window win).txnCount = [firstPayment, secondPayment].length ∧
          (snapshot.window win).txnSum
            = ([firstPayment, secondPayment].map TxnMessage.amount).sum) ↔
        ((redelivered ++ [deliveryAt firstPayment 20 '2']).map
            fun i => i.message.transactionId).Nodup ∧
          (∀ i ∈ redelivered, (20 : ℚ) < i.now + 60) ∧
          compactNumbers.SumsExactly
            (TxnDelivery.amounts (redelivered ++ [deliveryAt firstPayment 20 '2']))) :=
  redelivery_exact_iff compactNumbers defaultSettings "alice" [firstPayment, secondPayment]
    redelivered (deliveryAt firstPayment 20 '2') atLeastOnce_redelivered

/-- Two payments are counted as three when one of them is delivered again. -/
theorem redelivered_counted_twice :
    ¬ ∀ (ms : List (TxnMessage compactNumbers)) (ds : List (TxnDelivery compactNumbers))
        (d : TxnDelivery compactNumbers), AtLeastOnce "alice" ms (ds ++ [d]) →
      ∀ snapshot, (consume compactNumbers defaultSettings
          ((ds ++ [d]).map TxnDelivery.received) VelocityStore.empty).1.getLast?.map
            Handled.snapshot = some snapshot →
        ∀ win, (snapshot.window win).txnCount = ms.length ∧
          (snapshot.window win).txnSum = (ms.map TxnMessage.amount).sum := by
  intro hclaim
  have hexact := hclaim _ _ _ atLeastOnce_redelivered _
    (lastHandled_consume defaultSettings redelivered _ _) .m1
  have hshown := atLeastOnce_redelivered.last_snapshot rfl .m1
  have hthree : (since .m1 20 ((redelivered ++ [deliveryAt firstPayment 20 '2']).map
      TxnDelivery.event)).length = 3 := by
    rw [show 3 = (redelivered ++ [deliveryAt firstPayment 20 '2']).length from rfl, length_since_iff]
    simp [redelivered, deliveryAt, Window.seconds]
    norm_num
  have hcount : 3 = 2 := hthree.symm.trans (hshown.1.symm.trans hexact.1)
  omega

end FraudDetection.Stream
