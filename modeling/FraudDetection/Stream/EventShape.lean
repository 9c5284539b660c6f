import FraudDetection.Ingestion.Payload
import FraudDetection.Stream.Sessions

/-!
# The shape of the events

The transaction service publishes flat payloads, and the stream processor looks for the merchant and
the country in nested dicts. It finds neither, and takes the defaults.

`ofPayload_modelDump` is the transaction that the stream processor reads from a published payload.
All transactions have one merchant there, so a snapshot never counts more.
-/

namespace FraudDetection.Stream

open Python Store Ingestion

/-- A published payload with the time and the id of the call that processes it. -/
structure Delivery where
  payload : TransactionPayload
  now : ℚ
  uuid : EventUuid

/-- `process_transaction` on a published payload. -/
def Delivery.call (d : Delivery) : Call := ⟨d.payload.modelDump, d.now, d.uuid⟩

/-- The transaction that the stream processor reads. -/
def Delivery.event (lib : NumberLib) (d : Delivery) : Event where
  txn := ⟨.str d.payload.customerId, d.payload.customerId, lib.str (.float d.payload.amount),
    "unknown", "unknown"⟩
  now := d.now
  uuid := d.uuid

section Shape

variable {lib : NumberLib} {d : Delivery} {feed : List Delivery}

theorem ofPayload_modelDump (lib : NumberLib) (d : Delivery) :
    Transaction.ofPayload lib.toPyLib d.payload.modelDump = .ok (d.event lib).txn := by
  simp [Transaction.ofPayload, TransactionPayload.modelDump, Delivery.event, encode,
    List.lookup_cons, bind, Except.bind, pure, Except.pure]

theorem event_call (lib : NumberLib) (d : Delivery) : d.call.event lib = some (d.event lib) := by
  rw [Call.event, Delivery.call, ofPayload_modelDump]
  rfl

theorem events_feed (lib : NumberLib) (feed : List Delivery) :
    Call.events lib (feed.map Delivery.call) = feed.map (Delivery.event lib) := by
  rw [Call.events, List.filterMap_map, ← List.filterMap_eq_map]
  congr 1
  funext d
  exact event_call lib d

/-- A published payload is always processed. -/
theorem perform_call (lib : NumberLib) (d : Delivery) (store : VelocityStore) :
    (d.call.perform lib store).1 = .ok ⟨.str d.payload.customerId,
      readWindow lib d.payload.customerId d.now ((d.event lib).record lib store)⟩ := by
  unfold Call.perform processTransaction
  rw [Delivery.call, ofPayload_modelDump]
  simp only [Delivery.event, lib.incrArgument_float]

/-- A session ends with the last transaction. -/
theorem mem_lastSession {history : List Call} {k : Call} {e : Event} (he : k.event lib = some e)
    (win : Window) : e ∈ lastSession lib e.customer win (history ++ [k]) := by
  rw [lastSession, events_concat he, own_concat_self, session_concat]
  split
  · exact List.mem_append_right _ List.mem_cons_self
  · exact List.mem_cons_self

/-- One value occurs exactly when all elements have that of a given one. -/
theorem card_eq_one_iff {α : Type} (f : α → String) {es : List α} {e : α} (he : e ∈ es) :
    (es.map f).toFinset.card = 1 ↔ ∀ j ∈ es, f j = f e := by
  rw [Finset.card_eq_one]
  constructor
  · rintro ⟨x, hx⟩
    have hall : ∀ j ∈ es, f j = x := by
      intro j hj
      rw [← Finset.mem_singleton, ← hx, List.mem_toFinset]
      exact List.mem_map_of_mem hj
    intro j hj
    rw [hall j hj, hall e he]
  · intro hall
    refine ⟨f e, ?_⟩
    ext x
    rw [List.mem_toFinset, List.mem_map, Finset.mem_singleton]
    constructor
    · rintro ⟨j, hj, rfl⟩
      exact hall j hj
    · rintro rfl
      exact ⟨e, he, rfl⟩

/-- All published transactions have the merchant `unknown`, in every window. -/
theorem distinctMerchants_feed {snapshot : VelocitySnapshot}
    (hok : (d.call.perform lib
      (Call.stateAfter lib (feed.map Delivery.call) VelocityStore.empty)).1 = .ok snapshot)
    (win : Window) : (snapshot.window win).distinctMerchants = 1 := by
  have he := event_call lib d
  rw [(read_accumulated he hok win).2.1, card_eq_one_iff (·.txn.merchantId) (mem_lastSession he win)]
  have hevents : Call.events lib (feed.map Delivery.call ++ [d.call])
      = (feed ++ [d]).map (Delivery.event lib) := by
    rw [events_concat he, events_feed, List.map_append]
    rfl
  intro j hj
  have hmem := List.mem_of_mem_filter ((session_suffix _).subset hj)
  rw [hevents] at hmem
  obtain ⟨d', -, rfl⟩ := List.mem_map.mp hmem
  rfl

/-- The published payloads of a customer. -/
def ofCustomer (customer : String) (feed : List Delivery) : List Delivery :=
  feed.filter fun d => d.payload.customerId = customer

/-- Whatever the times of the calls, the merchants of a customer are counted exactly when there is
only one of them. -/
theorem distinctMerchants_exact_iff (lib : NumberLib) (feed : List Delivery) (last : Delivery) :
    ∃ snapshot, (last.call.perform lib
        (Call.stateAfter lib (feed.map Delivery.call) VelocityStore.empty)).1 = .ok snapshot ∧
      ((snapshot.window .m1).distinctMerchants
          = ((ofCustomer last.payload.customerId (feed ++ [last])).map
              fun d => d.payload.merchantId).toFinset.card ↔
        ∀ d ∈ feed, d.payload.customerId = last.payload.customerId →
          d.payload.merchantId = last.payload.merchantId) := by
  refine ⟨_, perform_call lib last _, ?_⟩
  have hlast : last ∈ ofCustomer last.payload.customerId (feed ++ [last]) := by
    simp [ofCustomer]
  rw [distinctMerchants_feed (perform_call lib last _), eq_comm,
    card_eq_one_iff (fun d : Delivery => d.payload.merchantId) hlast]
  constructor
  · intro hall d hd hcustomer
    apply hall
    simp [ofCustomer, hd, hcustomer]
  · intro hall d hd
    rw [ofCustomer, List.mem_filter, decide_eq_true_eq] at hd
    rcases List.mem_append.mp hd.1 with hfed | hself
    · exact hall d hfed hd.2
    · rw [List.mem_singleton.mp hself]

/-! ### Two shops -/

/-- A published payment of the customer `alice`. -/
def samplePublished (transactionId merchantId : String) (now : ℚ) (digit : Char) : Delivery where
  payload := samplePayload transactionId "alice" merchantId 25 twentyFive_pos
  now := now
  uuid := sampleUuid digit

/-- Two payments at different merchants within a minute are counted as one merchant. -/
theorem two_merchants_counted_once :
    ∃ snapshot, ((samplePublished "t-2" "m-2" 10 '1').call.perform compactNumbers
        (Call.stateAfter compactNumbers ([samplePublished "t-1" "m-1" 0 '0'].map Delivery.call)
          VelocityStore.empty)).1 = .ok snapshot ∧
      (snapshot.window .m1).distinctMerchants = 1 ∧
      (([samplePublished "t-1" "m-1" 0 '0'] ++ [samplePublished "t-2" "m-2" 10 '1']).map
        fun d => d.payload.merchantId).toFinset.card = 2 := by
  have hok := perform_call compactNumbers (samplePublished "t-2" "m-2" 10 '1')
    (Call.stateAfter compactNumbers ([samplePublished "t-1" "m-1" 0 '0'].map Delivery.call)
      VelocityStore.empty)
  exact ⟨_, hok, distinctMerchants_feed hok .m1, rfl⟩

end Shape

end FraudDetection.Stream
