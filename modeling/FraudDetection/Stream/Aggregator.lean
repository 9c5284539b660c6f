import Mathlib.Algebra.Order.Field.Rat
import Mathlib.Tactic.Linarith
import FraudDetection.Store.SortedSet
import FraudDetection.Store.Accumulator
import FraudDetection.Python.Compare
import FraudDetection.Python.Split
import FraudDetection.Python.Numbers

/-!
# The velocity aggregator of the stream processor

For each customer and each of four windows the aggregator keeps four keys in Redis: a sorted set of
transactions, a running sum, and the sets of merchants and countries. A transaction updates all
sixteen keys in one pipeline and reads them back in a second one. `PFADD` and `PFCOUNT` are exact.

The commands of a pipeline act on one key each, and the key determines the customer, the kind and
the window (`key_injective`). So `record_txns` and its three siblings say what a transaction leaves
under each of its own keys, and `record_frame` that it leaves those of other customers alone.
-/

namespace FraudDetection.Stream

open Python Store

/-- `str(uuid.uuid4())`: 32 hexadecimal digits and four hyphens. -/
structure EventUuid where
  text : String
  length_eq : text.length = 36

/-! ## Windows and keys -/

/-- The entries of `windows`. -/
inductive Window where
  | m1
  | m5
  | h1
  | h24
  deriving DecidableEq, Repr

namespace Window

/-- The name of a window in keys and field names. -/
def name : Window → String
  | m1 => "1m"
  | m5 => "5m"
  | h1 => "1h"
  | h24 => "24h"

/-- The length of a window. -/
def seconds : Window → ℚ
  | m1 => 60
  | m5 => 300
  | h1 => 3600
  | h24 => 86400

theorem seconds_pos (win : Window) : 0 < win.seconds := by
  cases win <;> norm_num [seconds]

theorem name_injective : Function.Injective name := by
  intro win win' h
  cases win <;> cases win' <;> first | rfl | simp [name] at h

theorem colon_not_mem_name (win : Window) : ':' ∉ win.name.toList := by
  cases win <;> simp [name]

end Window

/-- `windows`, in the order of the dict. -/
def windows : List Window := [.m1, .m5, .h1, .h24]

theorem mem_windows (win : Window) : win ∈ windows := by
  cases win <;> simp [windows]

/-- The kinds of keys the aggregator keeps for a window. -/
inductive Kind where
  | txns
  | sum
  | merch
  | country
  deriving DecidableEq, Repr

/-- The name of a kind in keys. -/
def Kind.name : Kind → String
  | txns => "txns"
  | sum => "sum"
  | merch => "merch"
  | country => "country"

theorem Kind.name_injective : Function.Injective name := by
  intro kind kind' h
  cases kind <;> cases kind' <;> first | rfl | simp [name] at h

theorem Kind.colon_not_mem_name (kind : Kind) : ':' ∉ kind.name.toList := by
  cases kind <;> simp [name]

/-- `f"velocity:cust:{customer_id}:{kind}:{win}"` -/
def key (customer : String) (kind : Kind) (win : Window) : String :=
  "velocity:cust:" ++ customer ++ ":" ++ kind.name ++ ":" ++ win.name

theorem toList_key (customer : String) (kind : Kind) (win : Window) :
    (key customer kind win).toList
      = ("velocity:cust:".toList ++ customer.toList ++ ':' :: kind.name.toList)
        ++ ':' :: win.name.toList := by
  have hcolon : ":".toList = [':'] := by simp
  unfold key
  simp only [String.toList_append, hcolon]
  rw [List.append_assoc _ [':'] kind.name.toList, List.append_assoc _ [':'] win.name.toList]
  simp only [List.singleton_append]

/-- A key belongs to one customer, one kind and one window, whatever the customer's id is. -/
theorem key_injective {c c' : String} {kind kind' : Kind} {win win' : Window}
    (h : key c kind win = key c' kind' win') : c = c' ∧ kind = kind' ∧ win = win' := by
  have htext := congrArg String.toList h
  rw [toList_key, toList_key] at htext
  obtain ⟨hfront, hwin⟩ :=
    append_sep_inj win.colon_not_mem_name win'.colon_not_mem_name htext
  obtain ⟨hcust, hkind⟩ :=
    append_sep_inj kind.colon_not_mem_name kind'.colon_not_mem_name hfront
  have hcustomer := List.append_cancel_left hcust
  rw [String.toList_inj] at hcustomer hkind hwin
  refine ⟨hcustomer, ?_, ?_⟩
  · exact Kind.name_injective hkind
  · exact Window.name_injective hwin

theorem nodup_keys (c : String) (kind : Kind) : (windows.map (key c kind)).Nodup := by
  apply List.Nodup.map
  · intro win win' h
    exact (key_injective h).2.2
  · decide

/-! ## Transactions -/

/-- The bytes redis-py sends for an argument. -/
def encode (py : PyLib) : Json → Except Exn String
  | .str s => .ok s
  | .int n => .ok (py.str (.int n))
  | .float q => .ok (py.str (.float q))
  | v => .error ⟨.other "DataError", "Invalid input of type: '" ++ v.typeName ++
      "'. Convert to a bytes, string, int or float first."⟩

/-- What `process_transaction` takes from its payload: the customer's id, as it is and as the keys
contain it, and the texts of the other arguments. -/
structure Transaction where
  customerId : Json
  customer : String
  amount : String
  merchantId : String
  country : String

/-- Read a payload. Nothing is sent to Redis if a part of it has the wrong type: the pipeline
encodes all its arguments before it sends the first command. -/
def Transaction.ofPayload (py : PyLib) (payload : Json) : Except Exn Transaction := do
  let customerId ← payload.get "customer_id" .null
  let amount ← payload.get "amount" (.float 0)
  let merchantId ← (← payload.get "merchant" (.dict [])).get "id" (.str "unknown")
  let device ← payload.get "device" (.dict [])
  let country ← (← device.get "geo" (.dict [])).get "country" (.str "unknown")
  let amount ← encode py amount
  let merchantId ← encode py merchantId
  let country ← encode py country
  return ⟨customerId, py.str customerId, amount, merchantId, country⟩

/-- A transaction at the time `now = time.time()`, with the id made for it. -/
structure Event where
  txn : Transaction
  now : ℚ
  uuid : EventUuid

/-- The customer a transaction belongs to. -/
def Event.customer (e : Event) : String := e.txn.customer

/-- `f"{amount}:{event_uuid}"` -/
def Event.member (e : Event) : String := e.txn.amount ++ ":" ++ e.uuid.text

/-- The number `INCRBYFLOAT` adds for the transaction; nothing if it refuses the text. -/
def Event.amount (lib : NumberLib) (e : Event) : ℚ := (lib.incrArgument e.txn.amount).getD 0

/-- What `INCRBYFLOAT` makes of a sum. -/
def Event.addTo (lib : NumberLib) (sum : ℚ) (e : Event) : ℚ :=
  match lib.incrArgument e.txn.amount with
  | some amount => lib.incrSum sum amount
  -- the command fails, and the sum stays as it is
  | none => sum

/-- What is read of the sum of transactions. -/
def shownSum (lib : NumberLib) (es : List Event) : ℚ :=
  lib.floatReply (es.foldl (Event.addTo lib) 0)

/-- In exact arithmetic it is the sum of their amounts. -/
theorem shownSum_of_exact {lib : NumberLib} (h : lib.Exact) (es : List Event) :
    shownSum lib es = (es.map (Event.amount lib)).sum := by
  have hadd : ∀ sum (e : Event), e.addTo lib sum = sum + e.amount lib := by
    intro sum e
    unfold Event.addTo Event.amount
    cases lib.incrArgument e.txn.amount with
    | none => exact (add_zero sum).symm
    | some amount => exact h.incrSum sum amount
  rw [shownSum, h.floatReply, List.sum_eq_foldl, List.foldl_map]
  exact congrArg (fun f => es.foldl f 0) (funext₂ hadd)

theorem Event.addTo_mono (lib : NumberLib) (e : Event) : Monotone (Event.addTo lib · e) := by
  intro a b hab
  show e.addTo lib a ≤ e.addTo lib b
  unfold Event.addTo
  cases lib.incrArgument e.txn.amount with
  | none => exact hab
  | some amount => exact lib.incrSum_mono amount hab

/-- Amounts that are not negative keep a sum from falling below zero. -/
theorem foldl_addTo_nonneg {lib : NumberLib} {es : List Event} (h : ∀ e ∈ es, 0 ≤ e.amount lib)
    {sum : ℚ} (hsum : 0 ≤ sum) : 0 ≤ es.foldl (Event.addTo lib) sum := by
  induction es generalizing sum with
  | nil => exact hsum
  | cons e es ih =>
      apply ih fun e' he' => h e' (List.mem_cons_of_mem _ he')
      have hamount := h e List.mem_cons_self
      unfold Event.amount at hamount
      unfold Event.addTo
      cases hread : lib.incrArgument e.txn.amount with
      | none => exact hsum
      | some amount =>
          rw [hread, Option.getD_some] at hamount
          exact lib.incrSum_nonneg sum amount hsum hamount

/-- The sum of the last of several transactions is no larger than that of all. -/
theorem shownSum_le_of_suffix {lib : NumberLib} {part whole : List Event} (hpart : part <:+ whole)
    (h : ∀ e ∈ whole, 0 ≤ e.amount lib) : shownSum lib part ≤ shownSum lib whole := by
  obtain ⟨front, rfl⟩ := hpart
  apply lib.floatReply_mono
  rw [List.foldl_append]
  have hfront := foldl_addTo_nonneg (fun e he => h e (List.mem_append_left _ he)) (le_refl (0 : ℚ))
  exact List.foldl_monotone (fun e => Event.addTo_mono lib e) part hfront

/-- Redis reads back the number in a payload. -/
theorem incrArgument_of_encode {lib : NumberLib} {v : Json} {q : ℚ} {text : String}
    (hv : v.number? = some q) (htext : encode lib.toPyLib v = .ok text) :
    lib.incrArgument text = some q := by
  cases v with
  | int n =>
      cases hv
      have hamount : lib.str (.int n) = text := Except.ok.inj htext
      rw [← hamount, lib.incrArgument_int]
  | float p =>
      cases hv
      have hamount : lib.str (.float q) = text := Except.ok.inj htext
      rw [← hamount, lib.incrArgument_float]
  | bool b => cases htext
  | str s => cases hv
  | null => cases hv
  | list vs => cases hv
  | dict fs => cases hv

/-- The amount of a transaction is the number in its payload. -/
theorem Event.amount_of_encode {lib : NumberLib} {e : Event} {v : Json} {q : ℚ}
    (hv : v.number? = some q) (htext : encode lib.toPyLib v = .ok e.txn.amount) :
    e.amount lib = q := by
  rw [amount, incrArgument_of_encode hv htext]
  rfl

/-- The members of two transactions differ if their ids do. -/
theorem Event.uuid_of_member {e e' : Event} (h : e.member = e'.member) :
    e.uuid.text = e'.uuid.text := by
  have hlist := congrArg String.toList h
  simp only [member, String.toList_append] at hlist
  have hlength : e.uuid.text.toList.length = e'.uuid.text.toList.length := by
    rw [String.length_toList, String.length_toList, e.uuid.length_eq, e'.uuid.length_eq]
  exact String.toList_inj.mp (List.append_inj' hlist hlength).2

/-! ## The store -/

/-- The aggregator's keys in Redis. A key determines its kind (`key_injective`), so the keys of each
kind are kept apart by the type of their values. -/
structure VelocityStore where
  txns : Keyspace String (SortedSet String ℚ) ℚ
  sums : Keyspace String ℚ ℚ
  merchants : Keyspace String (Finset String) ℚ
  countries : Keyspace String (Finset String) ℚ

namespace VelocityStore

/-- The store without keys. -/
def empty : VelocityStore := ⟨fun _ => none, fun _ => none, fun _ => none, fun _ => none⟩

end VelocityStore

namespace Event

/-- The expiry the transaction gives the keys of a window. -/
def deadline (win : Window) (e : Event) : ℚ := e.now + (win.seconds + 10)

theorem lt_deadline (win : Window) (e : Event) : e.now < e.deadline win := by
  have hpos := win.seconds_pos
  unfold deadline
  linarith

/-- The commands on the sorted set of a window. -/
def recordTxns (e : Event) (win : Window) (ks : Keyspace String (SortedSet String ℚ) ℚ) :
    Keyspace String (SortedSet String ℚ) ℚ :=
  let zkey := key e.customer .txns win
  let ks := ks.zremrangebyscore e.now zkey (e.now - win.seconds)
  let ks := ks.zadd e.now zkey e.member e.now
  ks.expireAt e.now zkey (e.deadline win)

/-- The commands on the sum of a window. -/
def recordSum (lib : NumberLib) (e : Event) (win : Window) (ks : Keyspace String ℚ ℚ) :
    Keyspace String ℚ ℚ :=
  let skey := key e.customer .sum win
  let ks :=
    match lib.incrArgument e.txn.amount with
    | some amount => ks.accumulate e.now skey 0 (lib.incrSum · amount)
    -- the command fails, and the pipeline goes on with the next one
    | none => ks
  ks.expireAt e.now skey (e.deadline win)

/-- The commands on the merchants of a window. -/
def recordMerchant (e : Event) (win : Window) (ks : Keyspace String (Finset String) ℚ) :
    Keyspace String (Finset String) ℚ :=
  let mkey := key e.customer .merch win
  let ks := ks.pfadd e.now mkey e.txn.merchantId
  ks.expireAt e.now mkey (e.deadline win)

/-- The commands on the countries of a window. -/
def recordCountry (e : Event) (win : Window) (ks : Keyspace String (Finset String) ℚ) :
    Keyspace String (Finset String) ℚ :=
  let ckey := key e.customer .country win
  let ks := ks.pfadd e.now ckey e.txn.country
  ks.expireAt e.now ckey (e.deadline win)

/-- The commands of the first pipeline for one window. -/
def recordWindow (lib : NumberLib) (e : Event) (store : VelocityStore) (win : Window) :
    VelocityStore where
  txns := e.recordTxns win store.txns
  sums := e.recordSum lib win store.sums
  merchants := e.recordMerchant win store.merchants
  countries := e.recordCountry win store.countries

/-- The first pipeline. -/
def record (lib : NumberLib) (e : Event) (store : VelocityStore) : VelocityStore :=
  windows.foldl (e.recordWindow lib) store

end Event

/-! ## The snapshot -/

/-- The fields of a snapshot for one window. -/
structure WindowSnapshot where
  txnCount : ℕ
  txnSum : ℚ
  distinctMerchants : ℕ
  distinctCountries : ℕ
  maxAmount : ℚ

/-- `VelocitySnapshot`, its fields grouped by window. -/
structure VelocitySnapshot where
  customerId : Json
  window : Window → WindowSnapshot

/-- `item.split(":")[0]` -/
def beforeColon (item : String) : String := String.ofList (item.toList.takeWhile (· ≠ ':'))

/-- `parse_max` -/
def parseMax (lib : NumberLib) (zlist : List String) : ℚ :=
  zlist.foldl (fun maxVal item =>
    match lib.float (beforeColon item) with
    | some val => if maxVal < val then val else maxVal
    | none => maxVal) 0

/-- `ZRANGE k 0 -1`. The order of the members is not that of Redis, and `parse_max` does not depend
on it. -/
def zrange (ks : Keyspace String (SortedSet String ℚ) ℚ) (now : ℚ) (k : String) : List String :=
  match ks.find? now k with
  | some e => e.value.toList.map Prod.fst
  | none => []

/-- The second pipeline for one window. -/
def readWindow (lib : NumberLib) (customer : String) (now : ℚ) (store : VelocityStore)
    (win : Window) : WindowSnapshot where
  txnCount := store.txns.zcard now (key customer .txns win)
  txnSum := lib.floatReply ((store.sums.get now (key customer .sum win)).getD 0)
  distinctMerchants := store.merchants.pfcount now (key customer .merch win)
  distinctCountries := store.countries.pfcount now (key customer .country win)
  maxAmount := parseMax lib (zrange store.txns now (key customer .txns win))

/-- `process_transaction`, called at the time `now` and making the id `eventUuid`. -/
def processTransaction (lib : NumberLib) (payload : Json) (now : ℚ) (eventUuid : EventUuid)
    (store : VelocityStore) : Except Exn VelocitySnapshot × VelocityStore :=
  match Transaction.ofPayload lib.toPyLib payload with
  | .error x => (.error x, store)
  | .ok txn =>
      let store := Event.record lib ⟨txn, now, eventUuid⟩ store
      match lib.incrArgument txn.amount with
      -- the first pipeline ends by raising the error of its failed command
      | none => (.error ⟨.other "ResponseError", "value is not a valid float"⟩, store)
      | some _ => (.ok ⟨txn.customerId, readWindow lib txn.customer now store⟩, store)

/-! ## What one transaction leaves -/

namespace Event

variable {lib : NumberLib} (e : Event) (win : Window)

theorem actsOn_recordTxns : Keyspace.ActsOn (e.recordTxns win) (key e.customer .txns win) := by
  have hprune := Keyspace.ActsOn.zremrangebyscore (M := String) (T := ℚ) e.now
    (key e.customer .txns win) (e.now - win.seconds)
  have hadd := Keyspace.ActsOn.zadd (T := ℚ) e.now (key e.customer .txns win) e.member e.now
  exact (Keyspace.ActsOn.expireAt e.now _ (e.deadline win)).comp (hadd.comp hprune)

theorem actsOn_recordSum : Keyspace.ActsOn (e.recordSum lib win) (key e.customer .sum win) := by
  have hexpire := Keyspace.ActsOn.expireAt (V := ℚ) e.now (key e.customer .sum win)
    (e.deadline win)
  unfold recordSum
  cases lib.incrArgument e.txn.amount with
  | none => exact hexpire
  | some amount => exact hexpire.comp (Keyspace.ActsOn.accumulate e.now _ 0 (lib.incrSum · amount))

theorem actsOn_recordMerchant :
    Keyspace.ActsOn (e.recordMerchant win) (key e.customer .merch win) := by
  have hadd := Keyspace.ActsOn.accumulate e.now (key e.customer .merch win)
    (∅ : Finset String) (insert e.txn.merchantId)
  exact (Keyspace.ActsOn.expireAt e.now _ (e.deadline win)).comp hadd

theorem actsOn_recordCountry :
    Keyspace.ActsOn (e.recordCountry win) (key e.customer .country win) := by
  have hadd := Keyspace.ActsOn.accumulate e.now (key e.customer .country win)
    (∅ : Finset String) (insert e.txn.country)
  exact (Keyspace.ActsOn.expireAt e.now _ (e.deadline win)).comp hadd

variable (lib) (store : VelocityStore)

/-- The pipeline treats the kinds of keys apart. -/
theorem record_eq : e.record lib store =
    { txns := windows.foldl (fun ks win => e.recordTxns win ks) store.txns
      sums := windows.foldl (fun ks win => e.recordSum lib win ks) store.sums
      merchants := windows.foldl (fun ks win => e.recordMerchant win ks) store.merchants
      countries := windows.foldl (fun ks win => e.recordCountry win ks) store.countries } := by
  unfold record
  induction windows generalizing store with
  | nil => rfl
  | cons win wins ih =>
      rw [List.foldl_cons, ih]
      rfl

/-- The commands for the other windows do not change what those for this one leave. -/
theorem record_txns : (e.record lib store).txns (key e.customer .txns win)
    = e.recordTxns win store.txns (key e.customer .txns win) := by
  rw [record_eq]
  dsimp only
  exact Keyspace.foldl_actsOn e.actsOn_recordTxns (nodup_keys e.customer .txns) (mem_windows win) _

theorem record_sums : (e.record lib store).sums (key e.customer .sum win)
    = e.recordSum lib win store.sums (key e.customer .sum win) := by
  rw [record_eq]
  dsimp only
  exact Keyspace.foldl_actsOn e.actsOn_recordSum (nodup_keys e.customer .sum) (mem_windows win) _

theorem record_merchants : (e.record lib store).merchants (key e.customer .merch win)
    = e.recordMerchant win store.merchants (key e.customer .merch win) := by
  rw [record_eq]
  dsimp only
  exact Keyspace.foldl_actsOn e.actsOn_recordMerchant (nodup_keys e.customer .merch)
    (mem_windows win) _

theorem record_countries : (e.record lib store).countries (key e.customer .country win)
    = e.recordCountry win store.countries (key e.customer .country win) := by
  rw [record_eq]
  dsimp only
  exact Keyspace.foldl_actsOn e.actsOn_recordCountry (nodup_keys e.customer .country)
    (mem_windows win) _

/-- The keys of other customers stay as they are. -/
theorem record_frame {c : String} (hc : c ≠ e.customer) :
    (e.record lib store).txns (key c .txns win) = store.txns (key c .txns win) ∧
    (e.record lib store).sums (key c .sum win) = store.sums (key c .sum win) ∧
    (e.record lib store).merchants (key c .merch win) = store.merchants (key c .merch win) ∧
    (e.record lib store).countries (key c .country win) = store.countries (key c .country win) := by
  have hkey : ∀ kind, ∀ win' ∈ windows, key c kind win ≠ key e.customer kind win' := by
    intro kind win' _ heq
    exact hc (key_injective heq).1
  rw [record_eq]
  dsimp only
  refine ⟨?_, ?_, ?_, ?_⟩
  · exact Keyspace.foldl_actsOn_frame e.actsOn_recordTxns windows _ (hkey .txns)
  · exact Keyspace.foldl_actsOn_frame e.actsOn_recordSum windows _ (hkey .sum)
  · exact Keyspace.foldl_actsOn_frame e.actsOn_recordMerchant windows _ (hkey .merch)
  · exact Keyspace.foldl_actsOn_frame e.actsOn_recordCountry windows _ (hkey .country)

end Event

/-! ## Histories -/

/-- A call of `process_transaction`: its payload, its time, and the id it makes. -/
structure Call where
  payload : Json
  now : ℚ
  uuid : EventUuid

namespace Call

variable (lib : NumberLib)

/-- The transaction of a call, if its payload can be read. -/
def event (k : Call) : Option Event :=
  match Transaction.ofPayload lib.toPyLib k.payload with
  | .ok txn => some ⟨txn, k.now, k.uuid⟩
  | .error _ => none

/-- Make the call. -/
def perform (k : Call) (store : VelocityStore) : Except Exn VelocitySnapshot × VelocityStore :=
  processTransaction lib k.payload k.now k.uuid store

/-- The store after a history of calls. -/
def stateAfter (history : List Call) (store : VelocityStore) : VelocityStore :=
  history.foldl (fun store k => (k.perform lib store).2) store

/-- The transactions of a history. -/
def events (history : List Call) : List Event := history.filterMap (event lib)

variable {lib}

theorem event_now {k : Call} {e : Event} (h : k.event lib = some e) : e.now = k.now := by
  unfold event at h
  split at h
  · cases h
    rfl
  · cases h

theorem event_uuid {k : Call} {e : Event} (h : k.event lib = some e) : e.uuid = k.uuid := by
  unfold event at h
  split at h
  · cases h
    rfl
  · cases h

/-- A call leaves what its transaction leaves, if it has one. -/
theorem perform_store (k : Call) (store : VelocityStore) :
    (k.perform lib store).2 = (k.event lib).elim store fun e => e.record lib store := by
  unfold perform processTransaction event
  cases Transaction.ofPayload lib.toPyLib k.payload with
  | error x => rfl
  | ok txn => cases hamount : lib.incrArgument txn.amount <;> simp [hamount]

/-- A call that returns a snapshot has a transaction, and reads back what it left. -/
theorem perform_ok {k : Call} {store : VelocityStore} {snapshot : VelocitySnapshot}
    (h : (k.perform lib store).1 = .ok snapshot) :
    ∃ e, k.event lib = some e ∧ (lib.incrArgument e.txn.amount).isSome ∧
      snapshot = ⟨e.txn.customerId, readWindow lib e.customer e.now (e.record lib store)⟩ := by
  unfold perform processTransaction at h
  unfold event
  cases htxn : Transaction.ofPayload lib.toPyLib k.payload with
  | error x =>
      rw [htxn] at h
      cases h
  | ok txn =>
      rw [htxn] at h
      cases hamount : lib.incrArgument txn.amount with
      | none =>
          simp only [hamount] at h
          cases h
      | some amount =>
          simp only [hamount] at h
          cases h
          exact ⟨⟨txn, k.now, k.uuid⟩, rfl, by simp [hamount], rfl⟩

/-- The store after a history is that after its transactions. -/
theorem stateAfter_eq (history : List Call) (store : VelocityStore) :
    stateAfter lib history store
      = (events lib history).foldl (fun store e => e.record lib store) store := by
  induction history generalizing store with
  | nil => rfl
  | cons k history ih =>
      rw [stateAfter, List.foldl_cons, ← stateAfter, ih, perform_store, events, events,
        List.filterMap_cons]
      cases k.event lib with
      | none => rfl
      | some e => rfl

end Call

/-- The transactions of one customer. -/
def own (c : String) (es : List Event) : List Event := es.filter fun e => e.customer = c

theorem own_concat_self (es : List Event) (e : Event) :
    own e.customer (es ++ [e]) = own e.customer es ++ [e] := by
  simp [own]

theorem own_concat_of_ne {c : String} (es : List Event) {e : Event} (h : c ≠ e.customer) :
    own c (es ++ [e]) = own c es := by
  simp [own, h.symm]

/-! ## Sample calls -/

/-- The characters of a generated id with the given last digit. -/
def uuidText (digit : Char) : List Char :=
  List.replicate 8 '0' ++ '-' :: (List.replicate 4 '0' ++ '-' :: '4' ::
    (List.replicate 3 '0' ++ '-' :: '8' :: (List.replicate 3 '0' ++ '-' ::
      (List.replicate 11 '0' ++ [digit]))))

theorem length_uuidText (digit : Char) : (uuidText digit).length = 36 := by
  simp [uuidText]

/-- A generated id. -/
def sampleUuid (digit : Char) : EventUuid where
  text := String.ofList (uuidText digit)
  length_eq := by
    rw [String.length_ofList]
    exact length_uuidText digit

/-- A call with a payload that has all the parts `process_transaction` reads. -/
def sampleCall (customer : String) (amount : ℤ) (merchant country : String) (now : ℚ)
    (digit : Char) : Call where
  payload := .dict [("customer_id", .str customer), ("amount", .int amount),
    ("merchant", .dict [("id", .str merchant)]),
    ("device", .dict [("geo", .dict [("country", .str country)])])]
  now := now
  uuid := sampleUuid digit

/-- The transaction of a sample call. -/
def sampleEvent (lib : NumberLib) (customer : String) (amount : ℤ) (merchant country : String)
    (now : ℚ) (digit : Char) : Event where
  txn := ⟨.str customer, customer, lib.str (.int amount), merchant, country⟩
  now := now
  uuid := sampleUuid digit

section Sample

variable (lib : NumberLib) (customer : String) (amount : ℤ) (merchant country : String) (now : ℚ)
  (digit : Char)

theorem ofPayload_sample :
    Transaction.ofPayload lib.toPyLib (sampleCall customer amount merchant country now digit).payload
      = .ok (sampleEvent lib customer amount merchant country now digit).txn := by
  simp [Transaction.ofPayload, sampleCall, sampleEvent, encode, List.lookup_cons, bind, Except.bind,
    pure, Except.pure]

@[simp] theorem event_sample :
    (sampleCall customer amount merchant country now digit).event lib
      = some (sampleEvent lib customer amount merchant country now digit) := by
  rw [Call.event, ofPayload_sample]
  rfl

theorem amount_sample :
    (sampleEvent lib customer amount merchant country now digit).amount lib = (amount : ℚ) := by
  exact Event.amount_of_encode (v := .int amount) rfl rfl

/-- A sample call returns a snapshot. -/
theorem perform_sample (store : VelocityStore) :
    ((sampleCall customer amount merchant country now digit).perform lib store).1
      = .ok ⟨.str customer, readWindow lib customer now
        ((sampleEvent lib customer amount merchant country now digit).record lib store)⟩ := by
  unfold Call.perform processTransaction
  rw [ofPayload_sample]
  simp only [sampleEvent, lib.incrArgument_int]
  rfl

end Sample

end FraudDetection.Stream
