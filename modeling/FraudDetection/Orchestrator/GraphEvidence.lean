import FraudDetection.Graph.Calls
import FraudDetection.Orchestrator.Isolation
import FraudDetection.Orchestrator.RuleContext

/-!
# What the graph links

The orchestrator sends a missing device or address as the empty text, and the graph has a node for
it like for any other id. All cards without a device share that node.

`mem_hasDevice` and `mem_hasIp` read the relationships of the graph back to the transactions: up to
`node`, which identifies what is missing with the empty text. Evidence is a link of values that are
there, so a pattern is only wrong where each of its links runs through something missing.
-/

namespace FraudDetection.Orchestrator

open Python Store
open FraudDetection.Graph

/-! ## What is sent -/

/-- The message that `AnalyzeGraph` gets. -/
def receivedMessage (request : Request) : GraphAnalysisRequest where
  transactionId := textField request.fields "transaction_id"
  cardNumber := textField request.fields "card_number"
  merchantId := textField request.fields "merchant_id"
  deviceId := textField request.fields "device_id"
  ipAddress := textField request.fields "ip_address"
  amount := doubleField request.fields "amount"

/-- The message that `evaluate_graph_analysis` sends for a payload, if it can be made. -/
def sentMessage (pb : Protobuf) (payload : Json) : Except Exn GraphAnalysisRequest := do
  let request ← graphRequest payload
  pb.construct request
  return receivedMessage request

/-- A payload that is passed on to `AnalyzeGraph`. -/
structure Passed (pb : Protobuf) where
  payload : Json
  message : GraphAnalysisRequest
  sent : sentMessage pb payload = .ok message

/-- A text of a payload. A key that is absent or `None` has none. -/
def textOf (payload : Json) (name : String) : Option String :=
  match payload with
  | .dict fields =>
      match fields.lookup name with
      | some (.str s) => some s
      | _ => none
  | _ => none

/-- Which card was used, on which device and at which address. -/
structure Usage where
  card : String
  device : Option String
  ip : Option String

/-- What a transaction says about its card. -/
def Passed.usage {pb : Protobuf} (tx : Passed pb) : Usage where
  card := (textOf tx.payload "customer_id").getD ""
  device := textOf tx.payload "device_fingerprint"
  ip := textOf tx.payload "ip_address"

/-- The id of the node for a device or address. -/
def node (value : Option String) : String := value.getD ""

/-- Equal texts have one node, and so do different ones only where something is missing. -/
theorem eq_of_node_eq {x y : Option String} (h : node x = node y) (hx : x ≠ none) (hy : y ≠ none) :
    x = y := by
  obtain ⟨s, rfl⟩ := Option.ne_none_iff_exists'.mp hx
  obtain ⟨t, rfl⟩ := Option.ne_none_iff_exists'.mp hy
  exact congrArg some h

theorem eq_some_of_node_ne {x : Option String} (h : node x ≠ "") : x = some (node x) := by
  cases x with
  | none => exact absurd rfl h
  | some s => rfl

/-- A text arrives as it was in the payload, or empty. -/
theorem textField_getD {fields fs : List (String × Json)} {name key : String}
    (h : fields.lookup name = some ((fs.lookup key).getD (.str ""))) :
    textField fields name = node (textOf (.dict fs) key) := by
  unfold textField textOf node
  rw [h]
  dsimp only
  cases fs.lookup key with
  | none => rfl
  | some value => cases value <;> rfl

/-- The ids that a message has. -/
theorem message_ids {pb : Protobuf} (tx : Passed pb) :
    tx.message.cardNumber = tx.usage.card ∧ tx.message.deviceId = node tx.usage.device ∧
      tx.message.ipAddress = node tx.usage.ip := by
  obtain ⟨payload, message, hsent⟩ := tx
  obtain ⟨request, hrequest, hsent⟩ := bind_eq_ok.mp hsent
  obtain ⟨-, -, hsent⟩ := bind_eq_ok.mp hsent
  cases hsent
  cases payload with
  | dict fs =>
    cases hrequest
    refine ⟨textField_getD rfl, textField_getD rfl, textField_getD rfl⟩
  | _ => cases hrequest

/-! ## Evidence -/

section Evidence

variable (history : List Usage) (u : Usage)

/-- The card was used on the device. -/
def Used (card device : String) : Prop :=
  ∃ v ∈ history, v.card = card ∧ v.device = some device

/-- The device was used at the address. -/
def At (device ip : String) : Prop :=
  ∃ v ∈ history, v.device = some device ∧ v.ip = some ip

/-- Another card was used on the same device. -/
def DeviceShared : Prop :=
  ∃ device card, u.device = some device ∧ card ≠ u.card ∧ Used history card device

/-- Two different devices were used at the address. -/
def AddressShared : Prop :=
  ∃ ip d e, u.ip = some ip ∧ d ≠ e ∧ At history d ip ∧ At history e ip

/-- Another card was used on a different device with an address in common. -/
def CardLinked : Prop :=
  ∃ card, card ≠ u.card ∧ Edges.Linked (Used history) (At history) u.card card

/-! ## Links through something missing -/

/-- A missing device is not one that another card lacks too. The empty text counts as missing,
except where both cards have it. -/
def DeviceKnown : Prop :=
  node u.device = "" → ∀ v ∈ history, v.card ≠ u.card → node v.device = "" →
    u.device = some "" ∧ ∃ w ∈ history, w.card ≠ u.card ∧ w.device = some ""

/-- If something is missing in one of two transactions with one address and different devices, there
are also two in which nothing is. -/
def AddressKnown : Prop :=
  ∀ v ∈ history, node v.ip = node u.ip → node v.device ≠ node u.device →
    (u.device = none ∨ u.ip = none ∨ v.device = none ∨ v.ip = none) →
    AddressShared history u

/-- Four transactions that link two cards. -/
structure Chain (p q r s : Usage) : Prop where
  mem_p : p ∈ history
  mem_q : q ∈ history
  mem_r : r ∈ history
  mem_s : s ∈ history
  device : node p.device = node q.device
  ip : node q.ip = node r.ip
  device' : node r.device = node s.device
  different : node p.device ≠ node r.device

/-- If something is missing in a chain to another card, there is also one in which nothing is. -/
def LinkKnown : Prop :=
  ∀ p q r s, Chain history p q r s → p.card = u.card → s.card ≠ u.card →
    (p.device = none ∨ q.device = none ∨ q.ip = none ∨ r.ip = none ∨ r.device = none ∨
      s.device = none) →
    CardLinked history u

end Evidence

/-! ## The graph of the transactions -/

section Built

variable {pb : Protobuf} {txs : List (Passed pb)}

/-- The graph after the messages of the transactions. -/
def graphOf (txs : List (Passed pb)) : Database := build (txs.map Passed.message)

/-- What the transactions say about the cards. -/
def usages (txs : List (Passed pb)) : List Usage := txs.map Passed.usage

theorem mem_hasDevice {card device : String} :
    (card, device) ∈ (graphOf txs).hasDevice ↔
      ∃ v ∈ usages txs, v.card = card ∧ node v.device = device := by
  unfold graphOf usages
  rw [mem_hasDevice_build]
  simp only [List.mem_map, exists_exists_and_eq_and]
  refine exists_congr fun tx => and_congr_right fun _ => ?_
  rw [(message_ids tx).1, (message_ids tx).2.1]

theorem mem_hasIp {device ip : String} :
    (device, ip) ∈ (graphOf txs).hasIp ↔
      ∃ v ∈ usages txs, node v.device = device ∧ node v.ip = ip := by
  unfold graphOf usages
  rw [mem_hasIp_build]
  simp only [List.mem_map, exists_exists_and_eq_and]
  refine exists_congr fun tx => and_congr_right fun _ => ?_
  rw [(message_ids tx).2.1, (message_ids tx).2.2]

theorem mem_usages_self {history : List (Passed pb)} {tx : Passed pb} :
    tx.usage ∈ usages (history ++ [tx]) :=
  List.mem_map_of_mem (List.mem_append_right _ (List.mem_singleton_self tx))

end Built

/-! ## The three patterns -/

section Patterns

variable {pb : Protobuf} {txs : List (Passed pb)} {u : Usage}

/-- A device is reported as shared if another card has its node. -/
theorem device_reported_iff (hu : u ∈ usages txs) :
    1 < ((graphOf txs).checkDeviceSharing (node u.device)).length ↔
      ∃ v ∈ usages txs, v.card ≠ u.card ∧ node v.device = node u.device := by
  have hown : (u.card, node u.device) ∈ (graphOf txs).hasDevice :=
    mem_hasDevice.mpr ⟨u, hu, rfl, rfl⟩
  unfold Database.checkDeviceSharing
  rw [Edges.one_lt_length_sources hown]
  constructor
  · rintro ⟨card, hne, hmem⟩
    obtain ⟨v, hv, rfl, hdevice⟩ := mem_hasDevice.mp hmem
    exact ⟨v, hv, hne, hdevice⟩
  · rintro ⟨v, hv, hne, hdevice⟩
    exact ⟨v.card, hne, mem_hasDevice.mpr ⟨v, hv, rfl, hdevice⟩⟩

/-- An address is reported as a cluster if another device has its node. -/
theorem ip_reported_iff (hu : u ∈ usages txs) :
    1 < ((graphOf txs).checkIpCluster (node u.ip)).length ↔
      ∃ v ∈ usages txs, node v.ip = node u.ip ∧ node v.device ≠ node u.device := by
  have hown : (node u.device, node u.ip) ∈ (graphOf txs).hasIp :=
    mem_hasIp.mpr ⟨u, hu, rfl, rfl⟩
  unfold Database.checkIpCluster
  rw [Edges.one_lt_length_sources hown]
  constructor
  · rintro ⟨device, hne, hmem⟩
    obtain ⟨v, hv, rfl, hip⟩ := mem_hasIp.mp hmem
    exact ⟨v, hv, hip, hne⟩
  · rintro ⟨v, hv, hip, hne⟩
    exact ⟨node v.device, hne, mem_hasIp.mpr ⟨v, hv, rfl, hip⟩⟩

/-- A ring is reported if a chain leads to another card. -/
theorem ring_reported_iff :
    0 < ((graphOf txs).detectFraudRing u.card).length ↔
      ∃ p q r s, Chain (usages txs) p q r s ∧ p.card = u.card ∧ s.card ≠ u.card := by
  rw [List.length_pos_iff_exists_mem]
  constructor
  · rintro ⟨card, hmem⟩
    obtain ⟨hne, d, e, i, hde, hcd, hdi, hei, hce⟩ := mem_detectFraudRing.mp hmem
    obtain ⟨p, hp, hpcard, hpd⟩ := mem_hasDevice.mp hcd
    obtain ⟨q, hq, hqd, hqi⟩ := mem_hasIp.mp hdi
    obtain ⟨r, hr, hre, hri⟩ := mem_hasIp.mp hei
    obtain ⟨s, hs, rfl, hse⟩ := mem_hasDevice.mp hce
    refine ⟨p, q, r, s, ⟨hp, hq, hr, hs, hpd.trans hqd.symm, hqi.trans hri.symm,
      hre.trans hse.symm, ?_⟩, hpcard, hne⟩
    rw [hpd, hre]
    exact hde
  · rintro ⟨p, q, r, s, chain, hcard, hne⟩
    refine ⟨s.card, mem_detectFraudRing.mpr ⟨hne, node p.device, node r.device, node q.ip,
      chain.different, ?_, ?_, ?_, ?_⟩⟩
    · exact mem_hasDevice.mpr ⟨p, chain.mem_p, hcard, rfl⟩
    · exact mem_hasIp.mpr ⟨q, chain.mem_q, chain.device.symm, rfl⟩
    · exact mem_hasIp.mpr ⟨r, chain.mem_r, rfl, chain.ip.symm⟩
    · exact mem_hasDevice.mpr ⟨s, chain.mem_s, rfl, chain.device'.symm⟩

theorem device_justified_iff (hu : u ∈ usages txs) :
    (1 < ((graphOf txs).checkDeviceSharing (node u.device)).length →
      DeviceShared (usages txs) u) ↔ DeviceKnown (usages txs) u := by
  rw [device_reported_iff hu]
  constructor
  · intro hjustified hu' v hv hne hv'
    obtain ⟨device, card, hdevice, hcard, w, hw, rfl, hwdevice⟩ :=
      hjustified ⟨v, hv, hne, hv'.trans hu'.symm⟩
    have hempty : device = "" := by
      rw [hdevice] at hu'
      exact hu'
    rw [hempty] at hdevice hwdevice
    exact ⟨hdevice, w, hw, hcard, hwdevice⟩
  · rintro hknown ⟨v, hv, hne, hsame⟩
    by_cases hu' : node u.device = ""
    · obtain ⟨hdevice, w, hw, hcard, hwdevice⟩ := hknown hu' v hv hne (hsame.trans hu')
      exact ⟨"", w.card, hdevice, hcard, w, hw, rfl, hwdevice⟩
    · -- a text that is not empty is the device of both
      have hv' : node v.device ≠ "" := fun h => hu' (hsame.symm.trans h)
      refine ⟨node u.device, v.card, eq_some_of_node_ne hu', hne, v, hv, rfl, ?_⟩
      rw [← hsame]
      exact eq_some_of_node_ne hv'

theorem ip_justified_iff (hu : u ∈ usages txs) :
    (1 < ((graphOf txs).checkIpCluster (node u.ip)).length → AddressShared (usages txs) u) ↔
      AddressKnown (usages txs) u := by
  rw [ip_reported_iff hu]
  constructor
  · intro hjustified v hv hip hdevice _
    exact hjustified ⟨v, hv, hip, hdevice⟩
  · rintro hknown ⟨v, hv, hip, hdevice⟩
    by_cases hmissing : u.device = none ∨ u.ip = none ∨ v.device = none ∨ v.ip = none
    · exact hknown v hv hip hdevice hmissing
    · obtain ⟨hud, hui, hvd, hvi⟩ :
          u.device ≠ none ∧ u.ip ≠ none ∧ v.device ≠ none ∧ v.ip ≠ none := by
        simpa only [not_or] using hmissing
      obtain ⟨d, hd⟩ := Option.ne_none_iff_exists'.mp hud
      obtain ⟨e, he⟩ := Option.ne_none_iff_exists'.mp hvd
      obtain ⟨i, hi⟩ := Option.ne_none_iff_exists'.mp hui
      have hvi' : v.ip = some i := (eq_of_node_eq hip hvi hui).trans hi
      refine ⟨i, d, e, hi, ?_, ⟨u, hu, hd, hi⟩, ⟨v, hv, he, hvi'⟩⟩
      rintro rfl
      exact hdevice (by rw [hd, he])

theorem ring_justified_iff :
    (0 < ((graphOf txs).detectFraudRing u.card).length → CardLinked (usages txs) u) ↔
      LinkKnown (usages txs) u := by
  rw [ring_reported_iff]
  constructor
  · intro hjustified p q r s chain hcard hne _
    exact hjustified ⟨p, q, r, s, chain, hcard, hne⟩
  · rintro hknown ⟨p, q, r, s, chain, hcard, hne⟩
    by_cases hmissing : p.device = none ∨ q.device = none ∨ q.ip = none ∨ r.ip = none ∨
        r.device = none ∨ s.device = none
    · exact hknown p q r s chain hcard hne hmissing
    · obtain ⟨hpd, hqd, hqi, hri, hrd, hsd⟩ : p.device ≠ none ∧ q.device ≠ none ∧ q.ip ≠ none ∧
          r.ip ≠ none ∧ r.device ≠ none ∧ s.device ≠ none := by
        simpa only [not_or] using hmissing
      obtain ⟨d, hd⟩ := Option.ne_none_iff_exists'.mp hpd
      obtain ⟨e, he⟩ := Option.ne_none_iff_exists'.mp hrd
      obtain ⟨i, hi⟩ := Option.ne_none_iff_exists'.mp hqi
      have hqd' : q.device = some d := (eq_of_node_eq chain.device.symm hqd hpd).trans hd
      have hri' : r.ip = some i := (eq_of_node_eq chain.ip.symm hri hqi).trans hi
      have hse' : s.device = some e := (eq_of_node_eq chain.device'.symm hsd hrd).trans he
      refine ⟨s.card, hne, d, e, i, ?_, ⟨p, chain.mem_p, hcard, hd⟩, ⟨q, chain.mem_q, hqd', hi⟩,
        ⟨r, chain.mem_r, he, hri'⟩, ⟨s, chain.mem_s, rfl, hse'⟩⟩
      rintro rfl
      exact chain.different (by rw [hd, he])

end Patterns

/-! ## What a transaction is told -/

section Told

variable {pb : Protobuf}

theorem graphOf_append (history : List (Passed pb)) (tx : Passed pb) :
    graphOf (history ++ [tx]) = (graphOf history).addTransactionToGraph tx.message := by
  unfold graphOf
  rw [List.map_append]
  exact build_append_singleton _ _

/-- Where no device and no address is missing, every reported pattern has its evidence. -/
theorem known_of_complete {history : List Usage} {u : Usage} (hu : u ∈ history)
    (h : ∀ v ∈ history, v.device ≠ none ∧ v.ip ≠ none) :
    DeviceKnown history u ∧ AddressKnown history u ∧ LinkKnown history u := by
  refine ⟨?_, ?_, ?_⟩
  · intro hempty v hv hne hempty'
    have hdevice : u.device = some "" := eq_of_node_eq hempty (h u hu).1 (Option.some_ne_none _)
    have hdevice' : v.device = some "" := eq_of_node_eq hempty' (h v hv).1 (Option.some_ne_none _)
    exact ⟨hdevice, v, hv, hne, hdevice'⟩
  · intro v hv _ _ hmissing
    rcases hmissing with hnone | hnone | hnone | hnone
    · exact absurd hnone (h u hu).1
    · exact absurd hnone (h u hu).2
    · exact absurd hnone (h v hv).1
    · exact absurd hnone (h v hv).2
  · intro p q r s chain _ _ hmissing
    rcases hmissing with hnone | hnone | hnone | hnone | hnone | hnone
    · exact absurd hnone (h p chain.mem_p).1
    · exact absurd hnone (h q chain.mem_q).1
    · exact absurd hnone (h q chain.mem_q).2
    · exact absurd hnone (h r chain.mem_r).2
    · exact absurd hnone (h r chain.mem_r).1
    · exact absurd hnone (h s chain.mem_s).1

variable {history : List (Passed pb)} {tx : Passed pb} {result : GraphAnalysisResult}

/-- What the three rules of `analyze_graph` report, and when they are right. -/
theorem reported_iff (h : analyzeGraph ((graphOf history).client .working tx.message) tx.message =
    .ok ⟨none, result⟩) :
    (("DEVICE_SHARING_RING" ∈ result.types → DeviceShared (usages (history ++ [tx])) tx.usage) ↔
        DeviceKnown (usages (history ++ [tx])) tx.usage) ∧
      (("IP_CLUSTER" ∈ result.types → AddressShared (usages (history ++ [tx])) tx.usage) ↔
        AddressKnown (usages (history ++ [tx])) tx.usage) ∧
      (("SYNTHETIC_IDENTITY_RING" ∈ result.types →
          CardLinked (usages (history ++ [tx])) tx.usage) ↔
        LinkKnown (usages (history ++ [tx])) tx.usage) := by
  obtain ⟨hcard, hdevice, hip⟩ := message_ids tx
  refine ⟨?_, ?_, ?_⟩
  · rw [mem_types h, found_device, ← graphOf_append, hdevice]
    exact device_justified_iff mem_usages_self
  · rw [mem_types h, found_ip, ← graphOf_append, hip]
    exact ip_justified_iff mem_usages_self
  · rw [mem_types h, found_ring, ← graphOf_append, hcard]
    exact ring_justified_iff

/-- Each pattern that is reported for a transaction has its evidence among the transactions so far
exactly if none of its links hangs on something missing. -/
theorem patterns_justified_iff (history : List (Passed pb)) (tx : Passed pb) :
    ∃ result,
      analyzeGraph ((graphOf history).client .working tx.message) tx.message =
        .ok ⟨none, result⟩ ∧
      (("DEVICE_SHARING_RING" ∈ result.types →
          DeviceShared (usages (history ++ [tx])) tx.usage) ↔
        DeviceKnown (usages (history ++ [tx])) tx.usage) ∧
      (("IP_CLUSTER" ∈ result.types → AddressShared (usages (history ++ [tx])) tx.usage) ↔
        AddressKnown (usages (history ++ [tx])) tx.usage) ∧
      (("SYNTHETIC_IDENTITY_RING" ∈ result.types →
          CardLinked (usages (history ++ [tx])) tx.usage) ↔
        LinkKnown (usages (history ++ [tx])) tx.usage) := by
  obtain ⟨result, h⟩ := analyzeGraph_working (graphOf history) tx.message
  exact ⟨result, h, reported_iff h⟩

/-- Where every transaction carries a device and an address, each pattern that is reported has its
evidence. -/
theorem patterns_justified_of_complete
    (hcomplete : ∀ v ∈ usages (history ++ [tx]), v.device ≠ none ∧ v.ip ≠ none)
    (h : analyzeGraph ((graphOf history).client .working tx.message) tx.message =
      .ok ⟨none, result⟩) :
    ("DEVICE_SHARING_RING" ∈ result.types → DeviceShared (usages (history ++ [tx])) tx.usage) ∧
      ("IP_CLUSTER" ∈ result.types → AddressShared (usages (history ++ [tx])) tx.usage) ∧
      ("SYNTHETIC_IDENTITY_RING" ∈ result.types →
        CardLinked (usages (history ++ [tx])) tx.usage) := by
  obtain ⟨hdevice, hip, hring⟩ := reported_iff h
  obtain ⟨hdevices, haddresses, hlinks⟩ := known_of_complete mem_usages_self hcomplete
  exact ⟨hdevice.mpr hdevices, hip.mpr haddresses, hring.mpr hlinks⟩

end Told

/-! ### Two customers without a fingerprint -/

/-- A transaction whose payload has no `device_fingerprint`. -/
def anonymous (customer ip : String) : Passed lenientProtobuf where
  payload := .dict [("transaction_id", .str "t"), ("customer_id", .str customer),
    ("merchant_id", .str "m"), ("amount", .float 10), ("ip_address", .str ip)]
  message := ⟨"t", customer, "m", "", ip, 10⟩
  sent := rfl

/-- Two customers who have nothing in common share the device that neither of them has. -/
theorem strangers_linked :
    (analyzeGraph ((graphOf [anonymous "alice" "198.51.100.7"]).client .working
        (anonymous "bob" "203.0.113.9").message) (anonymous "bob" "203.0.113.9").message).toOption.map
      (fun reply => reply.result.types) = some ["DEVICE_SHARING_RING"] ∧
    ¬ DeviceShared (usages [anonymous "alice" "198.51.100.7", anonymous "bob" "203.0.113.9"])
      (anonymous "bob" "203.0.113.9").usage := by
  constructor
  · decide +kernel
  · rintro ⟨device, card, hdevice, -⟩
    cases hdevice

end FraudDetection.Orchestrator
