import Mathlib.Data.List.Induction
import FraudDetection.Graph.AnalyzeGraph
import FraudDetection.Store.Edges

/-!
# The transaction graph

Cards, merchants, devices and addresses are nodes, found by their ids. A transaction merges its
nodes and the relationships card–device and device–address, and creates a relationship of its own
between card and merchant.

`mem_hasDevice_build` and `mem_hasIp_build` say which relationships a history of transactions
leaves: those of its members, whatever their order. The queries read these two relations only. A
call sees a graph that contains the one of every earlier call, and `report` is monotone in the
answers.
-/

namespace FraudDetection.Graph

open Python Store

/-! ## The database -/

/-- The labels of the nodes. -/
inductive Label where
  | card
  | merchant
  | device
  | ip
  deriving DecidableEq, Repr

/-- `TRANSACTED_AT` -/
structure TransactedAt where
  card : String
  merchant : String
  txId : String
  amount : ℚ

/-- The graph: its nodes, each once, and the relationships of each type. -/
structure Database where
  nodes : List (Label × String)
  nodup : nodes.Nodup
  hasDevice : Edges String String
  hasIp : Edges String String
  transactedAt : List TransactedAt

/-- The graph without nodes. -/
def Database.empty : Database := ⟨[], List.nodup_nil, .empty, .empty, []⟩

/-- `MERGE (n:label {id: id})` -/
def Database.mergeNode (g : Database) (label : Label) (id : String) : Database :=
  { g with nodes := g.nodes.insert (label, id), nodup := g.nodup.insert }

/-- `add_transaction_to_graph`. The timestamp of the relationship is left out: nothing reads it. -/
def Database.addTransactionToGraph (g : Database) (tx : GraphAnalysisRequest) : Database :=
  let g := g.mergeNode .card tx.cardNumber
  let g := g.mergeNode .merchant tx.merchantId
  let g := g.mergeNode .device tx.deviceId
  let g := g.mergeNode .ip tx.ipAddress
  { g with
    hasDevice := g.hasDevice.merge tx.cardNumber tx.deviceId
    hasIp := g.hasIp.merge tx.deviceId tx.ipAddress
    transactedAt := g.transactedAt ++ [⟨tx.cardNumber, tx.merchantId, tx.transactionId, tx.amount⟩] }

/-- `check_device_sharing`: `MATCH (c:Card)-[:HAS_DEVICE]->(d:Device {id: $device})`. -/
def Database.checkDeviceSharing (g : Database) (device : String) : List String :=
  g.hasDevice.sources device

/-- `check_ip_cluster`: `MATCH (d:Device)-[:HAS_IP]->(i:IP {id: $ip})`. -/
def Database.checkIpCluster (g : Database) (ip : String) : List String :=
  g.hasIp.sources ip

/-- `detect_fraud_ring`: `MATCH (c1:Card {id: $card})-[:HAS_DEVICE]->(d1:Device)-[:HAS_IP]->(i:IP)`
`<-[:HAS_IP]-(d2:Device)<-[:HAS_DEVICE]-(c2:Card) WHERE c1 <> c2`. One pattern uses no relationship
twice. -/
def Database.detectFraudRing (g : Database) (card : String) : List String :=
  ((g.hasDevice.toList.filter fun r₁ => r₁.1 = card).flatMap fun r₁ =>
    (g.hasIp.toList.filter fun r₂ => r₂.1 = r₁.2).flatMap fun r₂ =>
    (g.hasIp.toList.filter fun r₃ => r₃.2 = r₂.2 ∧ r₃ ≠ r₂).flatMap fun r₃ =>
    (g.hasDevice.toList.filter fun r₄ => r₄.2 = r₃.1 ∧ r₄ ≠ r₁ ∧ r₄.1 ≠ card).map
      Prod.fst).dedup

/-- `get_stats`: the nodes and the relationships. Without relationships the query has no record. -/
def Database.getStats (g : Database) : ℕ × ℕ :=
  let edges := g.hasDevice.toList.length + g.hasIp.toList.length + g.transactedAt.length
  if edges = 0 then (0, 0) else (g.nodes.length, edges)

/-- The graph after a history of transactions. -/
def build (history : List GraphAnalysisRequest) : Database :=
  history.foldl Database.addTransactionToGraph .empty

/-! ## What a history leaves -/

section Build

variable {history : List GraphAnalysisRequest} {tx : GraphAnalysisRequest}

theorem build_append_singleton (history : List GraphAnalysisRequest) (tx : GraphAnalysisRequest) :
    build (history ++ [tx]) = (build history).addTransactionToGraph tx := by
  unfold build
  rw [List.foldl_append]
  rfl

theorem mem_hasDevice_add {g : Database} {pair : String × String} :
    pair ∈ (g.addTransactionToGraph tx).hasDevice ↔
      pair = (tx.cardNumber, tx.deviceId) ∨ pair ∈ g.hasDevice :=
  Edges.mem_merge

theorem mem_hasIp_add {g : Database} {pair : String × String} :
    pair ∈ (g.addTransactionToGraph tx).hasIp ↔
      pair = (tx.deviceId, tx.ipAddress) ∨ pair ∈ g.hasIp :=
  Edges.mem_merge

/-- A card has the devices of its transactions. -/
theorem mem_hasDevice_build {card device : String} :
    (card, device) ∈ (build history).hasDevice ↔
      ∃ tx ∈ history, tx.cardNumber = card ∧ tx.deviceId = device := by
  induction history using List.reverseRecOn with
  | nil =>
    refine iff_of_false (Edges.not_mem_empty _) ?_
    simp
  | append_singleton history tx ih =>
    rw [build_append_singleton, mem_hasDevice_add, ih, Prod.mk.injEq]
    simp only [List.mem_append, List.mem_singleton, or_and_right, exists_or, exists_eq_left]
    rw [or_comm, eq_comm (a := card), eq_comm (a := device)]

/-- A device has the addresses of its transactions. -/
theorem mem_hasIp_build {device ip : String} :
    (device, ip) ∈ (build history).hasIp ↔
      ∃ tx ∈ history, tx.deviceId = device ∧ tx.ipAddress = ip := by
  induction history using List.reverseRecOn with
  | nil =>
    refine iff_of_false (Edges.not_mem_empty _) ?_
    simp
  | append_singleton history tx ih =>
    rw [build_append_singleton, mem_hasIp_add, ih, Prod.mk.injEq]
    simp only [List.mem_append, List.mem_singleton, or_and_right, exists_or, exists_eq_left]
    rw [or_comm, eq_comm (a := device), eq_comm (a := ip)]

end Build

/-! ## The ring -/

section Ring

variable {g : Database} {a b : String}

/-- The ring of a card consists of the other cards that are linked to it. The two relationships to
the address differ exactly if the two devices do, and then so do those of the cards. -/
theorem mem_detectFraudRing :
    b ∈ g.detectFraudRing a ↔ b ≠ a ∧
      Edges.Linked (fun c d => (c, d) ∈ g.hasDevice) (fun d i => (d, i) ∈ g.hasIp) a b := by
  unfold Database.detectFraudRing
  simp only [List.mem_dedup, List.mem_flatMap, List.mem_filter, List.mem_map, decide_eq_true_eq]
  constructor
  · rintro ⟨⟨c₁, d₁⟩, ⟨h₁, rfl⟩, ⟨d₁', i⟩, ⟨h₂, rfl⟩, ⟨d₂, i'⟩, ⟨h₃, rfl, hne⟩, ⟨c₂, d₂'⟩,
      ⟨h₄, rfl, -, hcard⟩, rfl⟩
    refine ⟨hcard, d₁', d₂', i', ?_, h₁, h₂, h₃, h₄⟩
    rintro rfl
    exact hne rfl
  · rintro ⟨hcard, d₁, d₂, i, hne, h₁, h₂, h₃, h₄⟩
    refine ⟨(a, d₁), ⟨h₁, rfl⟩, (d₁, i), ⟨h₂, rfl⟩, (d₂, i), ⟨h₃, rfl, ?_⟩, (b, d₂), ⟨h₄, rfl, ?_,
      hcard⟩, rfl⟩
    · intro heq
      exact hne (congrArg Prod.fst heq).symm
    · intro heq
      exact hcard (congrArg Prod.fst heq)

theorem nodup_detectFraudRing (g : Database) (a : String) : (g.detectFraudRing a).Nodup :=
  List.nodup_dedup _

theorem mem_detectFraudRing_symm (h : b ∈ g.detectFraudRing a) : a ∈ g.detectFraudRing b := by
  obtain ⟨hne, hlinked⟩ := mem_detectFraudRing.mp h
  exact mem_detectFraudRing.mpr ⟨hne.symm, hlinked.symm⟩

theorem not_mem_detectFraudRing_self (g : Database) (a : String) : a ∉ g.detectFraudRing a := by
  intro h
  exact (mem_detectFraudRing.mp h).1 rfl

end Ring

/-! ## Graphs that contain each other -/

/-- A graph has every relationship of another one that the queries read. -/
structure Database.Sub (g g' : Database) : Prop where
  hasDevice : ∀ c d, (c, d) ∈ g.hasDevice → (c, d) ∈ g'.hasDevice
  hasIp : ∀ d i, (d, i) ∈ g.hasIp → (d, i) ∈ g'.hasIp

namespace Database.Sub

variable {g g' g'' : Database}

theorem trans (h : g.Sub g') (h' : g'.Sub g'') : g.Sub g'' where
  hasDevice c d hmem := h'.hasDevice c d (h.hasDevice c d hmem)
  hasIp d i hmem := h'.hasIp d i (h.hasIp d i hmem)

/-- A transaction takes nothing away. -/
theorem addTransactionToGraph (g : Database) (tx : GraphAnalysisRequest) :
    g.Sub (g.addTransactionToGraph tx) where
  hasDevice _ _ hmem := mem_hasDevice_add.mpr (Or.inr hmem)
  hasIp _ _ hmem := mem_hasIp_add.mpr (Or.inr hmem)

theorem mem_checkDeviceSharing (h : g.Sub g') {card device : String}
    (hmem : card ∈ g.checkDeviceSharing device) : card ∈ g'.checkDeviceSharing device :=
  Edges.mem_sources.mpr (h.hasDevice _ _ (Edges.mem_sources.mp hmem))

theorem mem_checkIpCluster (h : g.Sub g') {device ip : String}
    (hmem : device ∈ g.checkIpCluster ip) : device ∈ g'.checkIpCluster ip :=
  Edges.mem_sources.mpr (h.hasIp _ _ (Edges.mem_sources.mp hmem))

theorem mem_detectFraudRing (h : g.Sub g') {a b : String} (hmem : b ∈ g.detectFraudRing a) :
    b ∈ g'.detectFraudRing a := by
  obtain ⟨hne, hlinked⟩ := Graph.mem_detectFraudRing.mp hmem
  exact Graph.mem_detectFraudRing.mpr ⟨hne, hlinked.mono h.hasDevice h.hasIp⟩

/-- A history with more members leaves a larger graph. -/
theorem build {history history' : List GraphAnalysisRequest} (h : ∀ tx ∈ history, tx ∈ history') :
    (build history).Sub (build history') where
  hasDevice c d hmem := by
    obtain ⟨tx, htx, hcard, hdevice⟩ := mem_hasDevice_build.mp hmem
    exact mem_hasDevice_build.mpr ⟨tx, h tx htx, hcard, hdevice⟩
  hasIp d i hmem := by
    obtain ⟨tx, htx, hdevice, hip⟩ := mem_hasIp_build.mp hmem
    exact mem_hasIp_build.mpr ⟨tx, h tx htx, hdevice, hip⟩

end Database.Sub

/-- The statistics do not go back. -/
theorem getStats_le_add (g : Database) (tx : GraphAnalysisRequest) :
    g.getStats ≤ (g.addTransactionToGraph tx).getStats := by
  have hmerge : ∀ (g : Database) label id, g.nodes.length ≤ (g.mergeNode label id).nodes.length :=
    fun _ _ _ => List.length_le_length_insert
  have hnodes : g.nodes.length ≤ (g.addTransactionToGraph tx).nodes.length :=
    (((hmerge _ .card _).trans (hmerge _ .merchant _)).trans (hmerge _ .device _)).trans
      (hmerge _ .ip _)
  have hdevice : g.hasDevice.toList.length ≤ (g.addTransactionToGraph tx).hasDevice.toList.length :=
    List.length_le_length_insert
  have hip : g.hasIp.toList.length ≤ (g.addTransactionToGraph tx).hasIp.toList.length :=
    List.length_le_length_insert
  have htransacted : (g.addTransactionToGraph tx).transactedAt.length
      = g.transactedAt.length + 1 :=
    List.length_append
  have hsome : ¬ (g.addTransactionToGraph tx).hasDevice.toList.length
      + (g.addTransactionToGraph tx).hasIp.toList.length
      + (g.addTransactionToGraph tx).transactedAt.length = 0 := by
    omega
  unfold Database.getStats
  dsimp only
  rw [if_neg hsome]
  split
  · exact Prod.mk_le_mk.mpr ⟨Nat.zero_le _, Nat.zero_le _⟩
  · refine Prod.mk_le_mk.mpr ⟨hnodes, ?_⟩
    omega

/-! ## Order and repetition -/

/-- Two histories with the same members answer every query with the same set, and the rings of the
cards are the classes of an irreflexive, symmetric relation. -/
theorem queries_order_free (history history' : List GraphAnalysisRequest)
    (h : ∀ tx, tx ∈ history ↔ tx ∈ history') :
    (∀ device card, card ∈ (build history).checkDeviceSharing device ↔
      card ∈ (build history').checkDeviceSharing device) ∧
    (∀ ip device, device ∈ (build history).checkIpCluster ip ↔
      device ∈ (build history').checkIpCluster ip) ∧
    (∀ a b, b ∈ (build history).detectFraudRing a ↔ b ∈ (build history').detectFraudRing a) ∧
    (∀ a b, b ∈ (build history).detectFraudRing a ↔ a ∈ (build history).detectFraudRing b) ∧
    ∀ a, a ∉ (build history).detectFraudRing a := by
  have hsub : (build history).Sub (build history') := .build fun tx htx => (h tx).mp htx
  have hsup : (build history').Sub (build history) := .build fun tx htx => (h tx).mpr htx
  refine ⟨?_, ?_, ?_, ?_, not_mem_detectFraudRing_self _⟩
  · intro device card
    exact ⟨hsub.mem_checkDeviceSharing, hsup.mem_checkDeviceSharing⟩
  · intro ip device
    exact ⟨hsub.mem_checkIpCluster, hsup.mem_checkIpCluster⟩
  · intro a b
    exact ⟨hsub.mem_detectFraudRing, hsup.mem_detectFraudRing⟩
  · intro a b
    exact ⟨mem_detectFraudRing_symm, mem_detectFraudRing_symm⟩

/-- Two transactions of cards on one device, and the same ones in the other order, one of them
twice. -/
theorem queries_order_free_swapped :
    "c2" ∈ (build [⟨"t2", "c2", "m", "d", "i", 10⟩, ⟨"t1", "c1", "m", "d", "i", 10⟩,
      ⟨"t2", "c2", "m", "d", "i", 10⟩]).checkDeviceSharing "d" := by
  have h := queries_order_free
    [⟨"t1", "c1", "m", "d", "i", 10⟩, ⟨"t2", "c2", "m", "d", "i", 10⟩]
    [⟨"t2", "c2", "m", "d", "i", 10⟩, ⟨"t1", "c1", "m", "d", "i", 10⟩,
      ⟨"t2", "c2", "m", "d", "i", 10⟩] (by simp [or_comm])
  exact (h.1 "d" "c2").mp (by decide)

end FraudDetection.Graph
