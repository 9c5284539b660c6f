import FraudDetection.Async.Trace
import FraudDetection.Graph.Calls

/-!
# The queries of an analysis

`AnalyzeGraph` asks the driver four times, and other calls can come in between. `analysis` is its
program; `leads_analysis` ties it to `analyzeGraph`, which takes a client as it is during a call.
-/

namespace FraudDetection.Graph

open Async Python Floats

/-- The queries. -/
inductive Query where
  | addTransactionToGraph (request : GraphAnalysisRequest)
  | checkDeviceSharing (device : String)
  | checkIpCluster (ip : String)
  | detectFraudRing (card : String)

/-- A transaction is added, and the other queries are answered by entities. -/
abbrev Query.Ret : Query → Type
  | .addTransactionToGraph _ => Unit
  | _ => List String

/-- What the answers to the checks come to. -/
def resultOf (request : GraphAnalysisRequest) (cardsOnDevice devicesOnIp connectedCards : List String) :
    GraphAnalysisResult :=
  let findings := (deviceSharing request cardsOnDevice).toList ++
    (ipCluster request devicesOnIp).toList ++ (fraudRing request connectedCards).toList
  { graphScore := min 1 (binary64.total (findings.map Finding.score))
    patterns := findings.map Finding.pattern
    riskFactors := findings.map Finding.riskFactor
    connectedEntities := cardsOnDevice.length + devicesOnIp.length
    edgesTraversed := cardsOnDevice.length + devicesOnIp.length
    traversalDepth := 2 }

/-- `AnalyzeGraph`, query by query. -/
def analysis (request : GraphAnalysisRequest) : Prog Query.Ret Exn Reply := do
  let failure ← Prog.tryExcept
    (do
      Prog.await (Query.addTransactionToGraph request)
      return none)
    Exn.isException fun x => pure (some ("Graph database error: " ++ x.text))
  match failure with
  | some details => return ⟨some details, {}⟩
  | none =>
      let cardsOnDevice ← Prog.await (Query.checkDeviceSharing request.deviceId)
      let devicesOnIp ← Prog.await (Query.checkIpCluster request.ipAddress)
      let connectedCards ← Prog.await (Query.detectFraudRing request.cardNumber)
      return ⟨none, resultOf request cardsOnDevice devicesOnIp connectedCards⟩

/-- How a driver answers a query on a graph, and the graph it leaves. -/
def Database.answer (driver : Driver) : (query : Query) → Database → Except Exn query.Ret × Database
  | .addTransactionToGraph request, g => (driver.added, g.served driver request)
  | .checkDeviceSharing device, g => (driver.deviceSharing.map fun _ => g.checkDeviceSharing device, g)
  | .checkIpCluster ip, g => (driver.ipCluster.map fun _ => g.checkIpCluster ip, g)
  | .detectFraudRing card, g => (driver.fraudRing.map fun _ => g.detectFraudRing card, g)

/-- The program does what the function does with the client of the call, and leaves the graph
served. -/
theorem leads_analysis (driver : Driver) (request : GraphAnalysisRequest) (g : Database) :
    Prog.Leads (Database.answer driver) (analysis request) g fun r g' =>
      r = analyzeGraph (g.client driver request) request ∧ g' = g.served driver request := by
  unfold analysis analyzeGraph
  rw [Prog.leads_bind, Prog.leads_tryExcept, Prog.leads_bind, Prog.leads_await]
  simp only [Database.client, Database.answer]
  cases driver.added with
  | error x =>
    cases hx : x.isException with
    | true => simp [hx]
    | false => simp [hx]
  | ok u =>
    dsimp only
    rw [Prog.leads_pure]
    dsimp only
    rw [Prog.leads_bind, Prog.leads_await]
    simp only [Database.answer]
    cases driver.deviceSharing with
    | error x => exact ⟨rfl, trivial⟩
    | ok u =>
      simp only [Except.map]
      rw [Prog.leads_bind, Prog.leads_await]
      simp only [Database.answer]
      cases driver.ipCluster with
      | error x => exact ⟨rfl, trivial⟩
      | ok u =>
        simp only [Except.map]
        rw [Prog.leads_bind, Prog.leads_await]
        simp only [Database.answer]
        cases driver.fraudRing with
        | error x => exact ⟨rfl, trivial⟩
        | ok u => exact ⟨rfl, rfl⟩

end FraudDetection.Graph
