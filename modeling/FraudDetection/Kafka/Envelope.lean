import FraudDetection.Python.Value

/-!
# `EventEnvelope`

The canonical wrapper of every event, and its JSON form. `from_json` performs no type checks, so the
fields hold whatever JSON value the message carried; a missing correlation id is `None`.
-/

namespace FraudDetection.Kafka

open Python

/-- The dataclass, fields in declaration order. -/
structure EventEnvelope where
  eventType : Json
  sourceService : Json
  payload : Json
  eventId : Json
  correlationId : Json
  timestamp : Json

namespace EventEnvelope

/-- The correlation id as serialised: the event id stands in for `None`. -/
def wireCorrelationId (e : EventEnvelope) : Json :=
  if e.correlationId.isNone then e.eventId else e.correlationId

/-- `asdict` with the correlation id normalised. -/
def toDict (e : EventEnvelope) : Json :=
  .dict [("event_type", e.eventType), ("source_service", e.sourceService), ("payload", e.payload),
    ("event_id", e.eventId), ("correlation_id", e.wireCorrelationId), ("timestamp", e.timestamp)]

/-- Serialise the envelope to compact JSON bytes. -/
def toJson (py : PyLib) (e : EventEnvelope) : ByteArray := py.dumps e.toDict

/-- The envelope held by a decoded JSON value. -/
def ofJson (data : Json) : Except Exn EventEnvelope := do
  let eventId ← data.getItem "event_id"
  let eventType ← data.getItem "event_type"
  let sourceService ← data.getItem "source_service"
  let correlationId ← data.get "correlation_id" .null
  let timestamp ← data.getItem "timestamp"
  let payload ← data.get "payload" (.dict [])
  return { eventType, sourceService, payload, eventId, correlationId, timestamp }

/-- Deserialise a JSON blob. -/
def fromJson (py : PyLib) (raw : Option ByteArray) : Except Exn EventEnvelope :=
  py.loads raw >>= ofJson

/-- The envelope that comes back from a trip over the wire. -/
def normalise (e : EventEnvelope) : EventEnvelope := { e with correlationId := e.wireCorrelationId }

/-- Every field is a value Python can hold. -/
structure WF (e : EventEnvelope) : Prop where
  eventType : e.eventType.WF
  sourceService : e.sourceService.WF
  payload : e.payload.WF
  eventId : e.eventId.WF
  correlationId : e.correlationId.WF
  timestamp : e.timestamp.WF

/-! ## The wire round trip -/

theorem WF.wireCorrelationId {e : EventEnvelope} (h : e.WF) : e.wireCorrelationId.WF := by
  unfold EventEnvelope.wireCorrelationId
  split
  · exact h.eventId
  · exact h.correlationId

theorem WF.toDict {e : EventEnvelope} (h : e.WF) : e.toDict.WF := by
  refine .dict (by simp) ?_
  intro kv hkv
  simp only [List.mem_cons, List.not_mem_nil, or_false] at hkv
  rcases hkv with rfl | rfl | rfl | rfl | rfl | rfl
  exacts [h.eventType, h.sourceService, h.payload, h.eventId, h.wireCorrelationId, h.timestamp]

@[simp] theorem ofJson_toDict (e : EventEnvelope) : ofJson e.toDict = .ok e.normalise := rfl

/-- Reading back a serialised envelope normalises its correlation id and changes nothing else. -/
theorem fromJson_toJson (py : PyLib) {e : EventEnvelope} (h : e.WF) :
    fromJson py (some (e.toJson py)) = .ok e.normalise := by
  simp only [fromJson, toJson, py.loads_dumps _ h.toDict]
  rfl

theorem wireCorrelationId_normalise (e : EventEnvelope) :
    e.normalise.wireCorrelationId = e.wireCorrelationId := by
  simp only [normalise, wireCorrelationId]
  split <;> simp_all

/-- Normalising does not show on the wire. -/
@[simp] theorem toDict_normalise (e : EventEnvelope) : e.normalise.toDict = e.toDict := by
  simp only [toDict, wireCorrelationId_normalise]
  rfl

@[simp] theorem normalise_normalise (e : EventEnvelope) :
    e.normalise.normalise = e.normalise := by
  simp only [normalise, wireCorrelationId]
  split <;> simp_all

theorem WF.normalise {e : EventEnvelope} (h : e.WF) : e.normalise.WF :=
  { h with correlationId := h.wireCorrelationId }

/-! ## What decoding can produce -/

/-- An envelope read off a dict holds that dict's fields. -/
theorem ofJson_ok {data : Json} {e : EventEnvelope} (h : ofJson data = .ok e) :
    ∃ fs, data = .dict fs ∧ fs.lookup "event_id" = some e.eventId ∧
      fs.lookup "event_type" = some e.eventType ∧
      fs.lookup "source_service" = some e.sourceService ∧
      e.correlationId = (fs.lookup "correlation_id").getD .null ∧
      fs.lookup "timestamp" = some e.timestamp ∧
      e.payload = (fs.lookup "payload").getD (.dict []) := by
  simp only [ofJson, bind_eq_ok] at h
  obtain ⟨id, hid, ty, hty, src, hsrc, corr, hcorr, ts, hts, pl, hpl, h⟩ := h
  obtain ⟨fs, rfl, hid'⟩ := Json.getItem_ok hid
  cases hcorr
  cases hpl
  cases h
  exact ⟨fs, rfl, hid', Json.lookup_of_getItem hty, Json.lookup_of_getItem hsrc, rfl,
    Json.lookup_of_getItem hts, rfl⟩

/-- A decoded value that is no envelope is rejected with a `TypeError` or a `KeyError`. -/
theorem ofJson_error {data : Json} {x : Exn} (h : ofJson data = .error x) :
    x.cls = .typeError ∨ x.cls = .keyError := by
  simp only [ofJson, bind_eq_error] at h
  rcases h with h | ⟨id, hid, h | ⟨ty, hty, h | ⟨src, hsrc, h⟩⟩⟩
  · exact Json.getItem_error h
  · exact Json.getItem_error h
  · exact Json.getItem_error h
  · -- past the first index the value is a dict, so `get` cannot fail
    obtain ⟨fs, rfl, -⟩ := Json.getItem_ok hid
    simp only [Json.get_dict, reduceCtorEq, false_or, Except.ok.injEq, exists_eq_left'] at h
    rcases h with h | ⟨ts, hts, h⟩
    · exact Json.getItem_error h
    · cases h

/-- An envelope read off a well-formed value is well formed. -/
theorem WF.of_ofJson {data : Json} (hdata : data.WF) {e : EventEnvelope}
    (h : ofJson data = .ok e) : e.WF := by
  obtain ⟨fs, rfl, hid, hty, hsrc, hcorr, hts, hpl⟩ := ofJson_ok h
  refine ⟨hdata.lookup hty, hdata.lookup hsrc, ?_, hdata.lookup hid, ?_, hdata.lookup hts⟩
  · rw [hpl]
    cases hp : fs.lookup "payload" with
    | none => exact .dict .nil (by simp)
    | some v => exact hdata.lookup hp
  · rw [hcorr]
    cases hc : fs.lookup "correlation_id" with
    | none => exact .null
    | some v => exact hdata.lookup hc

/-- An envelope read off a message is well formed. -/
theorem WF.of_fromJson {py : PyLib} {raw : Option ByteArray} {e : EventEnvelope}
    (h : fromJson py raw = .ok e) : e.WF := by
  obtain ⟨data, hdata, hofJson⟩ := bind_eq_ok.mp h
  cases raw with
  | none =>
      obtain ⟨text, hnone⟩ := py.loads_none
      rw [hnone] at hdata
      cases hdata
  | some b => exact WF.of_ofJson (py.loads_wf b data hdata) hofJson

end EventEnvelope

end FraudDetection.Kafka
