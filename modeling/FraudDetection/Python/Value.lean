import Mathlib.Data.List.Basic
import Mathlib.Data.Rat.Defs

/-!
# Python exceptions, JSON values and the part of the standard library the code calls

`Json` is the type of values `json.loads` builds: the code indexes them dynamically, so every
accessor is fallible and raises the exception Python raises. `PyLib` collects the library functions
the code relies on, with the behaviour assumed of them.
-/

namespace FraudDetection.Python

/-! ## Exceptions -/

/-- The exception classes the code tells apart. `cancelledError` is the only one that is not an
`Exception`; `other` is any further subclass of `Exception`. -/
inductive ExnClass where
  | jsonDecodeError
  | unicodeDecodeError
  | typeError
  | keyError
  | attributeError
  | runtimeError
  | kafkaError
  | osError
  | cancelledError
  | other (name : String)
  deriving DecidableEq, Repr

/-- A raised exception: its class and its text, `str(exc)`. -/
structure Exn where
  cls : ExnClass
  text : String
  deriving DecidableEq, Repr

/-- `except Exception` -/
def Exn.isException (x : Exn) : Bool := x.cls != .cancelledError

/-- `except KafkaError` -/
def Exn.isKafkaError (x : Exn) : Bool := x.cls == .kafkaError

/-- `except asyncio.CancelledError` -/
def Exn.isCancelled (x : Exn) : Bool := x.cls == .cancelledError

/-- What an `int` from `2 ** 1024` on raises where it has to become a float. -/
def overflowError : Exn := ⟨.other "OverflowError", "int too large to convert to float"⟩

/-- A sequence of fallible steps succeeds exactly when each of them does. -/
theorem bind_eq_ok {ε α β : Type} {x : Except ε α} {f : α → Except ε β} {b : β} :
    x >>= f = .ok b ↔ ∃ a, x = .ok a ∧ f a = .ok b := by
  cases x with
  | ok a => simp [bind, Except.bind]
  | error e => simp [bind, Except.bind]

/-- A sequence of fallible steps fails where its first failing step does. -/
theorem bind_eq_error {ε α β : Type} {x : Except ε α} {f : α → Except ε β} {e : ε} :
    x >>= f = .error e ↔ x = .error e ∨ ∃ a, x = .ok a ∧ f a = .error e := by
  cases x with
  | ok a => simp [bind, Except.bind]
  | error e => simp [bind, Except.bind]

/-! ## JSON values -/

/-- A value built by `json.loads`. Dicts keep insertion order; floats are exact rationals. -/
inductive Json where
  | null
  | bool (b : Bool)
  | int (n : ℤ)
  | float (q : ℚ)
  | str (s : String)
  | list (vs : List Json)
  | dict (fs : List (String × Json))

namespace Json

/-- The values Python can hold: the keys of every dict are distinct. -/
inductive WF : Json → Prop
  | null : WF .null
  | bool (b : Bool) : WF (.bool b)
  | int (n : ℤ) : WF (.int n)
  | float (q : ℚ) : WF (.float q)
  | str (s : String) : WF (.str s)
  | list {vs : List Json} : (∀ v ∈ vs, WF v) → WF (.list vs)
  | dict {fs : List (String × Json)} :
      (fs.map Prod.fst).Nodup → (∀ kv ∈ fs, WF kv.2) → WF (.dict fs)

/-- `type(v).__name__` -/
def typeName : Json → String
  | null => "NoneType"
  | bool _ => "bool"
  | int _ => "int"
  | float _ => "float"
  | str _ => "str"
  | list _ => "list"
  | dict _ => "dict"

/-- `bool(v)` -/
def truthy : Json → Bool
  | null => false
  | bool b => b
  | int n => n != 0
  | float q => q != 0
  | str s => s != ""
  | list vs => !vs.isEmpty
  | dict fs => !fs.isEmpty

/-- `a or b` -/
def or (a b : Json) : Json := if a.truthy then a else b

/-- `v is None` -/
def isNone : Json → Bool
  | null => true
  | _ => false

/-- `v[key]` for a string `key`. -/
def getItem (v : Json) (key : String) : Except Exn Json :=
  match v with
  | dict fs =>
      match fs.lookup key with
      | some w => .ok w
      | none => .error ⟨.keyError, "'" ++ key ++ "'"⟩
  | list _ => .error ⟨.typeError, "list indices must be integers or slices, not str"⟩
  | str _ => .error ⟨.typeError, "string indices must be integers, not 'str'"⟩
  | v => .error ⟨.typeError, "'" ++ v.typeName ++ "' object is not subscriptable"⟩

/-- The attribute lookup of `v.get`: the fields of a dict, an `AttributeError` for anything else. -/
def fields (v : Json) : Except Exn (List (String × Json)) :=
  match v with
  | dict fs => .ok fs
  | v => .error ⟨.attributeError, "'" ++ v.typeName ++ "' object has no attribute 'get'"⟩

/-- `v.get(key, default)` -/
def get (v : Json) (key : String) (default : Json) : Except Exn Json := do
  let fs ← v.fields
  return (fs.lookup key).getD default

@[simp] theorem fields_dict (fs : List (String × Json)) : (dict fs).fields = .ok fs := rfl

@[simp] theorem get_dict (fs : List (String × Json)) (key : String) (d : Json) :
    (dict fs).get key d = .ok ((fs.lookup key).getD d) := rfl

/-- `v.get` raises an `Exception` at most. -/
theorem isException_of_get {v d : Json} {key : String} {x : Exn} (h : v.get key d = .error x) :
    x.isException = true := by
  cases v with
  | dict fs => cases h
  | _ => cases h; rfl

theorem dict_of_get {v d w : Json} {key : String} (h : v.get key d = .ok w) :
    ∃ fs, v = .dict fs := by
  cases v with
  | dict fs => exact ⟨fs, rfl⟩
  | _ => cases h

/-- Only a `TypeError` or a `KeyError` comes out of indexing with a string. -/
theorem getItem_error {v : Json} {key : String} {x : Exn} (h : v.getItem key = .error x) :
    x.cls = .typeError ∨ x.cls = .keyError := by
  cases v with
  | dict fs =>
      simp only [getItem] at h
      split at h
      · cases h
      · cases h; exact Or.inr rfl
  | _ => simp only [getItem] at h; cases h; exact Or.inl rfl

/-- Indexing succeeds on dicts only. -/
theorem getItem_ok {v w : Json} {key : String} (h : v.getItem key = .ok w) :
    ∃ fs, v = .dict fs ∧ fs.lookup key = some w := by
  cases v with
  | dict fs =>
      refine ⟨fs, rfl, ?_⟩
      simp only [getItem] at h
      split at h
      · rename_i hw; cases h; exact hw
      · cases h
  | _ => simp [getItem] at h

theorem lookup_of_getItem {fs : List (String × Json)} {w : Json} {key : String}
    (h : (dict fs).getItem key = .ok w) : fs.lookup key = some w := by
  obtain ⟨_, hfs, hw⟩ := getItem_ok h
  cases hfs
  exact hw

/-- The values of a well-formed dict are well formed. -/
theorem WF.lookup {fs : List (String × Json)} (h : WF (.dict fs)) {key : String} {v : Json}
    (hv : fs.lookup key = some v) : v.WF := by
  cases h with
  | dict _ hfs =>
      rw [List.lookup_eq_some_iff] at hv
      obtain ⟨l₁, l₂, rfl, -⟩ := hv
      exact hfs (key, v) (by simp)

end Json

/-! ## Library functions -/

/-- `bytes.decode("utf-8")` -/
def decodeUtf8 (b : ByteArray) : Except Exn String :=
  match String.fromUTF8? b with
  | some s => .ok s
  | none => .error ⟨.unicodeDecodeError, "'utf-8' codec can't decode bytes"⟩

theorem fromUTF8?_toUTF8 (s : String) : String.fromUTF8? s.toUTF8 = some s := by
  simp only [String.fromUTF8?, String.toUTF8_eq_toByteArray, s.isValidUTF8, dif_pos]
  rfl

/-- Decoding undoes encoding. -/
@[simp] theorem decodeUtf8_toUTF8 (s : String) : decodeUtf8 s.toUTF8 = .ok s := by
  rw [decodeUtf8, fromUTF8?_toUTF8]

/-- The library functions the code calls on message bodies, and what is assumed of them:
`json.loads` on bytes (or on `None`), compact `json.dumps(...).encode()`, `str(v)` as it appears in
an f-string, and `bytes.decode("utf-8", errors="replace")`. -/
structure PyLib where
  loads : Option ByteArray → Except Exn Json
  dumps : Json → ByteArray
  str : Json → String
  decodeReplace : ByteArray → String
  loads_none : ∃ text, loads none = .error ⟨.typeError, text⟩
  loads_error : ∀ b x, loads (some b) = .error x →
    x.cls = .jsonDecodeError ∨ x.cls = .unicodeDecodeError
  loads_wf : ∀ b v, loads (some b) = .ok v → v.WF
  loads_dumps : ∀ v, v.WF → loads (some (dumps v)) = .ok v
  str_str : ∀ s, str (.str s) = s

attribute [simp] PyLib.str_str

end FraudDetection.Python
