import FraudDetection.Floats.Binary
import FraudDetection.Python.CompactJson

/-!
# Numbers in texts

Python and Redis read numbers from texts. Both are assumed to read back the texts Python prints;
what they make of other texts is a parameter, and so is the arithmetic of Redis, which adds in a
longer format and answers with a decimal text.
-/

namespace FraudDetection.Python

open Floats

/-- Library functions on numbers: Python's `float(text)`, and the number that Redis finds in the
argument of `INCRBYFLOAT`. Both are `none` where the text is not a number. `incrSum` is what Redis
keeps when it adds such a number to what it has, and `floatReply` is `float(text)` for the text with
which it answers. Both round, to formats that have the whole numbers up to `2 ^ 53`. -/
structure NumberLib extends PyLib where
  float : String → Option ℚ
  incrArgument : String → Option ℚ
  incrSum : ℚ → ℚ → ℚ
  floatReply : ℚ → ℚ
  incrArgument_int : ∀ n : ℤ, incrArgument (str (.int n)) = some (n : ℚ)
  incrArgument_float : ∀ q : ℚ, incrArgument (str (.float q)) = some q
  incrSum_mono : ∀ x, Monotone (incrSum · x)
  incrSum_nonneg : ∀ a x, 0 ≤ a → 0 ≤ x → 0 ≤ incrSum a x
  incrSum_nat : ∀ m n : ℕ, m + n ≤ 2 ^ 53 → incrSum m n = m + n
  floatReply_mono : Monotone floatReply
  floatReply_nat : ∀ n : ℕ, n ≤ 2 ^ 53 → floatReply n = n

namespace NumberLib

variable (lib : NumberLib)

/-- Redis adds exactly, and Python reads what it answers exactly. -/
structure Exact : Prop where
  incrSum : ∀ a b, lib.incrSum a b = a + b
  floatReply : ∀ a, lib.floatReply a = a

/-- What Redis keeps after `INCRBYFLOAT` for each of the amounts. -/
def redisSum (amounts : List ℚ) : ℚ := amounts.foldl lib.incrSum 0

/-- Nothing is lost between the amounts and their sum in Redis, as Python reads it. -/
def SumsExactly (amounts : List ℚ) : Prop := lib.floatReply (lib.redisSum amounts) = amounts.sum

variable {lib}

theorem redisSum_concat (amounts : List ℚ) (x : ℚ) :
    lib.redisSum (amounts ++ [x]) = lib.incrSum (lib.redisSum amounts) x := by
  simp [redisSum]

/-- Whole amounts are added exactly as long as their sum fits. -/
theorem redisSum_of_whole {ns : List ℕ} (h : ns.sum ≤ 2 ^ 53) :
    lib.redisSum (ns.map Nat.cast) = (ns.sum : ℕ) := by
  induction ns using List.reverseRecOn with
  | nil => rfl
  | append_singleton ns n ih =>
      rw [List.sum_append, List.sum_singleton] at h ⊢
      rw [List.map_append, List.map_singleton, redisSum_concat, ih (by omega), lib.incrSum_nat _ _ h]
      push_cast
      rfl

theorem sumsExactly_of_whole {ns : List ℕ} (h : ns.sum ≤ 2 ^ 53) :
    lib.SumsExactly (ns.map Nat.cast) := by
  rw [SumsExactly, redisSum_of_whole h, lib.floatReply_nat _ h]
  exact map_list_sum (Nat.castRingHom ℚ) ns

end NumberLib

/-- `float(v)`. An `int` is rounded, and refused where it is rounded to `2 ** 1024` or more. -/
def NumberLib.toFloat (lib : NumberLib) : Json → Except Exn ℚ
  | .bool b => .ok (if b then 1 else 0)
  | .int n =>
      let q := binary64.round n
      if |q| < 2 ^ 1024 then .ok q else .error overflowError
  | .float q => .ok q
  | .str s =>
      match lib.float s with
      | some q => .ok q
      | none => .error ⟨.other "ValueError", "could not convert string to float: '" ++ s ++ "'"⟩
  | v => .error ⟨.typeError,
      "float() argument must be a string or a real number, not '" ++ v.typeName ++ "'"⟩

/-- The number a decimal text stands for. -/
def readNumber (text : String) : Option ℚ :=
  match CompactJson.number text.toList with
  | some (.int n, []) => some (n : ℚ)
  | some (.float q, []) => some q
  | _ => none

/-- The compact codec, which reads the numbers it prints, and a Redis that adds exactly. -/
def compactNumbers : NumberLib where
  toPyLib := CompactJson.compactJson
  float := readNumber
  incrArgument := readNumber
  incrSum := (· + ·)
  floatReply := binary64.round
  incrSum_mono x := add_left_mono
  incrSum_nonneg _ _ := add_nonneg
  incrSum_nat _ _ _ := rfl
  floatReply_mono := binary64.mono
  floatReply_nat n hn := by
    have hfloat : binary64.IsFloat (n : ℤ) := binary64_intCast (by rw [Nat.abs_cast]; exact_mod_cast hn)
    exact hfloat
  incrArgument_int := by
    intro n
    have hend : CompactJson.Follows [] := by simp [CompactJson.Follows]
    have hread := CompactJson.number_int n hend
    rw [List.append_nil] at hread
    show readNumber (String.ofList (CompactJson.print (.int n))) = some (n : ℚ)
    rw [readNumber, String.toList_ofList, CompactJson.print, hread]
  incrArgument_float := by
    intro q
    have hend : CompactJson.Follows [] := by simp [CompactJson.Follows]
    have hread := CompactJson.number_float q hend
    rw [List.append_nil] at hread
    show readNumber (String.ofList (CompactJson.print (.float q))) = some q
    rw [readNumber, String.toList_ofList, CompactJson.print, hread]

/-- The compact codec with exact numbers throughout. -/
def exactNumbers : NumberLib :=
  { compactNumbers with
    floatReply := id
    floatReply_mono := monotone_id
    floatReply_nat := fun _ _ => rfl }

theorem exact_exactNumbers : exactNumbers.Exact := ⟨fun _ _ => rfl, fun _ => rfl⟩

end FraudDetection.Python
