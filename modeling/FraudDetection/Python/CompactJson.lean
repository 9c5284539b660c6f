import Mathlib.Data.Rat.Lemmas
import Mathlib.Data.List.TakeWhile
import FraudDetection.Python.Value

/-!
# A compact JSON codec

A printer and a parser for `Json`, and `compactJson`, the library they form. The printer writes the
separators `,` and `:` without blanks, as `json.dumps(..., separators=(",", ":"))` does on printable
ASCII text without floats; the parser reads such text, blanks between tokens included, and keeps the
last value of a repeated key, as `json.loads` does. A float is written as an exact fraction.

The parser carries fuel, and consumes at least one character for each unit of it. The round trip is
an induction on the well-formedness of the value: `value` reads back what `print` wrote in front of
any text that cannot continue a number. Lists and dicts add an induction on their elements, where a
dict's parser needs the keys read so far to be distinct from those to come.
-/

namespace FraudDetection.Python.CompactJson

/-! ## Printing -/

/-- A quoted string: quotation marks and backslashes are escaped. -/
def quote : List Char → List Char
  | [] => ['"']
  | '"' :: cs => '\\' :: '"' :: quote cs
  | '\\' :: cs => '\\' :: '\\' :: quote cs
  | c :: cs => c :: quote cs

/-- An integer in decimal. -/
def printInt (n : ℤ) : List Char :=
  if n < 0 then '-' :: Nat.toDigits 10 n.natAbs else Nat.toDigits 10 n.natAbs

mutual

/-- The text of a value. -/
def print : Json → List Char
  | .null => ['n', 'u', 'l', 'l']
  | .bool true => ['t', 'r', 'u', 'e']
  | .bool false => ['f', 'a', 'l', 's', 'e']
  | .int n => printInt n
  | .float q => printInt q.num ++ '/' :: Nat.toDigits 10 q.den
  | .str s => '"' :: quote s.toList
  | .list vs => '[' :: printElems vs
  | .dict fs => '{' :: printFields fs

/-- The elements of a list, with the closing bracket. -/
def printElems : List Json → List Char
  | [] => [']']
  | v :: vs => print v ++ printElemsTail vs

/-- The elements that follow another one. -/
def printElemsTail : List Json → List Char
  | [] => [']']
  | v :: vs => ',' :: (print v ++ printElemsTail vs)

/-- The fields of a dict, with the closing brace. -/
def printFields : List (String × Json) → List Char
  | [] => ['}']
  | (k, v) :: fs => '"' :: (quote k.toList ++ ':' :: (print v ++ printFieldsTail fs))

/-- The fields that follow another one. -/
def printFieldsTail : List (String × Json) → List Char
  | [] => ['}']
  | (k, v) :: fs => ',' :: '"' :: (quote k.toList ++ ':' :: (print v ++ printFieldsTail fs))

end

/-! ## Parsing -/

/-- The blanks between tokens. -/
def isBlank (c : Char) : Bool := c == ' ' || c == '\n' || c == '\t' || c == '\r'

/-- Skip blanks. -/
def skip (cs : List Char) : List Char := cs.dropWhile isBlank

/-- The character an escape stands for. -/
def unescape : Char → Option Char
  | '"' => some '"'
  | '\\' => some '\\'
  | '/' => some '/'
  | 'n' => some '\n'
  | 'r' => some '\r'
  | 't' => some '\t'
  | _ => none

/-- The rest of a string literal. -/
def string : List Char → Option (List Char × List Char)
  | [] => none
  | '"' :: cs => some ([], cs)
  | '\\' :: c :: cs => do
      let c ← unescape c
      let (s, cs) ← string cs
      return (c :: s, cs)
  | c :: cs => do
      let (s, cs) ← string cs
      return (c :: s, cs)

/-- A decimal natural number. -/
def natural (cs : List Char) : Option (ℕ × List Char) :=
  let ds := cs.takeWhile Char.isDigit
  if ds.isEmpty then none else some (Nat.ofDigitChars 10 ds 0, cs.dropWhile Char.isDigit)

/-- A decimal integer. -/
def integer : List Char → Option (ℤ × List Char)
  | '-' :: cs => (natural cs).map fun x => (-(x.1 : ℤ), x.2)
  | cs => (natural cs).map fun x => ((x.1 : ℤ), x.2)

/-- An integer, or a fraction. -/
def number (cs : List Char) : Option (Json × List Char) := do
  let (n, cs) ← integer cs
  match cs with
  | '/' :: cs => do
      let (d, cs) ← natural cs
      return (.float (mkRat n d), cs)
  | cs => return (.int n, cs)

/-- The rest of a keyword. -/
def keyword (word : List Char) (v : Json) (cs : List Char) : Option (Json × List Char) :=
  if word.isPrefixOf cs then some (v, cs.drop word.length) else none

/-- Set a field, in place if the key is there already. -/
def setField (fs : List (String × Json)) (k : String) (v : Json) : List (String × Json) :=
  if k ∈ fs.map Prod.fst then fs.map fun kv => if kv.1 = k then (k, v) else kv
  else fs ++ [(k, v)]

mutual

/-- A value, given fuel. -/
def value : ℕ → List Char → Option (Json × List Char)
  | 0, _ => none
  | n + 1, cs =>
      match skip cs with
      | 'n' :: cs => keyword ['u', 'l', 'l'] .null cs
      | 't' :: cs => keyword ['r', 'u', 'e'] (.bool true) cs
      | 'f' :: cs => keyword ['a', 'l', 's', 'e'] (.bool false) cs
      | '"' :: cs => (string cs).map fun x => (.str (String.ofList x.1), x.2)
      | '[' :: cs =>
          match skip cs with
          | ']' :: cs => some (.list [], cs)
          | cs => (elements n cs).map fun x => (.list x.1, x.2)
      | '{' :: cs =>
          match skip cs with
          | '}' :: cs => some (.dict [], cs)
          | cs => (members n cs []).map fun x => (.dict x.1, x.2)
      | cs => number cs

/-- One or more elements of a list, with the closing bracket. -/
def elements : ℕ → List Char → Option (List Json × List Char)
  | 0, _ => none
  | n + 1, cs => do
      let (v, cs) ← value n cs
      match skip cs with
      | ',' :: cs => do
          let (vs, cs) ← elements n cs
          return (v :: vs, cs)
      | ']' :: cs => return ([v], cs)
      | _ => none

/-- One or more fields of a dict after the fields `fs`, with the closing brace. -/
def members : ℕ → List Char → List (String × Json) → Option (List (String × Json) × List Char)
  | 0, _, _ => none
  | n + 1, cs, fs =>
      match skip cs with
      | '"' :: cs => do
          let (k, cs) ← string cs
          match skip cs with
          | ':' :: cs => do
              let (v, cs) ← value n cs
              let fs := setField fs (String.ofList k) v
              match skip cs with
              | ',' :: cs => members n cs fs
              | '}' :: cs => return (fs, cs)
              | _ => none
          | _ => none
      | _ => none

end

/-- A whole text: one value, with blanks around it. -/
def parse (cs : List Char) : Option Json := do
  let (v, rest) ← value (cs.length + 1) cs
  if (skip rest).isEmpty then some v else none

/-! ## Tokens -/

/-- Text that cannot continue a number. -/
def Follows (cs : List Char) : Prop := ∀ c ∈ cs.head?, c.isDigit = false ∧ c ≠ '/'

theorem Follows.cons {c : Char} {cs : List Char} (hd : c.isDigit = false) (hc : c ≠ '/') :
    Follows (c :: cs) := by
  intro c' hc'
  obtain rfl : c = c' := by simpa using hc'
  exact ⟨hd, hc⟩

/-- A string literal is read back. -/
theorem string_quote (s rest : List Char) : string (quote s ++ rest) = some (s, rest) := by
  induction s with
  | nil => rfl
  | cons c s ih =>
      by_cases hq : c = '"'
      · subst hq
        simp [quote, string, unescape, ih]
      · by_cases hb : c = '\\'
        · subst hb
          simp [quote, string, unescape, ih]
        · have hquote : quote (c :: s) = c :: quote s := by
            rw [quote]
            · exact hq
            · exact hb
          rw [hquote, List.cons_append, string]
          · simp [ih]
          · exact hq
          · intro c' cs hc
            exact absurd hc hb

/-- A decimal number is read back. -/
theorem natural_toDigits (n : ℕ) {rest : List Char} (hrest : ∀ c ∈ rest.head?, c.isDigit = false) :
    natural (Nat.toDigits 10 n ++ rest) = some (n, rest) := by
  have hdigits : ∀ c ∈ Nat.toDigits 10 n, c.isDigit = true := fun c hc =>
    Nat.isDigit_of_mem_toDigits (by omega) (by omega) hc
  have htake : (Nat.toDigits 10 n ++ rest).takeWhile Char.isDigit = Nat.toDigits 10 n := by
    rw [List.takeWhile_append_of_pos hdigits]
    cases rest with
    | nil => simp
    | cons c rest => simp [hrest c rfl]
  have hdrop : (Nat.toDigits 10 n ++ rest).dropWhile Char.isDigit = rest := by
    rw [List.dropWhile_append_of_pos hdigits]
    cases rest with
    | nil => rfl
    | cons c rest => simp [hrest c rfl]
  have hne : (Nat.toDigits 10 n).isEmpty = false := by simp [Nat.toDigits_ne_nil]
  unfold natural
  rw [htake, hdrop]
  simp [hne]

/-- Whether a character can start an integer. -/
def startsInt (c : Char) : Bool := c == '-' || c.isDigit

/-- An integer is not empty, and starts with a sign or a digit. -/
theorem printInt_cons (n : ℤ) : ∃ c cs, printInt n = c :: cs ∧ startsInt c = true := by
  unfold printInt
  split
  · exact ⟨_, _, rfl, rfl⟩
  · cases h : Nat.toDigits 10 n.natAbs with
    | nil => exact absurd h (by simp [Nat.toDigits_ne_nil])
    | cons c cs =>
        refine ⟨c, cs, rfl, ?_⟩
        have hc : c.isDigit = true :=
          Nat.isDigit_of_mem_toDigits (b := 10) (n := n.natAbs) (by omega) (by omega) (by simp [h])
        simp [startsInt, hc]

theorem integer_printInt (n : ℤ) {rest : List Char} (hrest : ∀ c ∈ rest.head?, c.isDigit = false) :
    integer (printInt n ++ rest) = some (n, rest) := by
  unfold printInt
  split
  · rename_i hn
    simp only [List.cons_append, integer, natural_toDigits _ hrest, Option.map_some]
    have habs : -((n.natAbs : ℕ) : ℤ) = n := by omega
    rw [habs]
  · rename_i hn
    rw [integer, natural_toDigits _ hrest]
    · have habs : ((n.natAbs : ℕ) : ℤ) = n := by omega
      simp [habs]
    · -- the text starts with a digit, not with a sign
      intro cs hcs
      cases h : Nat.toDigits 10 n.natAbs with
      | nil => exact absurd h (by simp [Nat.toDigits_ne_nil])
      | cons c ds =>
          have hc : c.isDigit = true :=
            Nat.isDigit_of_mem_toDigits (b := 10) (n := n.natAbs) (by omega) (by omega) (by simp [h])
          rw [h] at hcs
          obtain ⟨rfl, -⟩ := List.cons.inj hcs
          exact absurd hc (by decide)

theorem number_int (n : ℤ) {rest : List Char} (hrest : Follows rest) :
    number (printInt n ++ rest) = some (.int n, rest) := by
  rw [number, integer_printInt n fun c hc => (hrest c hc).1]
  cases rest with
  | nil => rfl
  | cons c rest =>
      have hc := (hrest c rfl).2
      simp only [Option.bind_eq_bind, Option.bind_some]
      split
      · rename_i heq
        exact absurd (List.cons.inj heq).1 hc
      · rfl

theorem number_float (q : ℚ) {rest : List Char} (hrest : Follows rest) :
    number (printInt q.num ++ '/' :: Nat.toDigits 10 q.den ++ rest) = some (.float q, rest) := by
  have hslash : ∀ c ∈ ('/' :: Nat.toDigits 10 q.den ++ rest).head?, c.isDigit = false := by
    intro c hc
    obtain rfl : '/' = c := by simpa using hc
    decide
  rw [List.append_assoc, number, integer_printInt q.num hslash]
  simp [natural_toDigits q.den fun c hc => (hrest c hc).1, Rat.mkRat_self]

/-! ## Blanks and first characters -/

theorem skip_cons {c : Char} {cs : List Char} (hc : isBlank c = false) :
    skip (c :: cs) = c :: cs := by
  simp [skip, hc]

theorem startsInt_cases {c : Char} (hc : startsInt c = true) :
    isBlank c = false ∧ c ≠ 'n' ∧ c ≠ 't' ∧ c ≠ 'f' ∧ c ≠ '"' ∧ c ≠ '[' ∧ c ≠ '{' := by
  refine ⟨?_, ?_, ?_, ?_, ?_, ?_, ?_⟩
  · by_contra hb
    simp only [isBlank, Bool.or_eq_true, beq_iff_eq, Bool.not_eq_false] at hb
    rcases hb with ((rfl | rfl) | rfl) | rfl <;> exact absurd hc (by decide)
  all_goals rintro rfl; exact absurd hc (by decide)

/-- A text that starts like an integer is read as a number. -/
theorem value_number {c : Char} {cs : List Char} (hc : startsInt c = true) (n : ℕ) :
    value (n + 1) (c :: cs) = number (c :: cs) := by
  obtain ⟨hb, hn, ht, hf, hq, hl, hd⟩ := startsInt_cases hc
  rw [value, skip_cons hb]
  split
  all_goals first
    | rfl
    | (rename_i heq; obtain ⟨rfl, -⟩ := List.cons.inj heq; contradiction)

/-- Printed text starts with a character that is no blank and closes nothing. -/
theorem print_cons (v : Json) :
    ∃ c cs, print v = c :: cs ∧ isBlank c = false ∧ c ≠ ']' := by
  have hint : ∀ n : ℤ, ∀ ds, ∃ c cs, printInt n ++ ds = c :: cs ∧ isBlank c = false ∧ c ≠ ']' := by
    intro n ds
    obtain ⟨c, cs, hcs, hc⟩ := printInt_cons n
    refine ⟨c, cs ++ ds, by rw [hcs, List.cons_append], (startsInt_cases hc).1, ?_⟩
    rintro rfl
    exact absurd hc (by decide)
  cases v with
  | null => exact ⟨_, _, by rw [print], by decide, by decide⟩
  | bool b => cases b <;> exact ⟨_, _, by rw [print], by decide, by decide⟩
  | int n => simpa [print] using hint n []
  | float q => simpa [print] using hint q.num _
  | str s => exact ⟨_, _, by rw [print], by decide, by decide⟩
  | list vs => exact ⟨_, _, by rw [print], by decide, by decide⟩
  | dict fs => exact ⟨_, _, by rw [print], by decide, by decide⟩

/-! ## The round trip -/

theorem setField_of_notMem {fs : List (String × Json)} {k : String} (hk : k ∉ fs.map Prod.fst)
    (v : Json) : setField fs k v = fs ++ [(k, v)] := by
  rw [setField, if_neg hk]

/-- `value` reads back the text of `v` in front of any text that cannot continue a number. -/
def ReadsBack (v : Json) : Prop :=
  ∀ n rest, (print v).length ≤ n → Follows rest → value n (print v ++ rest) = some (v, rest)

theorem follows_printElemsTail (vs : List Json) (rest : List Char) :
    Follows (printElemsTail vs ++ rest) := by
  cases vs with
  | nil => exact Follows.cons (by decide) (by decide)
  | cons v vs => exact Follows.cons (by decide) (by decide)

theorem follows_printFieldsTail (fs : List (String × Json)) (rest : List Char) :
    Follows (printFieldsTail fs ++ rest) := by
  cases fs with
  | nil => exact Follows.cons (by decide) (by decide)
  | cons kv fs => exact Follows.cons (by decide) (by decide)

/-- The elements of a list are read back if each of them is. -/
theorem elements_print (v : Json) (vs : List Json) (hvs : ∀ w ∈ v :: vs, ReadsBack w) (n : ℕ)
    (rest : List Char) (hn : (print v ++ printElemsTail vs).length ≤ n) :
    elements n (print v ++ printElemsTail vs ++ rest) = some (v :: vs, rest) := by
  induction vs generalizing v n with
  | nil =>
      obtain ⟨n, rfl⟩ : ∃ k, n = k + 1 := ⟨n - 1, by simp [printElemsTail] at hn; omega⟩
      have hv := hvs v (by simp) n (printElemsTail [] ++ rest)
        (by simp [printElemsTail] at hn; omega) (follows_printElemsTail _ _)
      rw [List.append_assoc, elements, hv]
      simp [printElemsTail, skip_cons (c := ']') (by decide)]
  | cons w vs ih =>
      have hlen : (print v).length + ((print w ++ printElemsTail vs).length + 1) ≤ n := by
        simpa [printElemsTail] using hn
      obtain ⟨n, rfl⟩ : ∃ k, n = k + 1 := ⟨n - 1, by omega⟩
      have hv := hvs v (by simp) n (printElemsTail (w :: vs) ++ rest) (by omega)
        (follows_printElemsTail _ _)
      have htail := ih w (fun u hu => hvs u (by simp [List.mem_cons.mp hu])) n (by omega)
      rw [List.append_assoc, elements, hv]
      simp only [printElemsTail, List.cons_append, Option.bind_eq_bind, Option.bind_some,
        skip_cons (c := ',') (by decide), htail]
      rfl

/-- The fields of a dict are read back if each value is and no key is repeated. -/
theorem members_print (k : String) (v : Json) (fs acc : List (String × Json))
    (hfs : ∀ kv ∈ (k, v) :: fs, ReadsBack kv.2)
    (hnodup : ((acc ++ (k, v) :: fs).map Prod.fst).Nodup) (n : ℕ) (rest : List Char)
    (hn : (print v ++ printFieldsTail fs).length ≤ n) :
    members n ('"' :: (quote k.toList ++ ':' :: (print v ++ (printFieldsTail fs ++ rest)))) acc
      = some (acc ++ (k, v) :: fs, rest) := by
  induction fs generalizing k v acc n with
  | nil =>
      obtain ⟨n, rfl⟩ : ∃ k, n = k + 1 := ⟨n - 1, by simp [printFieldsTail] at hn; omega⟩
      have hv := hfs (k, v) (by simp) n (printFieldsTail [] ++ rest)
        (by simp [printFieldsTail] at hn; omega) (follows_printFieldsTail _ _)
      have hset : setField acc k v = acc ++ [(k, v)] := by
        refine setField_of_notMem ?_ v
        rw [List.map_append, List.nodup_append] at hnodup
        intro hk
        exact hnodup.2.2 k hk k (by simp) rfl
      rw [members, skip_cons (by decide)]
      simp only [string_quote, Option.bind_eq_bind, Option.bind_some,
        skip_cons (c := ':') (by decide), hv, String.ofList_toList, hset]
      simp [printFieldsTail, skip_cons (c := '\x7d') (by decide)]
  | cons kv fs ih =>
      obtain ⟨k', w⟩ := kv
      have hlen : (print v).length + ((print w ++ printFieldsTail fs).length + 1) ≤ n := by
        simp [printFieldsTail] at hn ⊢
        omega
      obtain ⟨n, rfl⟩ : ∃ k, n = k + 1 := ⟨n - 1, by omega⟩
      have hread : ReadsBack v := hfs (k, v) (by simp)
      have hv := hread n (printFieldsTail ((k', w) :: fs) ++ rest) (by omega)
        (follows_printFieldsTail _ _)
      have hset : setField acc k v = acc ++ [(k, v)] := by
        refine setField_of_notMem ?_ v
        rw [List.map_append, List.nodup_append] at hnodup
        intro hk
        exact hnodup.2.2 k hk k (by simp) rfl
      have htail := ih k' w (acc ++ [(k, v)])
        (fun u hu => hfs u (by simp [List.mem_cons.mp hu])) (by simpa using hnodup) n (by omega)
      rw [members, skip_cons (by decide)]
      simp only [string_quote, Option.bind_eq_bind, Option.bind_some,
        skip_cons (c := ':') (by decide), hv, String.ofList_toList, hset]
      simpa [printFieldsTail, skip_cons (c := ',') (by decide)] using htail

/-- Every well-formed value is read back. -/
theorem readsBack {v : Json} (hv : v.WF) : ReadsBack v := by
  induction hv with
  | null =>
      intro n rest hn hrest
      obtain ⟨n, rfl⟩ : ∃ k, n = k + 1 := ⟨n - 1, by simp [print] at hn; omega⟩
      simp [print, value, skip_cons (c := 'n') (by decide), keyword]
  | bool b =>
      intro n rest hn hrest
      obtain ⟨n, rfl⟩ : ∃ k, n = k + 1 := ⟨n - 1, by cases b <;> simp [print] at hn <;> omega⟩
      cases b with
      | false => simp [print, value, skip_cons (c := 'f') (by decide), keyword]
      | true => simp [print, value, skip_cons (c := 't') (by decide), keyword]
  | int m =>
      intro n rest hn hrest
      obtain ⟨c, cs, hcs, hc⟩ := printInt_cons m
      obtain ⟨n, rfl⟩ : ∃ k, n = k + 1 := ⟨n - 1, by simp [print, hcs] at hn; omega⟩
      have hnum := number_int m hrest
      rw [print]
      rw [hcs] at hnum ⊢
      rw [List.cons_append, value_number hc, ← List.cons_append, hnum]
  | float q =>
      intro n rest hn hrest
      obtain ⟨c, cs, hcs, hc⟩ := printInt_cons q.num
      obtain ⟨n, rfl⟩ : ∃ k, n = k + 1 := ⟨n - 1, by simp [print, hcs] at hn; omega⟩
      have hnum := number_float q hrest
      rw [print]
      rw [hcs] at hnum ⊢
      simp only [List.cons_append] at hnum ⊢
      rw [value_number hc, hnum]
  | str s =>
      intro n rest hn hrest
      obtain ⟨n, rfl⟩ : ∃ k, n = k + 1 := ⟨n - 1, by simp [print] at hn; omega⟩
      simp [print, value, skip_cons (c := '"') (by decide), string_quote]
  | @list vs hvs ih =>
      intro n rest hn hrest
      obtain ⟨n, rfl⟩ : ∃ k, n = k + 1 := ⟨n - 1, by simp [print] at hn; omega⟩
      cases vs with
      | nil => simp [print, printElems, value, skip_cons (c := '[') (by decide),
          skip_cons (c := ']') (by decide)]
      | cons v vs =>
          have hlen : (print v ++ printElemsTail vs).length ≤ n := by
            simpa [print, printElems] using hn
          have helems := elements_print v vs (fun w hw => ih w hw) n rest hlen
          obtain ⟨c, cs, hcs, hblank, hclose⟩ := print_cons v
          rw [print, printElems, List.cons_append, value, skip_cons (by decide)]
          rw [hcs] at helems ⊢
          simp only [List.cons_append] at helems ⊢
          rw [skip_cons hblank]
          split
          · rename_i heq
            exact absurd (List.cons.inj heq).1 hclose
          · rw [helems]
            rfl
  | @dict fs hnodup hfs ih =>
      intro n rest hn hrest
      obtain ⟨n, rfl⟩ : ∃ k, n = k + 1 := ⟨n - 1, by simp [print] at hn; omega⟩
      cases fs with
      | nil => simp [print, printFields, value, skip_cons (c := '\x7b') (by decide),
          skip_cons (c := '\x7d') (by decide)]
      | cons kv fs =>
          obtain ⟨k, v⟩ := kv
          have hlen : (print v ++ printFieldsTail fs).length ≤ n := by
            simp [print, printFields] at hn ⊢
            omega
          have hmem := members_print k v fs []
            (fun w hw => ih w hw) (by simpa using hnodup) n rest hlen
          rw [print, printFields, List.cons_append, value, skip_cons (by decide)]
          simp only [List.cons_append, List.append_assoc, skip_cons (c := '"') (by decide)]
          show Option.map (fun x => (Json.dict x.1, x.2)) (members n _ []) = _
          rw [hmem]
          rfl

/-- Parsing undoes printing. -/
theorem parse_print {v : Json} (hv : v.WF) : parse (print v) = some v := by
  have hread := readsBack hv ((print v).length + 1) [] (by omega) (by simp [Follows])
  rw [List.append_nil] at hread
  rw [parse, hread]
  rfl

/-! ## What the parser can produce -/

/-- The fields of a dict: distinct keys, well-formed values. -/
structure FieldsWF (fs : List (String × Json)) : Prop where
  nodup : (fs.map Prod.fst).Nodup
  values : ∀ kv ∈ fs, kv.2.WF

theorem FieldsWF.setField {fs : List (String × Json)} (hfs : FieldsWF fs) (k : String) {v : Json}
    (hv : v.WF) : FieldsWF (setField fs k v) := by
  unfold CompactJson.setField
  split
  · have hkeys : (fs.map fun kv => if kv.1 = k then (k, v) else kv).map Prod.fst
        = fs.map Prod.fst := by
      rw [List.map_map]
      refine List.map_congr_left fun kv _ => ?_
      by_cases hk : kv.1 = k
      · simp [hk]
      · simp [hk]
    refine ⟨by rw [hkeys]; exact hfs.nodup, ?_⟩
    intro kv hkv
    obtain ⟨kv', hkv', rfl⟩ := List.mem_map.mp hkv
    by_cases hk : kv'.1 = k
    · simpa [hk] using hv
    · simpa [hk] using hfs.values kv' hkv'
  · rename_i hk
    refine ⟨?_, ?_⟩
    · rw [List.map_append, List.nodup_append]
      refine ⟨hfs.nodup, by simp, ?_⟩
      rintro a ha b hb rfl
      obtain rfl : a = k := by simpa using hb
      exact hk ha
    · intro kv hkv
      rcases List.mem_append.mp hkv with hkv | hkv
      · exact hfs.values kv hkv
      · obtain rfl := List.mem_singleton.mp hkv
        exact hv

theorem keyword_wf {word cs rest : List Char} {v w : Json} (hv : v.WF)
    (h : keyword word v cs = some (w, rest)) : w.WF := by
  unfold keyword at h
  split at h
  · obtain ⟨rfl, -⟩ := by simpa using h
    exact hv
  · cases h

theorem number_wf {cs rest : List Char} {v : Json} (h : number cs = some (v, rest)) : v.WF := by
  simp only [number, Option.bind_eq_bind, Option.bind_eq_some_iff] at h
  obtain ⟨⟨n, cs'⟩, -, h⟩ := h
  simp only at h
  split at h
  · obtain ⟨⟨d, cs''⟩, -, h⟩ := Option.bind_eq_some_iff.mp h
    cases h
    exact .float _
  · cases h
    exact .int _

/-- With any fuel the parser yields well-formed values: one step for each of its three functions. -/
theorem parser_wf (n : ℕ) :
    (∀ cs v rest, value n cs = some (v, rest) → v.WF) ∧
    (∀ cs vs rest, elements n cs = some (vs, rest) → ∀ v ∈ vs, v.WF) ∧
    (∀ cs fs fs' rest, FieldsWF fs → members n cs fs = some (fs', rest) → FieldsWF fs') := by
  induction n with
  | zero =>
      refine ⟨?_, ?_, ?_⟩
      · intro cs v rest h
        simp [value] at h
      · intro cs vs rest h
        simp [elements] at h
      · intro cs fs fs' rest _ h
        simp [members] at h
  | succ n ih =>
      obtain ⟨ihv, ihe, ihm⟩ := ih
      refine ⟨?_, ?_, ?_⟩
      · intro cs v rest h
        rw [value] at h
        split at h
        · exact keyword_wf .null h
        · exact keyword_wf (.bool true) h
        · exact keyword_wf (.bool false) h
        · obtain ⟨x, -, hx⟩ := Option.map_eq_some_iff.mp h
          cases hx
          exact .str _
        · split at h
          · cases h
            exact .list (by simp)
          · obtain ⟨⟨vs, cs'⟩, hvs, hx⟩ := Option.map_eq_some_iff.mp h
            cases hx
            exact .list (ihe _ _ _ hvs)
        · split at h
          · cases h
            exact .dict (by simp) (by simp)
          · obtain ⟨⟨fs, cs'⟩, hfs, hx⟩ := Option.map_eq_some_iff.mp h
            cases hx
            have hwf := ihm _ _ _ _ ⟨by simp, by simp⟩ hfs
            exact .dict hwf.nodup hwf.values
        · exact number_wf h
      · intro cs vs rest h
        rw [elements] at h
        simp only [Option.bind_eq_bind, Option.bind_eq_some_iff] at h
        obtain ⟨⟨v, cs'⟩, hv, h⟩ := h
        simp only at h
        have hwf := ihv _ _ _ hv
        split at h
        · obtain ⟨⟨ws, cs''⟩, hws, hx⟩ := Option.bind_eq_some_iff.mp h
          cases hx
          intro w hw
          rcases List.mem_cons.mp hw with rfl | hw
          · exact hwf
          · exact ihe _ _ _ hws w hw
        · cases h
          simpa using hwf
        · cases h
      · intro cs fs fs' rest hfs h
        rw [members] at h
        split at h
        · simp only [Option.bind_eq_bind, Option.bind_eq_some_iff] at h
          obtain ⟨⟨k, cs'⟩, -, h⟩ := h
          simp only at h
          split at h
          · obtain ⟨⟨v, cs''⟩, hv, h⟩ := Option.bind_eq_some_iff.mp h
            have hset := hfs.setField (String.ofList k) (ihv _ _ _ hv)
            simp only at h
            split at h
            · exact ihm _ _ _ _ hset h
            · cases h
              exact hset
            · cases h
          · cases h
        · cases h

theorem parse_wf {cs : List Char} {v : Json} (h : parse cs = some v) : v.WF := by
  simp only [parse, Option.bind_eq_bind, Option.bind_eq_some_iff] at h
  obtain ⟨⟨w, rest⟩, hw, h⟩ := h
  simp only at h
  split at h
  · cases h
    exact (parser_wf _).1 _ _ _ hw
  · cases h

/-! ## The library -/

/-- `json.loads`, on bytes or on `None`. -/
def loads : Option ByteArray → Except Exn Json
  | none => .error ⟨.typeError,
      "the JSON object must be str, bytes or bytearray, not NoneType"⟩
  | some b => do
      let s ← decodeUtf8 b
      match parse s.toList with
      | some v => .ok v
      | none => .error ⟨.jsonDecodeError, "Expecting value"⟩

/-- Compact `json.dumps(v).encode()` -/
def dumps (v : Json) : ByteArray := (String.ofList (print v)).toUTF8

/-- `str(v)` -/
def str : Json → String
  | .str s => s
  | .null => "None"
  | .bool true => "True"
  | .bool false => "False"
  | v => String.ofList (print v)

/-- `b.decode("utf-8", errors="replace")`, with one replacement character for each byte that is not
ASCII when `b` is not UTF-8. -/
def decodeReplace (b : ByteArray) : String :=
  match String.fromUTF8? b with
  | some s => s
  | none => String.ofList (b.toList.map fun x => if x < 128 then Char.ofNat x.toNat else '\uFFFD')

theorem decodeUtf8_error {b : ByteArray} {x : Exn} (h : decodeUtf8 b = .error x) :
    x.cls = .unicodeDecodeError := by
  unfold decodeUtf8 at h
  split at h
  · cases h
  · cases h
    rfl

/-- The compact codec has the behaviour assumed of the Python library. -/
def compactJson : PyLib where
  loads := loads
  dumps := dumps
  str := str
  decodeReplace := decodeReplace
  loads_none := ⟨_, rfl⟩
  loads_error := by
    intro b x h
    rcases bind_eq_error.mp h with h | ⟨s, -, h⟩
    · exact Or.inr (decodeUtf8_error h)
    · split at h
      · cases h
      · cases h
        exact Or.inl rfl
  loads_wf := by
    intro b v h
    obtain ⟨s, -, h⟩ := bind_eq_ok.mp h
    split at h
    · rename_i w hw
      cases h
      exact parse_wf hw
    · cases h
  loads_dumps := by
    intro v hv
    refine bind_eq_ok.mpr ⟨_, decodeUtf8_toUTF8 _, ?_⟩
    rw [String.toList_ofList, parse_print hv]
  str_str := fun _ => rfl

end FraudDetection.Python.CompactJson
