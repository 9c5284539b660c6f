import FraudDetection.Python.Split
import FraudDetection.Orchestrator.Consume

/-!
# What one message does to the others

The loop ends at the first message that raises. What is published on two sequences of messages in a
row is therefore what is published on each of them, unless a message of the first is fatal and the
second has something to publish.
-/

namespace FraudDetection.Orchestrator

open Python Floats

/-- A message that ends the loop. -/
def Incoming.Fatal (pb : Protobuf) (m : Incoming) : Prop := Orchestrator.Fatal pb m.world m.value

/-- A message that the loop skips. -/
def Incoming.Skipped (m : Incoming) : Prop := Orchestrator.Skipped m.value

variable {lib : NumberLib} {pb : Protobuf} {m : Incoming}

/-! ## Outputs -/

theorem outputs_of_fatal (h : m.Fatal pb) (ms : List Incoming) : outputs lib pb (m :: ms) = [] := by
  rcases @outcome_cases lib pb m.world m.value with ⟨-, x, hx⟩ | ⟨hno, -⟩ | ⟨hno, -⟩
  · rw [outputs, hx]
  · exact absurd h hno
  · exact absurd h hno

theorem outputs_of_not_fatal (h : ¬ m.Fatal pb) (ms : List Incoming) :
    outputs lib pb (m :: ms) = (outcome lib pb m.world m.value).events ++ outputs lib pb ms := by
  rcases @outcome_cases lib pb m.world m.value with
    ⟨hfatal, -⟩ | ⟨-, -, hx⟩ | ⟨-, -, event, hx⟩
  · exact absurd hfatal h
  · rw [outputs, hx]
  · rw [outputs, hx]

/-- A message without a fatal one before it is published exactly if it is neither fatal nor
skipped. -/
theorem events_eq_nil_iff (h : ¬ m.Fatal pb) :
    (outcome lib pb m.world m.value).events = [] ↔ m.Skipped := by
  rcases @outcome_cases lib pb m.world m.value with
    ⟨hfatal, -⟩ | ⟨-, hskip, hx⟩ | ⟨-, hskip, event, hx⟩
  · exact absurd hfatal h
  · rw [hx]
    exact iff_of_true rfl hskip
  · rw [hx]
    exact iff_of_false (List.cons_ne_nil _ _) hskip

/-- The second sequence is reached exactly when no message of the first is fatal. -/
theorem outputs_append (xs ys : List Incoming) :
    ((∀ x ∈ xs, ¬ x.Fatal pb) →
      outputs lib pb (xs ++ ys) = outputs lib pb xs ++ outputs lib pb ys) ∧
    ((∃ x ∈ xs, x.Fatal pb) → outputs lib pb (xs ++ ys) = outputs lib pb xs) := by
  induction xs with
  | nil => simp [outputs]
  | cons x xs ih =>
      by_cases hx : x.Fatal pb
      · rw [List.cons_append, outputs_of_fatal hx, outputs_of_fatal hx]
        refine ⟨?_, fun _ => rfl⟩
        intro hall
        exact absurd hx (hall x List.mem_cons_self)
      · rw [List.cons_append, outputs_of_not_fatal hx, outputs_of_not_fatal hx]
        constructor
        · intro hall
          rw [ih.1 fun y hy => hall y (List.mem_cons_of_mem x hy), List.append_assoc]
        · rintro ⟨y, hy, hfatal⟩
          rcases List.mem_cons.mp hy with rfl | hmem
          · exact absurd hfatal hx
          · rw [ih.2 ⟨y, hmem, hfatal⟩]

/-- Nothing is published exactly when every message up to the first fatal one is skipped. -/
theorem outputs_eq_nil_iff (ys : List Incoming) :
    outputs lib pb ys = [] ↔ ∀ before y after, ys = before ++ y :: after →
      (∀ u ∈ before, ¬ u.Fatal pb) → y.Fatal pb ∨ y.Skipped := by
  induction ys with
  | nil => simp [outputs]
  | cons y ys ih =>
      by_cases hy : y.Fatal pb
      · rw [outputs_of_fatal hy, forall_cut_cons]
        refine iff_of_true rfl ⟨fun _ => Or.inl hy, ?_⟩
        intro before u after _ hbefore
        exact absurd hy (hbefore y List.mem_cons_self)
      · rw [outputs_of_not_fatal hy, List.append_eq_nil_iff, events_eq_nil_iff hy, ih,
          forall_cut_cons]
        have hfirst : y.Skipped ↔
            ((∀ u ∈ ([] : List Incoming), ¬ u.Fatal pb) → y.Fatal pb ∨ y.Skipped) := by
          simp [hy]
        have hrest : ∀ before : List Incoming,
            (∀ u ∈ before, ¬ u.Fatal pb) ↔ ∀ u ∈ y :: before, ¬ u.Fatal pb := by
          intro before
          rw [List.forall_mem_cons, and_iff_right hy]
        simp only [← hfirst, ← hrest]

/-! ## Isolation -/

/-- What is published on two sequences of messages in a row is what is published on each of them
exactly when no message of the first one is fatal, or the second one publishes nothing because each
of its messages up to the first fatal one is skipped. -/
theorem published_append_iff (lib : NumberLib) (pb : Protobuf) (xs ys : List Incoming) :
    published lib pb (xs ++ ys) = published lib pb xs ++ published lib pb ys ↔
      (∀ x ∈ xs, ¬ x.Fatal pb) ∨
      ∀ before y after, ys = before ++ y :: after → (∀ u ∈ before, ¬ u.Fatal pb) →
        y.Fatal pb ∨ y.Skipped := by
  rw [published_eq, published_eq, published_eq, ← @outputs_eq_nil_iff lib pb]
  obtain ⟨hclean, hstop⟩ := @outputs_append lib pb xs ys
  by_cases hxs : ∀ x ∈ xs, ¬ x.Fatal pb
  · exact iff_of_true (hclean hxs) (Or.inl hxs)
  · have hfatal : ∃ x ∈ xs, x.Fatal pb := by
      simpa using hxs
    rw [hstop hfatal, or_iff_right hxs]
    constructor
    · intro h
      exact (List.append_right_eq_self.mp h.symm)
    · intro h
      rw [h, List.append_nil]

/-! ### A message that is no object -/

/-- Constructors that accept every field. -/
def lenientProtobuf : Protobuf where
  construct := fun _ => .ok ()
  construct_exception := by
    intro r x h
    cases h

/-- Engines that give every transaction the same score, and a Redis that works. -/
def steadyWorld (score : ℚ) : World :=
  { idleWorld with
    engines := fun _ => .ok (.num score)
    engines_exception := nofun }

/-- A transaction event. -/
def sampleMessage : Json := .dict [("payload", .dict [("transaction_id", .str "t-1")])]

theorem sampleMessage_payload :
    payloadOf sampleMessage = .ok (.dict [("transaction_id", .str "t-1")]) := by
  simp [payloadOf, sampleMessage]

/-- A transaction in a world without failures. -/
def sampleIncoming : Incoming := ⟨sampleMessage, steadyWorld 0⟩

theorem sampleIncoming_not_fatal : ¬ sampleIncoming.Fatal lenientProtobuf := by
  intro h
  have hscore : ∀ engine, scoreOf lenientProtobuf (steadyWorld 0) engine
      (.dict [("transaction_id", .str "t-1")]) = 0 := by
    intro engine
    cases engine <;> rfl
  cases h with
  | notDict hno => exact hno _ rfl
  | payload hp ht hno =>
      cases sampleMessage_payload.symm.trans hp
      exact hno _ rfl
  | score engine hp ht hscore' =>
      cases sampleMessage_payload.symm.trans hp
      apply hscore'
      show (scoreOf lenientProtobuf (steadyWorld 0) engine _).Unit
      rw [hscore engine]
      exact Double.unit_zero

theorem sampleIncoming_not_skipped : ¬ sampleIncoming.Skipped := by
  rintro ⟨payload, hp, hfalse⟩
  cases sampleMessage_payload.symm.trans hp
  cases hfalse

theorem str_fatal (pb : Protobuf) (w : World) (s : String) : (⟨.str s, w⟩ : Incoming).Fatal pb := by
  refine Fatal.notDict ?_
  intro fs h
  cases h

/-- After a message that is a text, the next transaction is neither scored nor published. -/
theorem text_hides_transaction :
    ¬ ∀ (lib : NumberLib) (pb : Protobuf) (xs ys : List Incoming),
      published lib pb (xs ++ ys) = published lib pb xs ++ published lib pb ys := by
  intro hclaim
  have happend := hclaim compactNumbers lenientProtobuf [⟨.str "oops", steadyWorld 0⟩]
    [sampleIncoming]
  rw [published_eq, published_eq, published_eq] at happend
  have hfatal := str_fatal lenientProtobuf (steadyWorld 0) "oops"
  rw [(outputs_append _ _).2 ⟨_, List.mem_singleton_self _, hfatal⟩,
    outputs_of_fatal hfatal, List.nil_append] at happend
  rcases (outputs_eq_nil_iff _).mp happend.symm [] sampleIncoming [] rfl (by simp) with h | h
  · exact sampleIncoming_not_fatal h
  · exact sampleIncoming_not_skipped h

end FraudDetection.Orchestrator
