import FraudDetection.Async.Program

/-!
# Programs side by side

Programs that await different kinds of operations can share a pool: each becomes a program over the
operations of either kind. A contract on all operations says what it asks of each kind.
-/

namespace FraudDetection.Async

variable {Op₁ Op₂ : Type} {Ret₁ : Op₁ → Type} {Ret₂ : Op₂ → Type} {ε α Q Q₁ Q₂ : Type}

/-- The replies to operations of either kind. -/
abbrev SumRet (Ret₁ : Op₁ → Type) (Ret₂ : Op₂ → Type) : Op₁ ⊕ Op₂ → Type := Sum.elim Ret₁ Ret₂

/-- What a contract asks of the operations of the first kind. -/
def Contract.left (C : Contract Q (SumRet Ret₁ Ret₂) ε) : Contract Q Ret₁ ε where
  guar q op := C.guar q (.inl op)
  rely q ev q' := C.rely q ⟨.inl ev.op, ev.reply⟩ q'

/-- What a contract asks of the operations of the second kind. -/
def Contract.right (C : Contract Q (SumRet Ret₁ Ret₂) ε) : Contract Q Ret₂ ε where
  guar q op := C.guar q (.inr op)
  rely q ev q' := C.rely q ⟨.inr ev.op, ev.reply⟩ q'

/-- Programs of either kind, each with the ghost states of its own contract. -/
def Contract.sum (C₁ : Contract Q₁ Ret₁ ε) (C₂ : Contract Q₂ Ret₂ ε) :
    Contract (Q₁ ⊕ Q₂) (SumRet Ret₁ Ret₂) ε where
  guar
    | .inl q, .inl op => C₁.guar q op
    | .inr q, .inr op => C₂.guar q op
    | _, _ => False
  rely
    | .inl q, ⟨.inl op, r⟩, q' => ∃ q₁, q' = .inl q₁ ∧ C₁.rely q ⟨op, r⟩ q₁
    | .inr q, ⟨.inr op, r⟩, q' => ∃ q₂, q' = .inr q₂ ∧ C₂.rely q ⟨op, r⟩ q₂
    | _, _, _ => False

namespace Prog

/-- A program over the operations of the first kind. -/
def inl : Prog Ret₁ ε α → Prog (SumRet Ret₁ Ret₂) ε α
  | pure a => pure a
  | raise e => raise e
  | call op k => call (.inl op) fun r => (k r).inl

/-- A program over the operations of the second kind. -/
def inr : Prog Ret₂ ε α → Prog (SumRet Ret₁ Ret₂) ε α
  | pure a => pure a
  | raise e => raise e
  | call op k => call (.inr op) fun r => (k r).inr

variable {C : Contract Q (SumRet Ret₁ Ret₂) ε} {P : Except ε α → Q → Prop} {q : Q}

theorem wp_inl {p : Prog Ret₁ ε α} : p.inl.wp C P q ↔ p.wp C.left P q := by
  induction p generalizing q with
  | pure a => exact Iff.rfl
  | raise e => exact Iff.rfl
  | call op k ih =>
    exact and_congr_right fun _ => forall_congr' fun r => forall_congr' fun q' =>
      imp_congr_right fun _ => ih r

theorem wp_inr {p : Prog Ret₂ ε α} : p.inr.wp C P q ↔ p.wp C.right P q := by
  induction p generalizing q with
  | pure a => exact Iff.rfl
  | raise e => exact Iff.rfl
  | call op k ih =>
    exact and_congr_right fun _ => forall_congr' fun r => forall_congr' fun q' =>
      imp_congr_right fun _ => ih r

section Sum

variable {C₁ : Contract Q₁ Ret₁ ε} {C₂ : Contract Q₂ Ret₂ ε}

theorem wp_inl_sum {p : Prog Ret₁ ε α} {P : Except ε α → Q₁ → Prop} {q : Q₁} (h : p.wp C₁ P q) :
    p.inl.wp (C₁.sum C₂) (fun r q' => ∃ q₁, q' = .inl q₁ ∧ P r q₁) (.inl q) := by
  induction p generalizing q with
  | pure a => exact ⟨q, rfl, h⟩
  | raise e => exact ⟨q, rfl, h⟩
  | call op k ih =>
    refine ⟨h.1, ?_⟩
    rintro r q' ⟨q₁, rfl, hrely⟩
    exact ih r (h.2 r q₁ hrely)

theorem wp_inr_sum {p : Prog Ret₂ ε α} {P : Except ε α → Q₂ → Prop} {q : Q₂} (h : p.wp C₂ P q) :
    p.inr.wp (C₁.sum C₂) (fun r q' => ∃ q₂, q' = .inr q₂ ∧ P r q₂) (.inr q) := by
  induction p generalizing q with
  | pure a => exact ⟨q, rfl, h⟩
  | raise e => exact ⟨q, rfl, h⟩
  | call op k ih =>
    refine ⟨h.1, ?_⟩
    rintro r q' ⟨q₂, rfl, hrely⟩
    exact ih r (h.2 r q₂ hrely)

end Sum

end Prog

end FraudDetection.Async
