import PayEra.Lib.Async

/-!
# Retrying

A program that is run again when it fails, a bounded number of times. What one run keeps when it
fails is kept by all of them.
-/

namespace Async.Program

variable {Op : Type} {Res : Op → Type} {ε α : Type}

/-- Up to `n` more runs after one that fails. -/
def retry : ℕ → Program Op Res ε α → Program Op Res ε α
  | 0, p => p
  | n + 1, p => p.attempt >>= fun
    | .ok a => pure a
    | .error _ => retry n p

variable {ω L : Type} {D : Discipline ω Op Res ε L} {p : Program Op Res ε α} {R : α → L → Prop}
  {J : L → Prop} {ℓ : L}

/-- A run that fails leaves a ghost state in which the next one may begin. -/
lemma safe_retry (n : ℕ) (hℓ : J ℓ) (hp : ∀ ℓ, J ℓ → Safe D p ℓ (upon R J)) :
    Safe D (p.retry n) ℓ (upon R J) := by
  induction n generalizing ℓ with
  | zero => exact hp ℓ hℓ
  | succ n ih =>
    apply safe_attempt (hp ℓ hℓ)
    · intro a ℓ' ha
      exact safe_pure ha
    · intro e ℓ' hℓ'
      exact ih hℓ'

end Async.Program
