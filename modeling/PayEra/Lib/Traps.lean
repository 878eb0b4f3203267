import PayEra.Lib.Governance

/-!
# Calls that do not trap

A call that fails should say why. It traps where an authorization is missing, where it expects a key
that was never written, where arithmetic leaves its range, and where a contract that it cannot do
without fails. The rules below split a call at its steps; what remains of a contract is an invariant of
its storage, under which only two reasons are left: its signer did not sign, or it was forsaken by a
peer.
-/

namespace Soroban

open Transition

/-- A positive divisor divides every `i128`. -/
lemma I128.checkedDiv_ne_none {a b : I128} (hb : 0 < b.val) : a.checkedDiv b ≠ none := by
  have hlower := a.lower
  have hupper := a.upper
  have hbound : min a.val 0 ≤ a.val.tdiv b.val ∧ a.val.tdiv b.val ≤ max a.val 0 := by
    rcases le_total 0 a.val with ha | ha
    · rw [min_eq_right ha, max_eq_left ha]
      exact ⟨Int.tdiv_nonneg ha hb.le, Int.tdiv_le_self _ ha⟩
    · have hneg : 0 ≤ -a.val := neg_nonneg.mpr ha
      have hle := Int.tdiv_le_self b.val hneg
      have hnonneg := Int.tdiv_nonneg hneg hb.le
      rw [Int.neg_tdiv] at hle hnonneg
      rw [min_eq_left ha, max_eq_right ha]
      omega
  obtain ⟨q, hq⟩ : ∃ q : I128, q.val = a.val.tdiv b.val :=
    ⟨⟨a.val.tdiv b.val, by omega, by omega⟩, rfl⟩
  rw [I128.checkedDiv_eq_some.mpr ⟨hb.ne', hq⟩]
  exact Option.some_ne_none q

namespace Call

variable {ε σ ω α β : Type}

def Traps (c : Call ε σ α) (env : Env) (s : σ) : Prop := c.run env s = .error .trap

section Steps

variable {env : Env} {s : σ}

@[simp] lemma not_traps_pure {a : α} : ¬(pure a : Call ε σ α).Traps env s := by
  simp [Traps]

@[simp] lemma traps_bind {x : Call ε σ α} {f : α → Call ε σ β} :
    (x >>= f).Traps env s ↔
      x.Traps env s ∨ ∃ a t, x.run env s = .ok (a, t) ∧ (f a).Traps env t :=
  run_bind_eq_error

@[simp] lemma not_traps_fail {e : ε} : ¬(fail e : Call ε σ α).Traps env s := by
  simp [Traps]

@[simp] lemma not_traps_failIf {p : Prop} [Decidable p] {e : ε} :
    ¬(failIf p e : Call ε σ Unit).Traps env s := by
  simp [Traps]

@[simp] lemma not_traps_okOr {o : Option α} {e : ε} : ¬(okOr o e : Call ε σ α).Traps env s := by
  simp [Traps]

@[simp] lemma traps_expect {o : Option α} : (expect o : Call ε σ α).Traps env s ↔ o = none := by
  cases o <;> simp [Traps, expect]

@[simp] lemma traps_requireAuth {x : Address} :
    (requireAuth x : Call ε σ Unit).Traps env s ↔ env.auth x = false := by
  simp [Traps]

@[simp] lemma not_traps_get : ¬(get : Call ε σ σ).Traps env s := by
  simp [Traps]

@[simp] lemma not_traps_modify {f : σ → σ} : ¬(modify f : Call ε σ Unit).Traps env s := by
  simp [Traps]

@[simp] lemma not_traps_sequence : ¬(sequence : Call ε σ Nat).Traps env s := by
  simp [Traps]

@[simp] lemma not_traps_currentContractAddress :
    ¬(currentContractAddress : Call ε σ Address).Traps env s := by
  simp [Traps, currentContractAddress]

@[simp] lemma traps_void {c : Call ε σ α} : c.void.Traps env s ↔ c.Traps env s := by
  simp [void]

@[simp] lemma traps_ite {p : Prop} [Decidable p] {x y : Call ε σ α} :
    (if p then x else y).Traps env s ↔ p ∧ x.Traps env s ∨ ¬p ∧ y.Traps env s := by
  split_ifs with h <;> simp [h]

end Steps

section Peers

variable {env : Env} {s : WithPeers σ ω}

@[simp] lemma traps_own {c : Call ε σ α} :
    (own c : Call ε (WithPeers σ ω) α).Traps env s ↔ c.Traps env s.own := by
  cases h : c.run env s.own <;> simp [Traps, own, h]

@[simp] lemma traps_invoke {callee : Address} {f : Reply ω α} :
    (invoke callee f : Call ε (WithPeers σ ω) α).Traps env s ↔
      f (env.nested callee) s.peers = none := by
  cases h : f (env.nested callee) s.peers <;> simp [Traps, invoke, h]

@[simp] lemma not_traps_tryInvoke {callee : Address} {f : Reply ω α} :
    ¬(tryInvoke callee f : Call ε (WithPeers σ ω) (Option α)).Traps env s := by
  cases h : f (env.nested callee) s.peers <;> simp [Traps, tryInvoke, h]

end Peers

/-- A call returns, or says why it does not, or traps. -/
lemma cases_run (c : Call ε σ α) (env : Env) (s : σ) :
    (∃ a t, c.run env s = .ok (a, t)) ∨ (∃ e, c.run env s = .error (.err e)) ∨ c.Traps env s := by
  unfold Traps
  cases c.run env s with
  | ok p => exact .inl ⟨p.1, p.2, rfl⟩
  | error e =>
    cases e with
    | err e => exact .inr (.inl ⟨e, rfl⟩)
    | trap => exact .inr (.inr rfl)

end Call

/-- Who is named in a storage key has signed. -/
lemma auth_of_named {env : Env} {key : Option Address} {x y : Address} (hy : key = some y)
    (hauth : env.auth y = true) (hx : key = some x) : env.auth x = true := by
  obtain rfl := Option.some.inj (hy.symm.trans hx)
  exact hauth

/-- A hosted contract, with the address that each entrypoint asks to sign. -/
structure Signed (ε σ τ ι κ l : Type) extends Hosted ε σ τ ι κ l where
  signer : τ → ι → Option Address
  /-- A peer that the entrypoint cannot do without fails. -/
  forsaken : Env → σ → ι → Prop
  /-- The invariant of the storage. -/
  sound : τ → Prop
  deployed : ∀ c, system.Init c → sound (own (state c))
  kept : ∀ env i s t, sound (own s) → (exec i).run env s = .ok ((), t) → sound (own t)
  signed : ∀ env i s t x, signer (own s) i = some x → (exec i).run env s = .ok ((), t) →
    env.auth x = true
  trapped : ∀ env i s, sound (own s) → (exec i).Traps env s →
    (∃ x, signer (own s) i = some x ∧ env.auth x = false) ∨ forsaken env s i

namespace Signed

variable {ε σ τ ι κ l : Type} (S : Signed ε σ τ ι κ l)

/-- A call that its signer did not sign fails and changes nothing; a call that was signed, and was not
forsaken, returns or says why it does not. -/
structure Answers (c : κ) : Prop where
  unsigned : ∀ env i x, S.signer (S.storage c) i = some x → env.auth x = false →
    (∀ t, (S.exec i).run env (S.state c) ≠ .ok ((), t)) ∧
      (S.exec i).commit env (S.state c) = S.state c
  signed : ∀ env i, (∀ x, S.signer (S.storage c) i = some x → env.auth x = true) →
    ¬S.forsaken env (S.state c) i →
    (∃ t, (S.exec i).run env (S.state c) = .ok ((), t)) ∨
      ∃ e, (S.exec i).run env (S.state c) = .error (.err e)

variable {S} {c : κ}

lemma sound_of_reachable (h : S.system.Reachable c) : S.sound (S.storage c) := by
  refine h.invariant (P := fun c => S.sound (S.storage c)) S.deployed ?_
  intro s a t _ hs hstep
  rcases Hosted.moves hstep with ⟨-, hstorage⟩ | ⟨env, i, -, hrun⟩
  · rw [hstorage]
    exact hs
  · exact S.kept env i _ _ hs hrun

/-- **No unexpected traps.** -/
theorem answers (h : S.system.Reachable c) : S.Answers c := by
  refine ⟨fun env i x hx hauth => ?_, fun env i hsigned hpeers => ?_⟩
  · have hfails : ∀ t, (S.exec i).run env (S.state c) ≠ .ok ((), t) := by
      intro t hrun
      rw [S.signed env i _ t x hx hrun] at hauth
      cases hauth
    refine ⟨hfails, ?_⟩
    rcases Call.commit_cases (S.exec i) env (S.state c) with ⟨u, hok⟩ | heq
    · exact absurd hok (hfails _)
    · exact heq
  · rcases Call.cases_run (S.exec i) env (S.state c) with ⟨u, t, hok⟩ | herr | htrap
    · exact .inl ⟨t, hok⟩
    · exact .inr herr
    · rcases S.trapped env i _ (sound_of_reachable h) htrap with ⟨x, hx, hauth⟩ | hforsaken
      · rw [hsigned x hx] at hauth
        cases hauth
      · exact absurd hforsaken hpeers

end Signed

end Soroban
