import PayEra.Lib.Traps
import PayEra.PaymentEngine.Lifecycle
import PayEra.PaymentEngine.Roles

/-!
# The payment engine answers

Which signature each entrypoint asks for, and that a call of the engine traps for want of it only, or
because the registry does not answer. The reward engine cannot make the payment engine trap.
-/

namespace PayEra.PaymentEngine

open Soroban Soroban.Call

/-- Whose signature an entrypoint asks for. -/
def Storage.signer (s : Storage) : Entry → Option Address
  | .setAdmin _ | .pause | .unpause | .setOperator _ _ | .setContracts _ _ => s.admin
  | .acceptAdmin => s.pendingAdmin
  | .createPayment operator _ _ _ _ _ _ _ | .quotePayment operator _ _ _ _ | .markConverted operator _
  | .markSettled operator _ | .issueReward operator _ | .completePayment operator _
  | .failPayment operator _ => some operator
  | .cancelPayment payer _ => some payer
  | .admin | .heartbeat | .paused | .getPayment _ => none

/-- What the constructor stores stays stored. -/
structure Sound (s : Storage) : Prop where
  admin : s.admin ≠ none
  registry : s.merchantRegistry ≠ none
  rewardEngine : s.rewardEngine ≠ none

section Own

variable {env : Env} {s : Storage}

@[simp] lemma not_traps_publish {e : Event} : ¬(publish e).Traps env s := by simp [publish]

@[simp] lemma not_traps_requireInitialized : ¬requireInitialized.Traps env s := by
  simp [requireInitialized]

@[simp] lemma not_traps_requireNotPaused : ¬requireNotPaused.Traps env s := by
  simp [requireNotPaused]

@[simp] lemma traps_readAdmin : readAdmin.Traps env s ↔ s.admin = none := by
  simp [readAdmin]

@[simp] lemma traps_readMerchantRegistry :
    readMerchantRegistry.Traps env s ↔ s.merchantRegistry = none := by
  simp [readMerchantRegistry]

@[simp] lemma traps_readRewardEngine : readRewardEngine.Traps env s ↔ s.rewardEngine = none := by
  simp [readRewardEngine]

@[simp] lemma traps_requireOperator {operator : Address} :
    (requireOperator operator).Traps env s ↔ s.Live ∧ env.auth operator = false := by
  simp [requireOperator]

@[simp] lemma not_traps_hasPayment {id : Bytes32} : ¬(hasPayment id).Traps env s := by
  simp [hasPayment]

@[simp] lemma not_traps_readPayment {id : Bytes32} : ¬(readPayment id).Traps env s := by
  simp [readPayment]

@[simp] lemma not_traps_writePayment {r : PaymentRecord} : ¬(writePayment r).Traps env s := by
  simp [writePayment]

@[simp] lemma not_traps_touchAndWrite {r : PaymentRecord} : ¬(touchAndWrite r).Traps env s := by
  simp [touchAndWrite]

@[simp] lemma not_traps_requireStatus {r : PaymentRecord} {status : PaymentStatus} :
    ¬(requireStatus r status).Traps env s := by
  simp [requireStatus]

@[simp] lemma traps_transitionOperator {operator : Address} {id : Bytes32}
    {fromStatus toStatus : PaymentStatus} {event : Action} :
    (transitionOperator operator id fromStatus toStatus event).Traps env s ↔
      s.Live ∧ env.auth operator = false := by
  simp [transitionOperator]

end Own

section Calls

variable {ω : Type} {clients : Clients ω} {env : Env} {s t : WithPeers Storage ω} {e : Entry}

/-- The registry that `create_payment` asks does not answer. -/
def Forsaken (clients : Clients ω) (env : Env) (s : WithPeers Storage ω) : Entry → Prop
  | .createPayment _ _ _ merchantId _ _ _ _ => ∃ registry, s.own.merchantRegistry = some registry ∧
      clients.isApproved registry merchantId (env.nested registry) s.peers = none
  | _ => False

/-- Every trap is the want of a signature, or the registry's. -/
lemma exec_trapped (hs : Sound s.own) (h : (exec clients e).Traps env s) :
    (∃ x, s.own.signer e = some x ∧ env.auth x = false) ∨ Forsaken clients env s e := by
  obtain ⟨adm, hadm⟩ := Option.ne_none_iff_exists'.mp hs.admin
  cases e with
  | admin | heartbeat | paused | getPayment =>
    simp [exec, admin, heartbeat, paused, getPayment, hadm] at h
  | setAdmin | setOperator | setContracts =>
    simp [exec, setAdmin, setOperator, setContracts, hadm] at h
    exact .inl ⟨adm, hadm, h.2⟩
  | pause | unpause =>
    simp [exec, pause, unpause, hadm] at h
    exact .inl ⟨adm, hadm, h⟩
  | acceptAdmin =>
    simp [exec, acceptAdmin, hadm] at h
    obtain ⟨-, pending, hpending, hauth⟩ := h
    exact .inl ⟨pending, hpending, hauth⟩
  | createPayment operator payer id merchantId asset amount qrHash rewardId =>
    simp [exec, createPayment, hs.registry] at h
    rcases h with ⟨-, ⟨-, hauth⟩ | ⟨-, -, -, hreply⟩⟩
    · exact .inl ⟨operator, rfl, hauth⟩
    · exact .inr hreply
  | issueReward operator id =>
    simp [exec, issueReward, hs.rewardEngine] at h
    exact .inl ⟨operator, rfl, h.2⟩
  | cancelPayment payer id =>
    simp [exec, cancelPayment] at h
    exact .inl ⟨payer, rfl, h.2⟩
  | quotePayment operator | markConverted operator | markSettled operator | completePayment operator
  | failPayment operator =>
    simp [exec, quotePayment, markConverted, markSettled, completePayment, failPayment] at h
    exact .inl ⟨operator, rfl, h.2⟩

/-- A call that returns was signed. -/
lemma exec_signed {u : Unit} {x : Address} (hx : s.own.signer e = some x)
    (h : (exec clients e).run env s = .ok (u, t)) : env.auth x = true := by
  cases e with
  | admin | heartbeat | paused | getPayment => cases hx
  | setAdmin =>
    obtain ⟨_, hrun, rfl⟩ := run_own.mp h
    obtain ⟨-, adm, hadm, hauth, -⟩ := run_setAdmin.mp hrun
    exact auth_of_named hadm hauth hx
  | pause =>
    obtain ⟨_, hrun, rfl⟩ := run_own.mp h
    obtain ⟨adm, hadm, hauth, -⟩ := run_pause.mp hrun
    exact auth_of_named hadm hauth hx
  | unpause =>
    obtain ⟨_, hrun, rfl⟩ := run_own.mp h
    obtain ⟨adm, hadm, hauth, -⟩ := run_unpause.mp hrun
    exact auth_of_named hadm hauth hx
  | setOperator =>
    obtain ⟨_, hrun, rfl⟩ := run_own.mp h
    obtain ⟨-, adm, hadm, hauth, -⟩ := run_setOperator.mp hrun
    exact auth_of_named hadm hauth hx
  | setContracts =>
    obtain ⟨_, hrun, rfl⟩ := run_own.mp h
    obtain ⟨-, adm, hadm, hauth, -⟩ := run_setContracts.mp hrun
    exact auth_of_named hadm hauth hx
  | acceptAdmin =>
    obtain ⟨_, hrun, rfl⟩ := run_own.mp h
    obtain ⟨-, pending, -, hpending, hauth, -⟩ := run_acceptAdmin.mp hrun
    exact auth_of_named hpending hauth hx
  | createPayment =>
    cases hx
    exact (run_createPayment.mp h).1.auth
  | quotePayment =>
    cases hx
    obtain ⟨_, hrun, rfl⟩ := run_own.mp h
    exact (run_quotePayment.mp hrun).1.auth
  | markConverted | markSettled | completePayment =>
    cases hx
    obtain ⟨_, hrun, rfl⟩ := run_own.mp h
    exact (run_transitionOperator.mp hrun).1.auth
  | issueReward =>
    cases hx
    obtain ⟨amount, h⟩ := run_void.mp h
    exact (run_issueReward.mp h).1.auth
  | cancelPayment =>
    cases hx
    obtain ⟨_, hrun, rfl⟩ := run_own.mp h
    exact (run_cancelPayment.mp hrun).2.1
  | failPayment =>
    cases hx
    obtain ⟨_, hrun, rfl⟩ := run_own.mp h
    exact (run_failPayment.mp hrun).1.auth

/-- No entrypoint removes what the constructor has stored. -/
lemma sound_exec {u : Unit} (hs : Sound s.own) (h : (exec clients e).run env s = .ok (u, t)) :
    Sound t.own := by
  cases e with
  | admin | heartbeat | paused | getPayment =>
    rw [eq_of_isRead rfl h]
    exact hs
  | setAdmin =>
    obtain ⟨_, hrun, rfl⟩ := run_own.mp h
    obtain ⟨-, adm, -, -, rfl⟩ := run_setAdmin.mp hrun
    exact ⟨hs.admin, hs.registry, hs.rewardEngine⟩
  | acceptAdmin =>
    obtain ⟨_, hrun, rfl⟩ := run_own.mp h
    obtain ⟨-, pending, old, -, -, -, rfl⟩ := run_acceptAdmin.mp hrun
    refine ⟨Option.some_ne_none pending, ?_, ?_⟩
    · unfold Storage.handOver
      split_ifs <;> exact hs.registry
    · unfold Storage.handOver
      split_ifs <;> exact hs.rewardEngine
  | pause =>
    obtain ⟨_, hrun, rfl⟩ := run_own.mp h
    obtain ⟨adm, -, -, rfl⟩ := run_pause.mp hrun
    exact ⟨hs.admin, hs.registry, hs.rewardEngine⟩
  | unpause =>
    obtain ⟨_, hrun, rfl⟩ := run_own.mp h
    obtain ⟨adm, -, -, rfl⟩ := run_unpause.mp hrun
    exact ⟨hs.admin, hs.registry, hs.rewardEngine⟩
  | setOperator =>
    obtain ⟨_, hrun, rfl⟩ := run_own.mp h
    obtain ⟨-, adm, -, -, rfl⟩ := run_setOperator.mp hrun
    exact ⟨hs.admin, hs.registry, hs.rewardEngine⟩
  | setContracts registry rewardEngine =>
    obtain ⟨_, hrun, rfl⟩ := run_own.mp h
    obtain ⟨-, adm, -, -, rfl⟩ := run_setContracts.mp hrun
    exact ⟨hs.admin, Option.some_ne_none registry, Option.some_ne_none rewardEngine⟩
  | createPayment =>
    obtain ⟨-, -, -, registry, w, -, -, rfl⟩ := run_createPayment.mp h
    exact ⟨hs.admin, hs.registry, hs.rewardEngine⟩
  | quotePayment =>
    obtain ⟨_, hrun, rfl⟩ := run_own.mp h
    obtain ⟨-, -, r, -, -, rfl⟩ := run_quotePayment.mp hrun
    exact ⟨hs.admin, hs.registry, hs.rewardEngine⟩
  | markConverted | markSettled | completePayment =>
    obtain ⟨_, hrun, rfl⟩ := run_own.mp h
    obtain ⟨-, r, -, -, rfl⟩ := run_transitionOperator.mp hrun
    exact ⟨hs.admin, hs.registry, hs.rewardEngine⟩
  | issueReward =>
    obtain ⟨amount, h⟩ := run_void.mp h
    obtain ⟨-, r, eng, -, -, -, -, rfl⟩ := run_issueReward.mp h
    exact ⟨hs.admin, hs.registry, hs.rewardEngine⟩
  | cancelPayment =>
    obtain ⟨_, hrun, rfl⟩ := run_own.mp h
    obtain ⟨-, -, r, -, -, -, rfl⟩ := run_cancelPayment.mp hrun
    exact ⟨hs.admin, hs.registry, hs.rewardEngine⟩
  | failPayment =>
    obtain ⟨_, hrun, rfl⟩ := run_own.mp h
    obtain ⟨-, r, -, -, rfl⟩ := run_failPayment.mp hrun
    exact ⟨hs.admin, hs.registry, hs.rewardEngine⟩

end Calls

/-- The engine with its signers. -/
def signed {ω : Type} (clients : Clients ω) : Signed PaymentEngineError (WithPeers Storage ω) Storage
    Entry (OnLedger (WithPeers Storage ω)) (Act Entry) where
  toHosted := host clients
  signer := Storage.signer
  forsaken := Forsaken clients
  sound := Sound
  deployed := by
    rintro c ⟨env, ⟨adm, registry, rewardEngine, hrun⟩, -⟩
    obtain ⟨-, heq⟩ := run_constructor.mp hrun
    change Sound c.state.own
    rw [heq]
    exact ⟨Option.some_ne_none adm, Option.some_ne_none registry, Option.some_ne_none rewardEngine⟩
  kept _ _ _ _ hs h := sound_exec hs h
  signed _ _ _ _ _ hx h := exec_signed hx h
  trapped _ _ _ hs h := exec_trapped hs h

end PayEra.PaymentEngine
