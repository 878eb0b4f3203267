import PayEra.Lib.Traps
import PayEra.MerchantRegistry.Roles

/-!
# The merchant registry answers

Which signature each entrypoint asks for, and that a call of the registry traps for want of it only.
-/

namespace PayEra.MerchantRegistry

open Soroban Soroban.Call

/-- Whose signature an entrypoint asks for. -/
def Storage.signer (s : Storage) : Entry → Option Address
  | .setAdmin _ | .pause | .unpause | .registerMerchant _ _ _ _ | .approveMerchant _
  | .suspendMerchant _ | .rejectMerchant _ => s.admin
  | .acceptAdmin => s.pendingAdmin
  | .updateMetadata id _ | .transferOwner id _ => (s.merchant id).map (·.owner)
  | .admin | .heartbeat | .paused | .getMerchant _ | .isApproved _ => none

section Calls

variable {env : Env} {s t : Storage} {e : Entry}

@[simp] lemma not_traps_publish {e : Event} : ¬(publish e).Traps env s := by simp [publish]

@[simp] lemma not_traps_requireInitialized : ¬requireInitialized.Traps env s := by
  simp [requireInitialized]

@[simp] lemma not_traps_requireNotPaused : ¬requireNotPaused.Traps env s := by
  simp [requireNotPaused]

@[simp] lemma traps_readAdmin : readAdmin.Traps env s ↔ s.admin = none := by
  simp [readAdmin]

@[simp] lemma not_traps_hasMerchant {id : Bytes32} : ¬(hasMerchant id).Traps env s := by
  simp [hasMerchant]

@[simp] lemma not_traps_readMerchant {id : Bytes32} : ¬(readMerchant id).Traps env s := by
  simp [readMerchant]

@[simp] lemma not_traps_writeMerchant {r : MerchantRecord} : ¬(writeMerchant r).Traps env s := by
  simp [writeMerchant]

/-- Every trap is the want of a signature. -/
lemma exec_trapped (hs : s.admin ≠ none) (h : (exec e).Traps env s) :
    ∃ x, s.signer e = some x ∧ env.auth x = false := by
  obtain ⟨adm, hadm⟩ := Option.ne_none_iff_exists'.mp hs
  cases e with
  | admin | heartbeat | paused | getMerchant | isApproved =>
    simp [exec, admin, heartbeat, paused, getMerchant, isApproved, hadm] at h
  | setAdmin | registerMerchant | approveMerchant | suspendMerchant | rejectMerchant =>
    simp [exec, setAdmin, registerMerchant, approveMerchant, suspendMerchant, rejectMerchant, hadm] at h
    exact ⟨adm, hadm, h.2⟩
  | pause | unpause =>
    simp [exec, pause, unpause, hadm] at h
    exact ⟨adm, hadm, h⟩
  | acceptAdmin =>
    simp [exec, acceptAdmin, hadm] at h
    obtain ⟨-, pending, hpending, hauth⟩ := h
    exact ⟨pending, hpending, hauth⟩
  | updateMetadata id | transferOwner id =>
    simp [exec, updateMetadata, transferOwner] at h
    obtain ⟨-, r, hr, hauth⟩ := h
    refine ⟨r.owner, ?_, hauth⟩
    rw [Storage.signer, hr, Option.map_some]

/-- A call that returns was signed. -/
lemma exec_signed {u : Unit} {x : Address} (hx : s.signer e = some x)
    (h : (exec e).run env s = .ok (u, t)) : env.auth x = true := by
  cases e with
  | admin | heartbeat | paused | getMerchant | isApproved => cases hx
  | setAdmin =>
    obtain ⟨adm, hby, -⟩ := run_setAdmin.mp h
    exact auth_of_named hby.admin hby.auth hx
  | registerMerchant =>
    obtain ⟨adm, hby, -⟩ := run_registerMerchant.mp h
    exact auth_of_named hby.admin hby.auth hx
  | approveMerchant =>
    obtain ⟨adm, r, hby, -⟩ := run_approveMerchant.mp h
    exact auth_of_named hby.admin hby.auth hx
  | suspendMerchant =>
    obtain ⟨adm, r, hby, -⟩ := run_suspendMerchant.mp h
    exact auth_of_named hby.admin hby.auth hx
  | rejectMerchant =>
    obtain ⟨adm, r, hby, -⟩ := run_rejectMerchant.mp h
    exact auth_of_named hby.admin hby.auth hx
  | pause =>
    obtain ⟨adm, hadm, hauth, -⟩ := run_pause.mp h
    exact auth_of_named hadm hauth hx
  | unpause =>
    obtain ⟨adm, hadm, hauth, -⟩ := run_unpause.mp h
    exact auth_of_named hadm hauth hx
  | acceptAdmin =>
    obtain ⟨-, pending, -, hpending, hauth, -⟩ := run_acceptAdmin.mp h
    exact auth_of_named hpending hauth hx
  | updateMetadata =>
    obtain ⟨-, r, hr, hauth, -⟩ := run_updateMetadata.mp h
    refine auth_of_named ?_ hauth hx
    rw [Storage.signer, hr, Option.map_some]
  | transferOwner =>
    obtain ⟨-, r, hr, hauth, -⟩ := run_transferOwner.mp h
    refine auth_of_named ?_ hauth hx
    rw [Storage.signer, hr, Option.map_some]

/-- There is always an admin. -/
lemma admin_exec {u : Unit} (hs : s.admin ≠ none) (h : (exec e).run env s = .ok (u, t)) :
    t.admin ≠ none := by
  cases e with
  | admin | heartbeat | paused | getMerchant | isApproved =>
    rw [eq_of_isRead rfl h]
    exact hs
  | setAdmin =>
    obtain ⟨adm, -, rfl⟩ := run_setAdmin.mp h
    exact hs
  | acceptAdmin =>
    obtain ⟨-, pending, old, -, -, -, rfl⟩ := run_acceptAdmin.mp h
    exact Option.some_ne_none pending
  | pause =>
    obtain ⟨adm, -, -, rfl⟩ := run_pause.mp h
    exact hs
  | unpause =>
    obtain ⟨adm, -, -, rfl⟩ := run_unpause.mp h
    exact hs
  | registerMerchant =>
    obtain ⟨adm, -, -, rfl⟩ := run_registerMerchant.mp h
    exact hs
  | approveMerchant =>
    obtain ⟨adm, r, -, -, -, rfl⟩ := run_approveMerchant.mp h
    exact hs
  | suspendMerchant =>
    obtain ⟨adm, r, -, -, -, rfl⟩ := run_suspendMerchant.mp h
    exact hs
  | rejectMerchant =>
    obtain ⟨adm, r, -, -, -, rfl⟩ := run_rejectMerchant.mp h
    exact hs
  | updateMetadata =>
    obtain ⟨-, r, -, -, rfl⟩ := run_updateMetadata.mp h
    exact hs
  | transferOwner =>
    obtain ⟨-, r, -, -, rfl⟩ := run_transferOwner.mp h
    exact hs

end Calls

/-- The registry with its signers. It calls no other contract. -/
def signed : Signed MerchantRegistryError Storage Storage Entry (OnLedger Storage) (Env × Entry) where
  toHosted := host
  signer := Storage.signer
  forsaken _ _ _ := False
  sound s := s.admin ≠ none
  deployed := by
    rintro c ⟨env, ⟨adm, hrun⟩, -⟩
    obtain ⟨-, heq⟩ := run_constructor.mp hrun
    change c.state.admin ≠ none
    rw [heq]
    exact Option.some_ne_none adm
  kept _ _ _ _ hs h := admin_exec hs h
  signed _ _ _ _ _ hx h := exec_signed hx h
  trapped _ _ _ hs h := .inl (exec_trapped hs h)

end PayEra.MerchantRegistry
