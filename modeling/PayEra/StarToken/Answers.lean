import PayEra.Lib.Traps
import PayEra.StarToken.Conservation
import PayEra.StarToken.Roles

/-!
# STAR answers

Which signature each entrypoint asks for, and that a call of STAR traps for want of it only. The division
that computes a fee never traps.
-/

namespace PayEra.StarToken

open Soroban Soroban.Call

/-- Whose signature an entrypoint asks for. -/
def Storage.signer (s : Storage) : Entry → Option Address
  | .setAdmin _ | .setFeeBurnConfig _ _ _ | .pause | .unpause | .setMinter _ _ | .setAuthorized _ _
  | .mint _ _ => s.admin
  | .acceptAdmin => s.pendingAdmin
  | .burnFee fromAddr _ | .approve fromAddr _ _ _ | .transfer fromAddr _ _ | .burn fromAddr _ =>
    some fromAddr
  | .mintFromMinter minter _ _ => some minter
  | .transferFrom spender _ _ _ | .burnFrom spender _ _ => some spender
  | .admin | .heartbeat | .getFeeBurnConfig | .paused | .isMinter _ | .authorized _ | .allowance _ _
  | .balance _ | .decimals | .name | .symbol | .totalSupply | .maxSupply => none

/-- There is an admin, and the books are in order. -/
structure Sound (s : Storage) : Prop where
  admin : s.admin ≠ none
  inv : Inv s

lemma Sound.metadata {s : Storage} (hs : Sound s) : s.metadata ≠ none := by
  obtain ⟨md, hmd, -⟩ := hs.inv.capped
  rw [hmd]
  exact Option.some_ne_none md

section Steps

variable {env : Env} {s t : Storage} {e : Entry}

@[simp] lemma not_traps_publish {e : StarEvent} : ¬(publish e).Traps env s := by simp [publish]

@[simp] lemma not_traps_requireInitialized : ¬requireInitialized.Traps env s := by
  simp [requireInitialized]

@[simp] lemma not_traps_requireNotPaused : ¬requireNotPaused.Traps env s := by
  simp [requireNotPaused]

@[simp] lemma traps_readAdmin : readAdmin.Traps env s ↔ s.admin = none := by
  simp [readAdmin]

@[simp] lemma traps_readMetadata : readMetadata.Traps env s ↔ s.metadata = none := by
  simp [readMetadata]

@[simp] lemma not_traps_requireAuthorized {id : Address} : ¬(requireAuthorized id).Traps env s := by
  simp [requireAuthorized]

@[simp] lemma not_traps_requirePositive {n : I128} : ¬(requirePositive n).Traps env s := by
  simp [requirePositive]

@[simp] lemma not_traps_addBalance {id : Address} {n : I128} : ¬(addBalance id n).Traps env s := by
  simp [addBalance]

@[simp] lemma not_traps_subBalance {id : Address} {n : I128} : ¬(subBalance id n).Traps env s := by
  simp [subBalance]

@[simp] lemma not_traps_transferInternal {a b : Address} {n : I128} :
    ¬(transferInternal a b n).Traps env s := by
  simp [transferInternal]

@[simp] lemma not_traps_burnInternal {a : Address} {n : I128} : ¬(burnInternal a n).Traps env s := by
  simp [burnInternal]

@[simp] lemma not_traps_spendAllowance {a b : Address} {n : I128} :
    ¬(spendAllowance a b n).Traps env s := by
  simp [spendAllowance]

@[simp] lemma not_traps_readAllowance {a b : Address} : ¬(readAllowance a b).Traps env s := by
  simp only [readAllowance, traps_bind, run_get]
  rintro (h | ⟨_, _, ⟨rfl, rfl⟩, h⟩)
  · exact not_traps_get h
  · split at h
    · exact not_traps_pure h
    · simp at h

@[simp] lemma traps_nextSupply {n : I128} : (nextSupply n).Traps env s ↔ s.metadata = none := by
  simp [nextSupply]

lemma checkedDiv_basisPoints (n : I128) : n.checkedDiv (.lit 10000 basisPoints_inRange) ≠ none :=
  I128.checkedDiv_ne_none (by decide)

lemma trapped_burnFee {a : Address} {n : I128} (h : (burnFee a n).Traps env s) :
    env.auth a = false := by
  simp [burnFee, checkedDiv_basisPoints] at h
  exact h.2.2

/-- Every trap is the want of a signature. -/
lemma exec_trapped (hs : Sound s) (h : (exec e).Traps env s) :
    ∃ x, s.signer e = some x ∧ env.auth x = false := by
  obtain ⟨adm, hadm⟩ := Option.ne_none_iff_exists'.mp hs.admin
  cases e with
  | admin | heartbeat | getFeeBurnConfig | paused | isMinter | authorized | allowance | balance | decimals
  | name | symbol | totalSupply | maxSupply =>
    simp [exec, admin, heartbeat, getFeeBurnConfig, paused, isMinter, authorized, allowance, balance,
      decimals, name, symbol, totalSupply, maxSupply, hadm, hs.metadata] at h
  | setAdmin | setFeeBurnConfig | setMinter | setAuthorized =>
    simp [exec, setAdmin, setFeeBurnConfig, setMinter, setAuthorized, hadm] at h
    exact ⟨adm, hadm, h.2⟩
  | pause | unpause =>
    simp [exec, pause, unpause, hadm] at h
    exact ⟨adm, hadm, h⟩
  | mint =>
    simp [exec, mint, hadm, hs.metadata] at h
    exact ⟨adm, hadm, h.2.2.2⟩
  | acceptAdmin =>
    simp [exec, acceptAdmin, hadm] at h
    obtain ⟨-, pending, hpending, hauth⟩ := h
    exact ⟨pending, hpending, hauth⟩
  | burnFee a n => exact ⟨a, rfl, trapped_burnFee (traps_void.mp h)⟩
  | approve a =>
    simp [exec, approve] at h
    exact ⟨a, rfl, h.2.2⟩
  | transfer a | burn a =>
    simp [exec, transfer, burn] at h
    exact ⟨a, rfl, h.2⟩
  | mintFromMinter minter =>
    simp [exec, mintFromMinter, hs.metadata] at h
    exact ⟨minter, rfl, h.2.2.2⟩
  | transferFrom spender | burnFrom spender =>
    simp [exec, transferFrom, burnFrom] at h
    exact ⟨spender, rfl, h.2⟩

/-- A call that returns was signed. -/
lemma exec_signed {u : Unit} {x : Address} (hx : s.signer e = some x)
    (h : (exec e).run env s = .ok (u, t)) : env.auth x = true := by
  cases e with
  | admin | heartbeat | getFeeBurnConfig | paused | isMinter | authorized | allowance | balance | decimals
  | name | symbol | totalSupply | maxSupply => cases hx
  | setAdmin =>
    obtain ⟨-, adm, hadm, hauth, -⟩ := run_setAdmin.mp h
    exact auth_of_named hadm hauth hx
  | setFeeBurnConfig =>
    obtain ⟨-, adm, hadm, hauth, -⟩ := run_setFeeBurnConfig.mp h
    exact auth_of_named hadm hauth hx
  | pause =>
    obtain ⟨adm, hadm, hauth, -⟩ := run_pause.mp h
    exact auth_of_named hadm hauth hx
  | unpause =>
    obtain ⟨adm, hadm, hauth, -⟩ := run_unpause.mp h
    exact auth_of_named hadm hauth hx
  | setMinter =>
    obtain ⟨-, adm, hadm, hauth, -⟩ := run_setMinter.mp h
    exact auth_of_named hadm hauth hx
  | setAuthorized =>
    obtain ⟨-, adm, hadm, hauth, -⟩ := run_setAuthorized.mp h
    exact auth_of_named hadm hauth hx
  | mint =>
    obtain ⟨-, ⟨adm, hadm, hauth⟩, -⟩ := run_mint.mp h
    exact auth_of_named hadm hauth hx
  | acceptAdmin =>
    obtain ⟨-, pending, old, hpending, hauth, -⟩ := run_acceptAdmin.mp h
    exact auth_of_named hpending hauth hx
  | burnFee =>
    cases hx
    obtain ⟨fee, h⟩ := run_void.mp h
    exact (run_burnFee.mp h).2.2.1
  | approve =>
    cases hx
    exact (run_approve.mp h).2.2.1
  | transfer =>
    cases hx
    exact (run_transfer.mp h).2.1
  | burn =>
    cases hx
    exact (run_burn.mp h).2.1
  | mintFromMinter =>
    cases hx
    exact (run_mintFromMinter.mp h).2.1
  | transferFrom =>
    cases hx
    exact (run_transferFrom.mp h).2.1
  | burnFrom =>
    cases hx
    exact (run_burnFrom.mp h).2.1

end Steps

/-- STAR with its signers. It calls no other contract. -/
def signed : Signed StarTokenError Storage Storage Entry (OnLedger Storage) (Env × Entry) where
  toHosted := host
  signer := Storage.signer
  forsaken _ _ _ := False
  sound := Sound
  deployed := by
    rintro c ⟨env, hd, -⟩
    refine ⟨?_, Inv.deployed hd⟩
    obtain ⟨adm, name, symbol, cap, hrun⟩ := hd
    obtain ⟨-, -, heq⟩ := run_constructor.mp hrun
    change c.state.admin ≠ none
    rw [heq]
    exact Option.some_ne_none adm
  kept _ _ _ _ hs h := ⟨(exec_ruled h).charterStep.admin_ne_none hs.admin, hs.inv.exec h⟩
  signed _ _ _ _ _ hx h := exec_signed hx h
  trapped _ _ _ hs h := .inl (exec_trapped hs h)

end PayEra.StarToken
