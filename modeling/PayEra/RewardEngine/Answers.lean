import PayEra.Lib.Traps
import PayEra.RewardEngine.Roles

/-!
# The reward engine answers

Which signature each entrypoint asks for, and that a call of the engine traps for want of it only, or
because the STAR token does not mint. The division of `calculate_spend_reward` never traps.
-/

namespace PayEra.RewardEngine

open Soroban Soroban.Call

/-- Whose signature an entrypoint asks for. -/
def Storage.signer (s : Storage) : Entry → Option Address
  | .setAdmin _ | .pause | .unpause | .setStarToken _ | .setIssuer _ _ => s.admin
  | .acceptAdmin => s.pendingAdmin
  | .issue i => some i.issuer
  | .admin | .heartbeat | .paused | .isIssuer _ | .calculateSpendReward _ | .getReward _ => none

/-- What the constructor stores stays stored. -/
structure Sound (s : Storage) : Prop where
  admin : s.admin ≠ none
  starToken : s.starToken ≠ none

section Own

variable {env : Env} {s : Storage}

@[simp] lemma not_traps_publish {e : Event} : ¬(publish e).Traps env s := by simp [publish]

@[simp] lemma not_traps_requireInitialized : ¬requireInitialized.Traps env s := by
  simp [requireInitialized]

@[simp] lemma not_traps_requireNotPaused : ¬requireNotPaused.Traps env s := by
  simp [requireNotPaused]

@[simp] lemma traps_readAdmin : readAdmin.Traps env s ↔ s.admin = none := by
  simp [readAdmin]

@[simp] lemma traps_readStarToken : readStarToken.Traps env s ↔ s.starToken = none := by
  simp [readStarToken]

@[simp] lemma not_traps_readReward {id : Bytes32} : ¬(readReward id).Traps env s := by
  simp [readReward]

lemma checkedDiv_paise (n : I128) : n.checkedDiv PAISE_PER_100_INR ≠ none :=
  I128.checkedDiv_ne_none (by decide)

@[simp] lemma not_traps_calculateSpendReward {σ : Type} {s : σ} {n : I128} :
    ¬(calculateSpendReward n).Traps env s := by
  simp [calculateSpendReward, checkedDiv_paise]

end Own

section Calls

variable {ω : Type} {star : StarTokenClient ω} {env : Env} {s t : WithPeers Storage ω} {e : Entry}

/-- The STAR token does not mint the reward. -/
def Forsaken (star : StarTokenClient ω) (env : Env) (s : WithPeers Storage ω) : Entry → Prop
  | .issue i => ∃ starToken amountStar, s.own.starToken = some starToken ∧
      i.amountStar = some amountStar ∧
      star starToken env.self i.recipient amountStar (env.nested starToken) s.peers = none
  | _ => False

/-- Issuing traps where the issuer has not signed, or the token does not mint. -/
lemma trapped_issueReward {issuer recipient : Address} {id sourceId : Bytes32} {kind : RewardKind}
    {n : I128} (hs : Sound s.own)
    (h : (issueReward star issuer id recipient sourceId kind n).Traps env s) :
    env.auth issuer = false ∨ ∃ starToken, s.own.starToken = some starToken ∧
      star starToken env.self recipient n (env.nested starToken) s.peers = none := by
  simp [issueReward, hs.starToken] at h
  obtain ⟨-, -, hauth | ⟨-, -, -, hmint⟩⟩ := h
  · exact .inl hauth
  · exact .inr hmint

lemma trapped_execIssue {i : Issue} (hs : Sound s.own) (h : (execIssue star i).Traps env s) :
    env.auth i.issuer = false ∨ Forsaken star env s (.issue i) := by
  cases i with
  | spend issuer id recipient sourceId amount =>
    simp only [execIssue, issueSpendReward, traps_bind, not_traps_calculateSpendReward,
      run_calculateSpendReward, not_traps_failIf, run_failIf, false_or] at h
    obtain ⟨n, _, ⟨hpos, hn, rfl⟩, _, _, ⟨-, rfl⟩, h⟩ := h
    rcases trapped_issueReward hs h with hauth | ⟨starToken, htoken, hmint⟩
    · exact .inl hauth
    · refine .inr ⟨starToken, n, htoken, ?_, hmint⟩
      rw [Issue.amountStar, if_neg (not_le.mpr hpos), I128.ofInt?_eq_some, hn]
  | referral | campaign =>
    rcases trapped_issueReward hs h with hauth | ⟨starToken, htoken, hmint⟩
    · exact .inl hauth
    · exact .inr ⟨starToken, _, htoken, rfl, hmint⟩

/-- Every trap is the want of a signature, or the token's. -/
lemma exec_trapped (hs : Sound s.own) (h : (exec star e).Traps env s) :
    (∃ x, s.own.signer e = some x ∧ env.auth x = false) ∨ Forsaken star env s e := by
  obtain ⟨adm, hadm⟩ := Option.ne_none_iff_exists'.mp hs.admin
  cases e with
  | admin | heartbeat | paused | isIssuer | calculateSpendReward | getReward =>
    simp [exec, admin, heartbeat, paused, isIssuer, getReward, hadm] at h
  | setAdmin | setStarToken | setIssuer =>
    simp [exec, setAdmin, setStarToken, setIssuer, hadm] at h
    exact .inl ⟨adm, hadm, h.2⟩
  | pause | unpause =>
    simp [exec, pause, unpause, hadm] at h
    exact .inl ⟨adm, hadm, h⟩
  | acceptAdmin =>
    simp [exec, acceptAdmin, hadm] at h
    obtain ⟨-, pending, hpending, hauth⟩ := h
    exact .inl ⟨pending, hpending, hauth⟩
  | issue i =>
    exact (trapped_execIssue hs (traps_void.mp h)).imp_left fun hauth => ⟨i.issuer, rfl, hauth⟩

/-- A call that returns was signed. -/
lemma exec_signed {u : Unit} {x : Address} (hx : s.own.signer e = some x)
    (h : (exec star e).run env s = .ok (u, t)) : env.auth x = true := by
  cases e with
  | admin | heartbeat | paused | isIssuer | calculateSpendReward | getReward => cases hx
  | setAdmin =>
    obtain ⟨_, hrun, rfl⟩ := run_own.mp h
    obtain ⟨-, adm, hadm, hauth, -⟩ := run_setAdmin.mp hrun
    exact auth_of_named hadm hauth hx
  | pause =>
    obtain ⟨_, hrun, rfl⟩ := run_own.mp h
    obtain ⟨adm, hadm, hauth, -⟩ := run_pause.mp hrun
    exact auth_of_named hadm hauth hx
  | unpause =>
    obtain ⟨_, hrun, rfl⟩ := run_own.mp h
    obtain ⟨adm, hadm, hauth, -⟩ := run_unpause.mp hrun
    exact auth_of_named hadm hauth hx
  | setStarToken =>
    obtain ⟨_, hrun, rfl⟩ := run_own.mp h
    obtain ⟨-, adm, hadm, hauth, -⟩ := run_setStarToken.mp hrun
    exact auth_of_named hadm hauth hx
  | setIssuer =>
    obtain ⟨_, hrun, rfl⟩ := run_own.mp h
    obtain ⟨-, adm, hadm, hauth, -⟩ := run_setIssuer.mp hrun
    exact auth_of_named hadm hauth hx
  | acceptAdmin =>
    obtain ⟨_, hrun, rfl⟩ := run_own.mp h
    obtain ⟨-, pending, -, hpending, hauth, -⟩ := run_acceptAdmin.mp hrun
    exact auth_of_named hpending hauth hx
  | issue i =>
    cases hx
    obtain ⟨n, h⟩ := run_void.mp h
    exact (run_execIssue.mp h).auth

/-- No entrypoint removes what the constructor has stored. -/
lemma sound_exec {u : Unit} (hs : Sound s.own) (h : (exec star e).run env s = .ok (u, t)) :
    Sound t.own := by
  cases e with
  | admin | heartbeat | paused | isIssuer | calculateSpendReward | getReward =>
    rw [eq_of_isRead rfl h]
    exact hs
  | setAdmin =>
    obtain ⟨_, hrun, rfl⟩ := run_own.mp h
    obtain ⟨-, adm, -, -, rfl⟩ := run_setAdmin.mp hrun
    exact ⟨hs.admin, hs.starToken⟩
  | acceptAdmin =>
    obtain ⟨_, hrun, rfl⟩ := run_own.mp h
    obtain ⟨-, pending, old, -, -, -, rfl⟩ := run_acceptAdmin.mp hrun
    refine ⟨Option.some_ne_none pending, ?_⟩
    unfold Storage.handOver
    split_ifs <;> exact hs.starToken
  | pause =>
    obtain ⟨_, hrun, rfl⟩ := run_own.mp h
    obtain ⟨adm, -, -, rfl⟩ := run_pause.mp hrun
    exact ⟨hs.admin, hs.starToken⟩
  | unpause =>
    obtain ⟨_, hrun, rfl⟩ := run_own.mp h
    obtain ⟨adm, -, -, rfl⟩ := run_unpause.mp hrun
    exact ⟨hs.admin, hs.starToken⟩
  | setStarToken starToken =>
    obtain ⟨_, hrun, rfl⟩ := run_own.mp h
    obtain ⟨-, adm, -, -, rfl⟩ := run_setStarToken.mp hrun
    exact ⟨hs.admin, Option.some_ne_none starToken⟩
  | setIssuer =>
    obtain ⟨_, hrun, rfl⟩ := run_own.mp h
    obtain ⟨-, adm, -, -, rfl⟩ := run_setIssuer.mp hrun
    exact ⟨hs.admin, hs.starToken⟩
  | issue i =>
    obtain ⟨n, h⟩ := run_void.mp h
    obtain ⟨starToken, w, -, -, rfl⟩ := (run_execIssue.mp h).minted
    exact ⟨hs.admin, hs.starToken⟩

end Calls

/-- The engine with its signers. -/
def signed {ω : Type} (star : StarTokenClient ω) : Signed RewardEngineError (WithPeers Storage ω) Storage
    Entry (OnLedger (WithPeers Storage ω)) (Act Entry) where
  toHosted := host star
  signer := Storage.signer
  forsaken := Forsaken star
  sound := Sound
  deployed := by
    rintro c ⟨env, ⟨adm, starToken, hrun⟩, -⟩
    obtain ⟨-, heq⟩ := run_constructor.mp hrun
    change Sound c.state.own
    rw [heq]
    exact ⟨Option.some_ne_none adm, Option.some_ne_none starToken⟩
  kept _ _ _ _ hs h := sound_exec hs h
  signed _ _ _ _ _ hx h := exec_signed hx h
  trapped _ _ _ hs h := exec_trapped hs h

end PayEra.RewardEngine
