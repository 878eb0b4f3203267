import PayEra.Lib.Governance
import PayEra.RewardEngine.Effects

/-!
# Roles in the reward engine

Who is admin and who may issue: the engine is an instance of the governed and of the pausable
contracts, whatever the STAR contract does.
-/

namespace PayEra.RewardEngine

open Soroban Soroban.Call

def Storage.charter (s : Storage) : Charter := ⟨s.admin, s.pendingAdmin, s.isAuthorizedIssuer⟩

def Entry.motion : Entry → Option Motion
  | .setAdmin newAdmin => some (.propose newAdmin)
  | .acceptAdmin => some .accept
  | .setIssuer issuer enabled => some (.set issuer enabled)
  | _ => none

/-- The address whose issuer flag an entrypoint asks for. -/
def Entry.names : Entry → Option Address
  | .issue i => some i.issuer
  | _ => none

/-- The entrypoints that only read, and `heartbeat`. -/
def Entry.isRead : Entry → Bool
  | .admin | .heartbeat | .paused | .isIssuer _ | .calculateSpendReward _ | .getReward _ => true
  | _ => false

lemma charter_setIssuer (s : Storage) (issuer : Address) (flag : Bool) :
    (s.setIssuer issuer flag).charter =
      { s.charter with flag := Function.update s.charter.flag issuer flag } :=
  Charter.ext rfl rfl (getD_update s.authorizedIssuer issuer flag)

lemma charter_publish (s : Storage) (e : Event) : (s.publish e).charter = s.charter := rfl

lemma charter_handOver (s : Storage) (old pending : Address) :
    (s.handOver old pending).charter = ⟨some pending, none,
      Function.update (Function.update s.isAuthorizedIssuer old false) pending true⟩ := by
  rw [Storage.handOver, charter_setIssuer, ← handOver_flag]
  refine Charter.ext rfl rfl ?_
  split_ifs
  · exact congrArg (Function.update · pending true) (getD_update s.authorizedIssuer old false)
  · rfl

section Calls

variable {ω : Type} {star : StarTokenClient ω} {env : Env} {s t : WithPeers Storage ω} {u : Unit}

lemma eq_of_isRead {e : Entry} (he : e.isRead = true)
    (h : (exec star e).run env s = .ok (u, t)) : t = s := by
  cases e <;> simp only [Entry.isRead, Bool.false_eq_true] at he
  case calculateSpendReward =>
    obtain ⟨n, h⟩ := run_void.mp h
    exact (run_calculateSpendReward.mp h).2.2
  all_goals
    simp [exec, admin, heartbeat, paused, isIssuer, getReward] at h
    cases s
    grind

/-- What a successful call does to the charter. -/
theorem exec_charter {e : Entry} (h : (exec star e).run env s = .ok (u, t)) :
    s.own.charter.Step env.auth e.motion t.own.charter := by
  cases e with
  | admin | heartbeat | paused | isIssuer | calculateSpendReward | getReward =>
    rw [eq_of_isRead rfl h]
    exact .still
  | setAdmin newAdmin =>
    obtain ⟨_, hrun, rfl⟩ := run_own.mp h
    obtain ⟨-, adm, hadm, hauth, rfl⟩ := run_setAdmin.mp hrun
    exact .propose newAdmin hadm hauth
  | acceptAdmin =>
    obtain ⟨_, hrun, rfl⟩ := run_own.mp h
    obtain ⟨-, pending, old, hpending, hauth, hadm, rfl⟩ := run_acceptAdmin.mp hrun
    rw [charter_publish, charter_handOver]
    exact .accept hadm hpending hauth
  | pause =>
    obtain ⟨_, hrun, rfl⟩ := run_own.mp h
    obtain ⟨adm, -, -, rfl⟩ := run_pause.mp hrun
    exact .still
  | unpause =>
    obtain ⟨_, hrun, rfl⟩ := run_own.mp h
    obtain ⟨adm, -, -, rfl⟩ := run_unpause.mp hrun
    exact .still
  | setStarToken starToken =>
    obtain ⟨_, hrun, rfl⟩ := run_own.mp h
    obtain ⟨-, adm, -, -, rfl⟩ := run_setStarToken.mp hrun
    exact .still
  | setIssuer issuer enabled =>
    obtain ⟨_, hrun, rfl⟩ := run_own.mp h
    obtain ⟨-, adm, hadm, hauth, rfl⟩ := run_setIssuer.mp hrun
    rw [charter_publish, charter_setIssuer]
    exact .set issuer enabled hadm hauth
  | issue i =>
    obtain ⟨n, h⟩ := run_void.mp h
    obtain ⟨starToken, w, -, -, rfl⟩ := (run_execIssue.mp h).minted
    exact .still

/-- What but `pause` and `unpause` goes past the first check finds the engine live. -/
lemma exec_live {e : Entry} (hreads : e.isRead = false) (hpause : e ≠ .pause)
    (hunpause : e ≠ .unpause) (h : (exec star e).run env s = .ok (u, t)) : s.own.Live := by
  cases e <;> simp only [Entry.isRead, reduceCtorEq] at hreads
  case pause => exact absurd rfl hpause
  case unpause => exact absurd rfl hunpause
  case setAdmin =>
    obtain ⟨_, hrun, rfl⟩ := run_own.mp h
    exact (run_setAdmin.mp hrun).1
  case acceptAdmin =>
    obtain ⟨_, hrun, rfl⟩ := run_own.mp h
    exact (run_acceptAdmin.mp hrun).1
  case setStarToken =>
    obtain ⟨_, hrun, rfl⟩ := run_own.mp h
    exact (run_setStarToken.mp hrun).1
  case setIssuer =>
    obtain ⟨_, hrun, rfl⟩ := run_own.mp h
    exact (run_setIssuer.mp hrun).1
  case issue =>
    obtain ⟨n, h⟩ := run_void.mp h
    exact (run_execIssue.mp h).live

end Calls

/-! ### The engine as a governed and as a pausable contract -/

section Instances

variable {ω : Type} (star : StarTokenClient ω)

/-- The engine amid the contracts that it calls. -/
def host : Hosted RewardEngineError (WithPeers Storage ω) Storage Entry
    (OnLedger (WithPeers Storage ω)) (Act Entry) := .amid Deployed (exec star)

/-- Its flag is `AuthorizedIssuer`. -/
def governed : Governed RewardEngineError (WithPeers Storage ω) Storage Entry
    (OnLedger (WithPeers Storage ω)) (Act Entry) where
  toHosted := host star
  charter := Storage.charter
  motion := Entry.motion
  names := Entry.names
  deployed := by
    rintro c ⟨env, ⟨adm, starToken, hd⟩, -⟩
    obtain ⟨-, hown⟩ := run_constructor.mp hd
    refine ⟨adm, ?_⟩
    show c.state.own.charter = _
    rw [hown, charter_publish, charter_setIssuer]
    refine Charter.ext rfl rfl ?_
    funext x
    by_cases hx : x = adm
    · simp [hx]
    · simp [hx, Storage.charter, Storage.isAuthorizedIssuer]
  turn _ _ _ _ h := exec_charter h
  gated := by
    intro env e x s t hx h
    cases e <;> simp only [Entry.names, Option.some.injEq, reduceCtorEq] at hx
    case issue i =>
      obtain ⟨n, h⟩ := run_void.mp h
      have hissued := run_execIssue.mp h
      rw [← hx]
      exact ⟨hissued.auth, hissued.authorized⟩

def pausable : Pausable RewardEngineError (WithPeers Storage ω) Storage Entry
    (OnLedger (WithPeers Storage ω)) (Act Entry) where
  toHosted := host star
  paused := Storage.isPaused
  admin := Storage.admin
  rest s := { s with paused := none, events := [] }
  pause := .pause
  unpause := .unpause
  reads := Entry.isRead
  blocked := by
    intro env e s t hpaused hreads hpause hunpause h
    have hlive := exec_live hreads hpause hunpause h
    have hnot : s.own.isPaused = true := hpaused
    rw [hlive.2] at hnot
    cases hnot
  read _ _ _ _ hreads h := eq_of_isRead hreads h
  toggled := by
    rintro env e s t (rfl | rfl) h
    · obtain ⟨_, hrun, rfl⟩ := run_own.mp h
      obtain ⟨adm, hadm, hauth, rfl⟩ := run_pause.mp hrun
      exact ⟨⟨adm, hadm, hauth⟩, rfl, by simp [host, Hosted.amid, Storage.isPaused, Storage.publish]⟩
    · obtain ⟨_, hrun, rfl⟩ := run_own.mp h
      obtain ⟨adm, hadm, hauth, rfl⟩ := run_unpause.mp hrun
      exact ⟨⟨adm, hadm, hauth⟩, rfl, by simp [host, Hosted.amid, Storage.isPaused, Storage.publish]⟩

end Instances

end PayEra.RewardEngine
