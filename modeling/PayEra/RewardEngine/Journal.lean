import PayEra.Lib.Journal
import PayEra.RewardEngine.Roles

/-!
# The log of the reward engine

What the events of the engine tell: every reward with its recipient, issuer, kind and amount, who may
issue, who administers, the STAR token, and whether the engine is paused. The source of a reward is not
in the log.
-/

namespace PayEra.RewardEngine

open Soroban Soroban.Call

/-- What a reader of the log knows of a reward. -/
structure RewardView where
  recipient : Address
  issuer : Address
  kind : RewardKind
  amountStar : I128
  deriving DecidableEq

def RewardRecord.view (r : RewardRecord) : RewardView := ⟨r.recipient, r.issuer, r.kind, r.amountStar⟩

@[ext] structure View where
  initialized : Bool
  paused : Bool
  admin : Option Address
  pendingAdmin : Option Address
  starToken : Option Address
  issuer : Address → Bool
  reward : Bytes32 → Option RewardView

namespace View

def blank : View := ⟨false, false, none, none, none, fun _ => false, fun _ => none⟩

def setIssuer (v : View) (issuer : Address) (flag : Bool) : View :=
  { v with issuer := Function.update v.issuer issuer flag }

def handOver (v : View) (old pending : Address) : View :=
  let revoked := if old ≠ pending then v.setIssuer old false else v
  ({ revoked with admin := some pending, pendingAdmin := none }).setIssuer pending true

def apply (v : View) : Event → View
  | .issued rewardId recipient issuer kind amountStar =>
    { v with reward := Function.update v.reward rewardId (some ⟨recipient, issuer, kind, amountStar⟩) }
  | .config .init account counterparty _ =>
    ({ v with initialized := true, paused := false, admin := some account
              starToken := some counterparty }).setIssuer account true
  | .config .admProp _ counterparty _ => { v with pendingAdmin := some counterparty }
  | .config .admin account counterparty _ => v.handOver account counterparty
  | .config .pause _ _ _ => { v with paused := true }
  | .config .unpause _ _ _ => { v with paused := false }
  | .config .star _ counterparty _ => { v with starToken := some counterparty }
  | .config .issuer account _ flag => v.setIssuer account flag

end View

/-- What the log is to tell of the storage. -/
def Storage.view (s : Storage) : View where
  initialized := s.isInitialized
  paused := s.isPaused
  admin := s.admin
  pendingAdmin := s.pendingAdmin
  starToken := s.starToken
  issuer := s.isAuthorizedIssuer
  reward id := (s.reward id).map RewardRecord.view

section Writes

@[simp] lemma view_publish (s : Storage) (e : Event) : (s.publish e).view = s.view := rfl

lemma view_setIssuer (s : Storage) (issuer : Address) (flag : Bool) :
    (s.setIssuer issuer flag).view = s.view.setIssuer issuer flag :=
  View.ext rfl rfl rfl rfl rfl (getD_update s.authorizedIssuer issuer flag) rfl

lemma view_handOver (s : Storage) (old pending : Address) :
    (s.handOver old pending).view = s.view.handOver old pending := by
  have hrevoked : (if old ≠ pending then s.setIssuer old false else s).view =
      if old ≠ pending then s.view.setIssuer old false else s.view := by
    split_ifs
    · exact view_setIssuer s old false
    · rfl
  rw [Storage.handOver, View.handOver, view_setIssuer, ← hrevoked]
  rfl

lemma view_setReward (s : Storage) (r : RewardRecord) :
    (s.setReward r).view =
      s.view.apply (.issued r.rewardId r.recipient r.issuer r.kind r.amountStar) := by
  refine View.ext rfl rfl rfl rfl rfl rfl (funext fun x => ?_)
  by_cases hx : x = r.rewardId
  · simp [Storage.view, Storage.setReward, View.apply, RewardRecord.view, hx]
  · simp [Storage.view, Storage.setReward, View.apply, hx]

lemma events_handOver (s : Storage) (old pending : Address) :
    (s.handOver old pending).events = s.events := by
  unfold Storage.handOver
  split_ifs <;> rfl

end Writes

section Calls

variable {ω : Type} {star : StarTokenClient ω} {env : Env} {s t : WithPeers Storage ω} {u : Unit}
  {e : Entry}

/-- Events were published, and they are what has changed in the view. -/
def Publishes : Storage → Storage → Prop := Soroban.Publishes Storage.events Storage.view View.apply

/-- A write that is followed by its event. -/
lemma publishes_of {s m : Storage} {e : Event} (hevents : m.events = s.events)
    (hview : m.view = s.view.apply e) : Publishes s (m.publish e) := by
  refine .of_event ?_ hview
  rw [Storage.publish, hevents]

/-- Whatever the STAR contract does, the engine publishes what it does itself. -/
lemma exec_publishes (h : (exec star e).run env s = .ok (u, t)) : Publishes s.own t.own := by
  cases e with
  | admin | heartbeat | paused | isIssuer | calculateSpendReward | getReward =>
    rw [eq_of_isRead rfl h]
    exact .refl _
  | setAdmin newAdmin =>
    obtain ⟨_, hrun, rfl⟩ := run_own.mp h
    obtain ⟨-, adm, -, -, rfl⟩ := run_setAdmin.mp hrun
    exact publishes_of rfl rfl
  | acceptAdmin =>
    obtain ⟨_, hrun, rfl⟩ := run_own.mp h
    obtain ⟨-, pending, old, -, -, -, rfl⟩ := run_acceptAdmin.mp hrun
    exact publishes_of (events_handOver s.own old pending) (view_handOver s.own old pending)
  | pause =>
    obtain ⟨_, hrun, rfl⟩ := run_own.mp h
    obtain ⟨adm, -, -, rfl⟩ := run_pause.mp hrun
    exact publishes_of rfl rfl
  | unpause =>
    obtain ⟨_, hrun, rfl⟩ := run_own.mp h
    obtain ⟨adm, -, -, rfl⟩ := run_unpause.mp hrun
    exact publishes_of rfl rfl
  | setStarToken starToken =>
    obtain ⟨_, hrun, rfl⟩ := run_own.mp h
    obtain ⟨-, adm, -, -, rfl⟩ := run_setStarToken.mp hrun
    exact publishes_of rfl rfl
  | setIssuer issuer enabled =>
    obtain ⟨_, hrun, rfl⟩ := run_own.mp h
    obtain ⟨-, adm, -, -, rfl⟩ := run_setIssuer.mp hrun
    exact publishes_of rfl (view_setIssuer s.own issuer enabled)
  | issue i =>
    obtain ⟨n, h⟩ := run_void.mp h
    obtain ⟨starToken, w, -, -, rfl⟩ := (run_execIssue.mp h).minted
    exact publishes_of rfl (view_setReward s.own (i.record n env.ledger))

end Calls

section Instances

variable {ω : Type} (star : StarTokenClient ω)

/-- The engine with its log in view. -/
def journaled : Journaled RewardEngineError (WithPeers Storage ω) Storage Entry
    (OnLedger (WithPeers Storage ω)) (Act Entry) Event View where
  toHosted := host star
  events := Storage.events
  view := Storage.view
  blank := .blank
  apply := View.apply
  kept _ := True
  deployed := by
    rintro c ⟨env, ⟨admin, starToken, hrun⟩, -⟩
    obtain ⟨-, heq⟩ := run_constructor.mp hrun
    refine ⟨trivial, ?_⟩
    change c.state.own.view = c.state.own.events.foldl View.apply .blank
    rw [heq, view_publish, view_setIssuer]
    rfl
  turn _ _ _ _ _ h := ⟨trivial, exec_publishes h⟩

end Instances

/-- **The log of the reward engine** tells every reward that was issued, and the roles. -/
theorem reward_log_tells {ω : Type} (star : StarTokenClient ω) (c : OnLedger (WithPeers Storage ω))
    (h : (journaled star).system.Reachable c) : (journaled star).Told c :=
  Journaled.told h

/-- A token that mints whatever it is asked for. -/
def minting : StarTokenClient Unit := fun _ _ _ _ _ w => some ((), w)

/-- A reward is issued, and then the admin proposes another: the log tells both. -/
theorem reward_log_tells_of_campaign :
    ∃ c, (journaled minting).Told c ∧ ((journaled minting).viewAt c).pendingAdmin = some ⟨2⟩ ∧
      (((journaled minting).viewAt c).reward (.fill 1)).map (·.amountStar.val) = some 10 := by
  let env : Env := ⟨7, fun a => decide (a = ⟨1⟩), none, ⟨50⟩⟩
  let c₀ : OnLedger (WithPeers Storage Unit) := ⟨7, ⟨(constructor ⟨1⟩ ⟨60⟩).commit env {}, ()⟩⟩
  have h : (journaled minting).system.Reachable c₀ := .init ⟨env, ⟨⟨1⟩, ⟨60⟩, rfl⟩, rfl⟩
  have h := contractAmid_reachable_call h env
    (.issue (.campaign ⟨1⟩ (.fill 1) ⟨9⟩ (.fill 2) (.lit 10))) le_rfl
  have h := contractAmid_reachable_call h env (.setAdmin ⟨2⟩) le_rfl
  exact ⟨_, reward_log_tells minting _ h, by decide, by decide⟩

end PayEra.RewardEngine
