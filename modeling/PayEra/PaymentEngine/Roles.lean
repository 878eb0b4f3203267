import PayEra.Lib.Governance
import PayEra.PaymentEngine.Effects

/-!
# Roles in the payment engine

Who is admin and who is an operator: the engine is an instance of the governed and of the pausable
contracts, whatever the contracts that it calls do.
-/

namespace PayEra.PaymentEngine

open Soroban Soroban.Call

def Storage.charter (s : Storage) : Charter := ⟨s.admin, s.pendingAdmin, s.isOperator⟩

def Entry.motion : Entry → Option Motion
  | .setAdmin newAdmin => some (.propose newAdmin)
  | .acceptAdmin => some .accept
  | .setOperator operator enabled => some (.set operator enabled)
  | _ => none

/-- The address whose operator flag an entrypoint asks for. -/
def Entry.names : Entry → Option Address
  | .createPayment operator .. | .quotePayment operator .. | .markConverted operator _
  | .markSettled operator _ | .issueReward operator _ | .completePayment operator _
  | .failPayment operator _ => some operator
  | _ => none

lemma isOperator_setOperator (s : Storage) (operator : Address) (flag : Bool) :
    (s.setOperator operator flag).isOperator = Function.update s.isOperator operator flag :=
  getD_update s.operator operator flag

lemma charter_setOperator (s : Storage) (operator : Address) (flag : Bool) :
    (s.setOperator operator flag).charter =
      { s.charter with flag := Function.update s.charter.flag operator flag } :=
  Charter.ext rfl rfl (isOperator_setOperator s operator flag)

lemma charter_publish (s : Storage) (e : Event) : (s.publish e).charter = s.charter := rfl

lemma charter_handOver (s : Storage) (old pending : Address) :
    (s.handOver old pending).charter =
      ⟨some pending, none, Function.update (Function.update s.isOperator old false) pending true⟩ := by
  rw [Storage.charter, Storage.handOver, isOperator_setOperator, ← handOver_flag]
  congr 1
  split_ifs
  · exact congrArg (Function.update · pending true) (isOperator_setOperator s old false)
  · rfl

section Calls

variable {ω : Type} {clients : Clients ω} {env : Env} {s t : WithPeers Storage ω} {u : Unit}

/-- What a successful call does to the charter. -/
theorem exec_charter {e : Entry} (h : (exec clients e).run env s = .ok (u, t)) :
    s.own.charter.Step env.auth e.motion t.own.charter := by
  cases e with
  | admin | heartbeat | paused | getPayment =>
    rw [eq_of_isRead rfl h]
    exact .still
  | setAdmin newAdmin =>
    obtain ⟨_, hrun, rfl⟩ := run_own.mp h
    obtain ⟨-, adm, hadm, hauth, rfl⟩ := run_setAdmin.mp hrun
    exact .propose newAdmin hadm hauth
  | acceptAdmin =>
    obtain ⟨_, hrun, rfl⟩ := run_own.mp h
    obtain ⟨-, pending, old, hpending, hauth, hadm, rfl⟩ := run_acceptAdmin.mp hrun
    rw [charter_publish, charter_handOver]
    exact .accept hadm hpending hauth
  | pause =>
    obtain ⟨_, hrun, rfl⟩ := run_own.mp h
    obtain ⟨adm, -, -, rfl⟩ := run_pause.mp hrun
    exact .still
  | unpause =>
    obtain ⟨_, hrun, rfl⟩ := run_own.mp h
    obtain ⟨adm, -, -, rfl⟩ := run_unpause.mp hrun
    exact .still
  | setOperator operator enabled =>
    obtain ⟨_, hrun, rfl⟩ := run_own.mp h
    obtain ⟨-, adm, hadm, hauth, rfl⟩ := run_setOperator.mp hrun
    rw [charter_publish, charter_setOperator]
    exact .set operator enabled hadm hauth
  | setContracts registry rewardEngine =>
    obtain ⟨_, hrun, rfl⟩ := run_own.mp h
    obtain ⟨-, adm, -, -, rfl⟩ := run_setContracts.mp hrun
    exact .still
  | createPayment =>
    obtain ⟨-, -, -, registry, w, -, -, rfl⟩ := run_createPayment.mp h
    exact .still
  | issueReward =>
    obtain ⟨amount, h⟩ := run_void.mp h
    obtain ⟨-, r, eng, -, -, -, -, rfl⟩ := run_issueReward.mp h
    exact .still
  | quotePayment =>
    obtain ⟨_, hrun, rfl⟩ := run_own.mp h
    obtain ⟨-, -, r, -, -, rfl⟩ := run_quotePayment.mp hrun
    exact .still
  | markConverted | markSettled | completePayment =>
    obtain ⟨_, hrun, rfl⟩ := run_own.mp h
    obtain ⟨-, r, -, -, rfl⟩ := run_transitionOperator.mp hrun
    exact .still
  | cancelPayment =>
    obtain ⟨_, hrun, rfl⟩ := run_own.mp h
    obtain ⟨-, -, r, -, -, -, rfl⟩ := run_cancelPayment.mp hrun
    exact .still
  | failPayment =>
    obtain ⟨_, hrun, rfl⟩ := run_own.mp h
    obtain ⟨-, r, -, -, rfl⟩ := run_failPayment.mp hrun
    exact .still

/-- What names an operator goes on with its authorization and its flag only. -/
lemma operates_of_names {e : Entry} {x : Address} (hx : e.names = some x)
    (h : (exec clients e).run env s = .ok (u, t)) : Operates env s.own x := by
  cases e <;> simp only [Entry.names, Option.some.injEq, reduceCtorEq] at hx <;> subst hx
  case createPayment => exact (run_createPayment.mp h).1
  case quotePayment =>
    obtain ⟨_, hrun, rfl⟩ := run_own.mp h
    exact (run_quotePayment.mp hrun).1
  case markConverted | markSettled | completePayment =>
    obtain ⟨_, hrun, rfl⟩ := run_own.mp h
    exact (run_transitionOperator.mp hrun).1
  case issueReward =>
    obtain ⟨amount, h⟩ := run_void.mp h
    exact (run_issueReward.mp h).1
  case failPayment =>
    obtain ⟨_, hrun, rfl⟩ := run_own.mp h
    exact (run_failPayment.mp hrun).1

/-- What but `pause` and `unpause` goes past the first check finds the engine live. -/
lemma exec_live {e : Entry} (hreads : e.isRead = false) (hpause : e ≠ .pause)
    (hunpause : e ≠ .unpause) (h : (exec clients e).run env s = .ok (u, t)) : s.own.Live := by
  cases hx : e.names with
  | some x => exact (operates_of_names hx h).live
  | none =>
    cases e <;> simp only [Entry.names, Entry.isRead, reduceCtorEq] at hx hreads
    case pause => exact absurd rfl hpause
    case unpause => exact absurd rfl hunpause
    case setAdmin =>
      obtain ⟨_, hrun, rfl⟩ := run_own.mp h
      exact (run_setAdmin.mp hrun).1
    case acceptAdmin =>
      obtain ⟨_, hrun, rfl⟩ := run_own.mp h
      exact (run_acceptAdmin.mp hrun).1
    case setOperator =>
      obtain ⟨_, hrun, rfl⟩ := run_own.mp h
      exact (run_setOperator.mp hrun).1
    case setContracts =>
      obtain ⟨_, hrun, rfl⟩ := run_own.mp h
      exact (run_setContracts.mp hrun).1
    case cancelPayment =>
      obtain ⟨_, hrun, rfl⟩ := run_own.mp h
      exact (run_cancelPayment.mp hrun).1

end Calls

/-! ### The engine as a governed and as a pausable contract -/

section Instances

variable {ω : Type} (clients : Clients ω)

/-- The engine amid the contracts that it calls. -/
def host : Hosted PaymentEngineError (WithPeers Storage ω) Storage Entry
    (OnLedger (WithPeers Storage ω)) (Act Entry) := .amid Deployed (exec clients)

/-- Its flag is `Operator`. -/
def governed : Governed PaymentEngineError (WithPeers Storage ω) Storage Entry
    (OnLedger (WithPeers Storage ω)) (Act Entry) where
  toHosted := host clients
  charter := Storage.charter
  motion := Entry.motion
  names := Entry.names
  deployed := by
    rintro c ⟨env, ⟨adm, registry, rewardEngine, hd⟩, -⟩
    obtain ⟨-, hown⟩ := run_constructor.mp hd
    refine ⟨adm, ?_⟩
    show c.state.own.charter = _
    rw [hown, charter_publish, charter_setOperator]
    refine Charter.ext rfl rfl ?_
    funext x
    by_cases hx : x = adm
    · simp [hx]
    · simp [hx, Storage.charter, Storage.isOperator]
  turn _ _ _ _ h := exec_charter h
  gated _ _ _ _ _ hx h := ⟨(operates_of_names hx h).auth, (operates_of_names hx h).enabled⟩

def pausable : Pausable PaymentEngineError (WithPeers Storage ω) Storage Entry
    (OnLedger (WithPeers Storage ω)) (Act Entry) where
  toHosted := host clients
  paused := Storage.isPaused
  admin := Storage.admin
  rest s := { s with paused := none, events := [] }
  pause := .pause
  unpause := .unpause
  reads := Entry.isRead
  blocked := by
    intro env e s t hpaused hreads hpause hunpause h
    have hlive := exec_live hreads hpause hunpause h
    have hnot : s.own.isPaused = true := hpaused
    rw [hlive.2] at hnot
    cases hnot
  read _ _ _ _ hreads h := eq_of_isRead hreads h
  toggled := by
    rintro env e s t (rfl | rfl) h
    · obtain ⟨_, hrun, rfl⟩ := run_own.mp h
      obtain ⟨adm, hadm, hauth, rfl⟩ := run_pause.mp hrun
      exact ⟨⟨adm, hadm, hauth⟩, rfl, by simp [host, Hosted.amid, Storage.isPaused, Storage.publish]⟩
    · obtain ⟨_, hrun, rfl⟩ := run_own.mp h
      obtain ⟨adm, hadm, hauth, rfl⟩ := run_unpause.mp hrun
      exact ⟨⟨adm, hadm, hauth⟩, rfl, by simp [host, Hosted.amid, Storage.isPaused, Storage.publish]⟩

end Instances

end PayEra.PaymentEngine
