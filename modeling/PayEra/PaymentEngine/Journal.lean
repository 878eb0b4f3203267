import PayEra.Lib.Journal
import PayEra.PaymentEngine.Lifecycle
import PayEra.PaymentEngine.Roles

/-!
# The log of the payment engine

What the events of the engine tell: every payment with its payer, its amounts in paise and in USDC, its
reward and its status, who operates, who administers, the reward engine, and whether the engine is paused.
Of a payment, the merchant, the asset and its amount, the network fee, the hashes, the reward's identifier
and the ledgers are not in the log; neither is the registry.
-/

namespace PayEra.PaymentEngine

open Soroban Soroban.Call

/-- What a reader of the log knows of a payment. -/
structure PaymentView where
  payer : Address
  amountInPaise : I128
  usdcAmount : I128
  starReward : I128
  status : PaymentStatus
  deriving DecidableEq

def PaymentRecord.view (r : PaymentRecord) : PaymentView :=
  ⟨r.payer, r.amountInPaise, r.usdcAmount, r.starReward, r.status⟩

/-- What an event says of its payment. The amount is that of the payment, of the quote or of the
reward, by the action. -/
def PaymentView.apply (action : Action) (actor : Address) (status : PaymentStatus) (amount : I128) :
    Option PaymentView → Option PaymentView
  | none => some ⟨actor, amount, 0, 0, status⟩
  | some p =>
    match action with
    | .quoted => some { p with usdcAmount := amount, status }
    | .reward | .rewarderr => some { p with starReward := amount, status }
    | _ => some { p with status }

@[ext] structure View where
  initialized : Bool
  paused : Bool
  admin : Option Address
  pendingAdmin : Option Address
  rewardEngine : Option Address
  operator : Address → Bool
  payment : Bytes32 → Option PaymentView

namespace View

def blank : View := ⟨false, false, none, none, none, fun _ => false, fun _ => none⟩

def setOperator (v : View) (operator : Address) (flag : Bool) : View :=
  { v with operator := Function.update v.operator operator flag }

def handOver (v : View) (old pending : Address) : View :=
  let revoked := if old ≠ pending then v.setOperator old false else v
  ({ revoked with admin := some pending, pendingAdmin := none }).setOperator pending true

def apply (v : View) : Event → View
  | .payment action paymentId actor status amount =>
    let told := PaymentView.apply action actor status amount (v.payment paymentId)
    { v with payment := Function.update v.payment paymentId told }
  | .config .init account counterparty _ =>
    ({ v with initialized := true, paused := false, admin := some account
              rewardEngine := some counterparty }).setOperator account true
  | .config .admProp _ counterparty _ => { v with pendingAdmin := some counterparty }
  | .config .admin account counterparty _ => v.handOver account counterparty
  | .config .pause _ _ _ => { v with paused := true }
  | .config .unpause _ _ _ => { v with paused := false }
  | .config .operator account _ flag => v.setOperator account flag
  | .config .config _ counterparty _ => { v with rewardEngine := some counterparty }

end View

/-- What the log is to tell of the storage. -/
def Storage.view (s : Storage) : View where
  initialized := s.isInitialized
  paused := s.isPaused
  admin := s.admin
  pendingAdmin := s.pendingAdmin
  rewardEngine := s.rewardEngine
  operator := s.isOperator
  payment id := (s.payment id).map PaymentRecord.view

section Writes

variable {s : Storage} {r r' : PaymentRecord} {id : Bytes32} {action : Action} {actor : Address}
  {status : PaymentStatus} {amount : I128}

@[simp] lemma view_publish (s : Storage) (e : Event) : (s.publish e).view = s.view := rfl

lemma view_setOperator (s : Storage) (operator : Address) (flag : Bool) :
    (s.setOperator operator flag).view = s.view.setOperator operator flag :=
  View.ext rfl rfl rfl rfl rfl (getD_update s.operator operator flag) rfl

lemma view_handOver (s : Storage) (old pending : Address) :
    (s.handOver old pending).view = s.view.handOver old pending := by
  have hrevoked : (if old ≠ pending then s.setOperator old false else s).view =
      if old ≠ pending then s.view.setOperator old false else s.view := by
    split_ifs
    · exact view_setOperator s old false
    · rfl
  rw [Storage.handOver, View.handOver, view_setOperator, ← hrevoked]
  rfl

lemma events_handOver (s : Storage) (old pending : Address) :
    (s.handOver old pending).events = s.events := by
  unfold Storage.handOver
  split_ifs <;> rfl

/-- Events were published, and they are what has changed in the view. -/
def Publishes : Storage → Storage → Prop := Soroban.Publishes Storage.events Storage.view View.apply

/-- A write that is followed by its event. -/
lemma publishes_of {m : Storage} {e : Event} (hevents : m.events = s.events)
    (hview : m.view = s.view.apply e) : Publishes s (m.publish e) := by
  refine .of_event ?_ hview
  rw [Storage.publish, hevents]

/-- A record under its own id is written, and the event says what has changed in it. -/
lemma publishes_payment (hid : r'.paymentId = id)
    (hview : some r'.view =
      PaymentView.apply action actor status amount ((s.payment id).map PaymentRecord.view)) :
    Publishes s ((s.writePayment r').publish (.payment action id actor status amount)) := by
  subst hid
  refine publishes_of rfl (View.ext rfl rfl rfl rfl rfl rfl (funext fun x => ?_))
  by_cases hx : x = r'.paymentId
  · simp [Storage.view, Storage.writePayment, View.apply, hx, ← hview]
  · simp [Storage.view, Storage.writePayment, View.apply, hx]

/-- The same, for a record that was there. -/
lemma publishes_update (hkeyed : Keyed s) (hr : s.payment id = some r)
    (hid : r'.paymentId = r.paymentId)
    (hview : some r'.view = PaymentView.apply action actor status amount (some r.view)) :
    Publishes s ((s.writePayment r').publish (.payment action id actor status amount)) := by
  refine publishes_payment (hid.trans (hkeyed id r hr)) ?_
  rw [hview, hr, Option.map_some]

end Writes

section Calls

variable {ω : Type} {clients : Clients ω} {env : Env} {s t : WithPeers Storage ω} {u : Unit}
  {e : Entry}

/-- Whatever the registry and the reward engine do, the engine publishes what it does itself. -/
lemma exec_publishes (hkeyed : Keyed s.own) (h : (exec clients e).run env s = .ok (u, t)) :
    Publishes s.own t.own := by
  cases e with
  | admin | heartbeat | paused | getPayment =>
    rw [eq_of_isRead rfl h]
    exact .refl _
  | setAdmin newAdmin =>
    obtain ⟨_, hrun, rfl⟩ := run_own.mp h
    obtain ⟨-, adm, -, -, rfl⟩ := run_setAdmin.mp hrun
    exact publishes_of rfl rfl
  | acceptAdmin =>
    obtain ⟨_, hrun, rfl⟩ := run_own.mp h
    obtain ⟨-, pending, old, -, -, -, rfl⟩ := run_acceptAdmin.mp hrun
    exact publishes_of (events_handOver s.own old pending) (view_handOver s.own old pending)
  | pause =>
    obtain ⟨_, hrun, rfl⟩ := run_own.mp h
    obtain ⟨adm, -, -, rfl⟩ := run_pause.mp hrun
    exact publishes_of rfl rfl
  | unpause =>
    obtain ⟨_, hrun, rfl⟩ := run_own.mp h
    obtain ⟨adm, -, -, rfl⟩ := run_unpause.mp hrun
    exact publishes_of rfl rfl
  | setOperator operator enabled =>
    obtain ⟨_, hrun, rfl⟩ := run_own.mp h
    obtain ⟨-, adm, -, -, rfl⟩ := run_setOperator.mp hrun
    exact publishes_of rfl (view_setOperator s.own operator enabled)
  | setContracts registry rewardEngine =>
    obtain ⟨_, hrun, rfl⟩ := run_own.mp h
    obtain ⟨-, adm, -, -, rfl⟩ := run_setContracts.mp hrun
    exact publishes_of rfl rfl
  | createPayment =>
    obtain ⟨-, -, hnone, registry, w, -, -, rfl⟩ := run_createPayment.mp h
    refine publishes_payment rfl ?_
    rw [hnone]
    rfl
  | quotePayment =>
    obtain ⟨_, hrun, rfl⟩ := run_own.mp h
    obtain ⟨-, -, r, hr, -, rfl⟩ := run_quotePayment.mp hrun
    exact publishes_update hkeyed hr rfl rfl
  | markConverted =>
    obtain ⟨_, hrun, rfl⟩ := run_own.mp h
    obtain ⟨-, r, hr, -, rfl⟩ := run_transitionOperator.mp hrun
    exact publishes_update hkeyed hr rfl rfl
  | markSettled =>
    obtain ⟨_, hrun, rfl⟩ := run_own.mp h
    obtain ⟨-, r, hr, -, rfl⟩ := run_transitionOperator.mp hrun
    exact publishes_update hkeyed hr rfl rfl
  | issueReward =>
    obtain ⟨amount, h⟩ := run_void.mp h
    obtain ⟨-, r, eng, hr, -, -, -, rfl⟩ := run_issueReward.mp h
    refine publishes_update hkeyed hr rfl ?_
    split_ifs <;> rfl
  | completePayment =>
    obtain ⟨_, hrun, rfl⟩ := run_own.mp h
    obtain ⟨-, r, hr, -, rfl⟩ := run_transitionOperator.mp hrun
    exact publishes_update hkeyed hr rfl rfl
  | cancelPayment =>
    obtain ⟨_, hrun, rfl⟩ := run_own.mp h
    obtain ⟨-, -, r, hr, -, -, rfl⟩ := run_cancelPayment.mp hrun
    exact publishes_update hkeyed hr rfl rfl
  | failPayment =>
    obtain ⟨_, hrun, rfl⟩ := run_own.mp h
    obtain ⟨-, r, hr, -, rfl⟩ := run_failPayment.mp hrun
    exact publishes_update hkeyed hr rfl rfl

lemma keyed_exec (hkeyed : Keyed s.own) (h : (exec clients e).run env s = .ok (u, t)) :
    Keyed t.own := by
  intro id r hr
  rcases exec_effect h with ⟨hsame, -⟩ | ⟨id', r', -, hupd, -⟩
  · rw [hsame] at hr
    exact hkeyed id r hr
  · rw [hupd, update_eq_some] at hr
    rcases hr with ⟨rfl, rfl⟩ | ⟨-, hr⟩
    · rfl
    · exact hkeyed id r hr

end Calls

section Instances

variable {ω : Type} (clients : Clients ω)

/-- The engine with its log in view. -/
def journaled : Journaled PaymentEngineError (WithPeers Storage ω) Storage Entry
    (OnLedger (WithPeers Storage ω)) (Act Entry) Event View where
  toHosted := host clients
  events := Storage.events
  view := Storage.view
  blank := .blank
  apply := View.apply
  kept := Keyed
  deployed := by
    rintro c ⟨env, ⟨admin, registry, rewardEngine, hrun⟩, -⟩
    obtain ⟨-, heq⟩ := run_constructor.mp hrun
    refine ⟨fun id r hr => ?_, ?_⟩
    · change c.state.own.payment id = some r at hr
      rw [heq] at hr
      cases hr
    · change c.state.own.view = c.state.own.events.foldl View.apply .blank
      rw [heq, view_publish, view_setOperator]
      rfl
  turn _ _ _ _ hkeyed h := ⟨keyed_exec hkeyed h, exec_publishes hkeyed h⟩

end Instances

/-- **The log of the payment engine** tells every payment with its status and its amounts, and the
roles. -/
theorem payment_log_tells {ω : Type} (clients : Clients ω) (c : OnLedger (WithPeers Storage ω))
    (h : (journaled clients).system.Reachable c) : (journaled clients).Told c :=
  Journaled.told h

/-- A payment is created and quoted, and fails: the log tells its amounts and its status. -/
theorem payment_log_tells_of_failed_payment :
    ∃ c, (journaled approving).Told c ∧ (((journaled approving).viewAt c).payment (.fill 1)).map
      (fun p => (p.payer, p.amountInPaise.val, p.usdcAmount.val, p.status)) =
        some (⟨2⟩, 5000, 10, .failed) := by
  let env : Env := ⟨7, fun a => decide (a = ⟨1⟩ ∨ a = ⟨2⟩), none, ⟨100⟩⟩
  let c₀ : OnLedger (WithPeers Storage Unit) :=
    ⟨7, ⟨(constructor ⟨1⟩ ⟨101⟩ ⟨102⟩).commit env {}, ()⟩⟩
  have h : (journaled approving).system.Reachable c₀ := .init ⟨env, ⟨⟨1⟩, ⟨101⟩, ⟨102⟩, rfl⟩, rfl⟩
  have h := contractAmid_reachable_call h env
    (.createPayment ⟨1⟩ ⟨2⟩ (.fill 1) (.fill 2) .XLM (.lit 5000) (.fill 3) (.fill 4)) le_rfl
  have h := contractAmid_reachable_call h env
    (.quotePayment ⟨1⟩ (.fill 1) (.lit 10) (.lit 10) (.lit 0)) le_rfl
  have h := contractAmid_reachable_call h env (.failPayment ⟨1⟩ (.fill 1)) le_rfl
  exact ⟨_, payment_log_tells approving _ h, by decide⟩

end PayEra.PaymentEngine
