import PayEra.Lib.Journal
import PayEra.StarToken.Conservation

/-!
# The log of STAR

What the events of the contract tell: the balances, the supply and its cap, who is frozen, who mints,
who administers, the fee, and whether the contract is paused. Allowances are not in the log, since a
transfer does not say whose allowance it used.
-/

namespace PayEra.StarToken

open Soroban Soroban.Call

/-- What a reader of the log knows. -/
@[ext] structure View where
  initialized : Bool
  paused : Bool
  admin : Option Address
  pendingAdmin : Option Address
  maxSupply : Option ℤ
  authorized : Address → Bool
  minter : Address → Bool
  balance : Address → ℤ
  totalSupply : ℤ
  /-- Whether fees are burned, the basis points and the recipient. -/
  feeBurn : Option (Bool × ℤ × Address)

namespace View

def blank : View where
  initialized := false
  paused := false
  admin := none
  pendingAdmin := none
  maxSupply := none
  authorized _ := true
  minter _ := false
  balance _ := 0
  totalSupply := 0
  feeBurn := none

def credit (v : View) (id : Address) (amount : ℤ) : View :=
  { v with balance := Function.update v.balance id (v.balance id + amount) }

def supply (v : View) (amount : ℤ) : View := { v with totalSupply := v.totalSupply + amount }

def setAuthorized (v : View) (id : Address) (flag : Bool) : View :=
  { v with authorized := Function.update v.authorized id flag }

def setMinter (v : View) (id : Address) (flag : Bool) : View :=
  { v with minter := Function.update v.minter id flag }

def handOver (v : View) (oldAdmin pending : Address) : View :=
  let revoked := if oldAdmin ≠ pending then
    (v.setMinter oldAdmin false).setAuthorized oldAdmin false else v
  (({ revoked with admin := some pending, pendingAdmin := none }).setAuthorized pending
    true).setMinter pending true

/-- What an event says, by its action. -/
def apply (v : View) (e : StarEvent) : View :=
  match e.action with
  | .init =>
    (({ v with initialized := true, paused := false, admin := some e.account
               maxSupply := some e.amount.val, totalSupply := 0 }).setAuthorized e.account
      true).setMinter e.account true
  | .admProp => { v with pendingAdmin := some e.counterparty }
  | .admin => v.handOver e.account e.counterparty
  | .feeburn => { v with feeBurn := some (e.flag, e.amount.val, e.counterparty) }
  | .burnfee | .burn => (v.credit e.account (-e.amount.val)).supply (-e.amount.val)
  | .pause => { v with paused := true }
  | .unpause => { v with paused := false }
  | .minter =>
    if e.flag then (v.setMinter e.account true).setAuthorized e.account true
    else v.setMinter e.account false
  | .auth => v.setAuthorized e.account e.flag
  | .mint => (v.credit e.counterparty e.amount.val).supply e.amount.val
  | .approve => v
  | .transfer => (v.credit e.account (-e.amount.val)).credit e.counterparty e.amount.val

end View

/-- What the log is to tell of the storage. -/
def Storage.view (s : Storage) : View where
  initialized := s.isInitialized
  paused := s.isPaused
  admin := s.admin
  pendingAdmin := s.pendingAdmin
  maxSupply := s.metadata.map (·.maxSupply.val)
  authorized := s.isAuthorized
  minter := s.isMinter
  balance id := (s.readBalance id).val
  totalSupply := s.readTotalSupply.val
  feeBurn := s.feeBurnConfig.map fun config =>
    (config.enabled, (config.feeBasisPoints.toNat : ℤ), config.feeRecipient)

/-! ### Writes, as the log shows them -/

section Writes

variable {s t : Storage} {id : Address}

@[simp] lemma view_publish (s : Storage) (e : StarEvent) : (s.publish e).view = s.view := rfl

@[simp] lemma view_setAllowance (s : Storage) (a b : Address) (v : AllowanceValue) :
    (s.setAllowance a b v).view = s.view := rfl

/-- A flag with a default, after one of them was written. -/
lemma getD_update_default (f : Address → Option Bool) (a : Address) (b d : Bool) :
    (fun x => (Function.update f a (some b) x).getD d) =
      Function.update (fun x => (f x).getD d) a b := by
  funext x
  by_cases hx : x = a
  · simp [hx]
  · simp [hx]

@[simp] lemma view_setAuthorized (s : Storage) (id : Address) (flag : Bool) :
    (s.setAuthorized id flag).view = s.view.setAuthorized id flag :=
  View.ext rfl rfl rfl rfl rfl (getD_update_default s.authorized id flag true) rfl rfl rfl rfl

@[simp] lemma view_setMinter (s : Storage) (id : Address) (flag : Bool) :
    (s.setMinter id flag).view = s.view.setMinter id flag :=
  View.ext rfl rfl rfl rfl rfl rfl (getD_update_default s.minter id flag false) rfl rfl rfl

lemma view_setBalance {next : I128} (amount : ℤ) (h : next.val = (s.readBalance id).val + amount) :
    (s.setBalance id next).view = s.view.credit id amount := by
  refine View.ext rfl rfl rfl rfl rfl rfl rfl (funext fun x => ?_) rfl rfl
  by_cases hx : x = id
  · simp [Storage.view, Storage.setBalance, Storage.readBalance, View.credit, hx, h]
  · simp [Storage.view, Storage.setBalance, Storage.readBalance, View.credit, hx]

lemma view_setTotalSupply {supply : I128} (amount : ℤ)
    (h : supply.val = s.readTotalSupply.val + amount) :
    (s.setTotalSupply supply).view = s.view.supply amount :=
  View.ext rfl rfl rfl rfl rfl rfl rfl rfl h rfl

lemma view_handOver (s : Storage) (oldAdmin pending : Address) :
    (s.handOver oldAdmin pending).view = s.view.handOver oldAdmin pending := by
  have hrevoked : (if oldAdmin ≠ pending then
      (s.setMinter oldAdmin false).setAuthorized oldAdmin false else s).view =
      if oldAdmin ≠ pending then
        (s.view.setMinter oldAdmin false).setAuthorized oldAdmin false else s.view := by
    split_ifs
    · rw [view_setAuthorized, view_setMinter]
    · rfl
  rw [Storage.handOver, View.handOver, view_setMinter, view_setAuthorized, ← hrevoked]
  rfl

variable {env : Env} {amount : I128} {a b : Address} {m d : Storage}

lemma view_transferred (h : Transferred s a b amount d m) :
    m.view = (s.view.credit a (-amount.val)).credit b amount.val := by
  obtain ⟨next, hnext, rfl⟩ := h.debit
  obtain ⟨next', hnext', rfl⟩ := h.credit
  rw [view_setBalance _ hnext', view_setBalance (-amount.val)]
  rw [hnext, sub_eq_add_neg]

lemma view_burned (h : Burned s a amount m) :
    m.view = (s.view.credit a (-amount.val)).supply (-amount.val) := by
  obtain ⟨next, supply, hnext, hsupply, rfl⟩ := h.written
  rw [view_setTotalSupply (-amount.val), view_setBalance (-amount.val)]
  · rw [hnext, sub_eq_add_neg]
  · rw [hsupply, sub_eq_add_neg]
    rfl

lemma view_minted (h : Minted s a amount m) :
    m.view = (s.view.credit a amount.val).supply amount.val := by
  obtain ⟨md, supply, next, -, hsupply, -, hnext, rfl⟩ := h.written
  rw [view_setTotalSupply amount.val, view_setBalance _ hnext]
  exact hsupply

lemma view_spent (h : Spent env s a b amount m) : m.view = s.view := by
  obtain ⟨v, next, -, -, -, -, rfl⟩ := h.written
  rfl

/-! ### Events -/

@[simp] lemma events_publish (s : Storage) (e : StarEvent) :
    (s.publish e).events = s.events ++ [e] := rfl

lemma events_transferred (h : Transferred s a b amount d m) : m.events = s.events := by
  obtain ⟨next, -, rfl⟩ := h.debit
  obtain ⟨next', -, rfl⟩ := h.credit
  rfl

lemma events_burned (h : Burned s a amount m) : m.events = s.events := by
  obtain ⟨next, supply, -, -, rfl⟩ := h.written
  rfl

lemma events_minted (h : Minted s a amount m) : m.events = s.events := by
  obtain ⟨md, supply, next, -, -, -, -, rfl⟩ := h.written
  rfl

lemma events_spent (h : Spent env s a b amount m) : m.events = s.events := by
  obtain ⟨v, next, -, -, -, -, rfl⟩ := h.written
  rfl

lemma events_handOver (s : Storage) (oldAdmin pending : Address) :
    (s.handOver oldAdmin pending).events = s.events := by
  unfold Storage.handOver
  split_ifs <;> rfl

end Writes

/-! ### The contract -/

/-- Events were published, and they are what has changed in the view. -/
def Publishes : Storage → Storage → Prop := Soroban.Publishes Storage.events Storage.view View.apply

/-- A write that is followed by its event. -/
lemma publishes_of {s m : Storage} {e : StarEvent} (hevents : m.events = s.events)
    (hview : m.view = s.view.apply e) : Publishes s (m.publish e) := by
  refine .of_event ?_ hview
  rw [events_publish, hevents]

/-- Every entrypoint publishes what it does; the fee of an amount that is too small does nothing. -/
lemma exec_publishes {env : Env} {s t : Storage} {u : Unit} {e : Entry}
    (h : (exec e).run env s = .ok (u, t)) : Publishes s t := by
  by_cases hread : e.isRead = true
  · rw [eq_of_isRead hread h]
    exact .refl s
  cases e <;> simp only [Entry.isRead, not_true_eq_false] at hread
  case setAdmin newAdmin =>
    obtain ⟨-, adm, -, -, rfl⟩ := run_setAdmin.mp h
    exact publishes_of rfl rfl
  case acceptAdmin =>
    obtain ⟨-, pending, old, -, -, -, rfl⟩ := run_acceptAdmin.mp h
    exact publishes_of (events_handOver s old pending) (view_handOver s old pending)
  case setFeeBurnConfig enabled bps recipient =>
    obtain ⟨-, adm, -, -, -, rfl⟩ := run_setFeeBurnConfig.mp h
    exact publishes_of rfl rfl
  case burnFee a n =>
    obtain ⟨fee, h⟩ := run_void.mp h
    obtain ⟨-, -, -, ⟨-, -, rfl⟩ | ⟨-, -, -, ⟨-, rfl⟩ | ⟨-, m, hm, rfl⟩⟩⟩ := run_burnFee.mp h
    · exact .refl t
    · exact .refl t
    · exact publishes_of (events_burned hm) (view_burned hm)
  case pause =>
    obtain ⟨adm, -, -, rfl⟩ := run_pause.mp h
    exact publishes_of rfl rfl
  case unpause =>
    obtain ⟨adm, -, -, rfl⟩ := run_unpause.mp h
    exact publishes_of rfl rfl
  case setMinter a enabled =>
    obtain ⟨-, adm, -, -, rfl⟩ := run_setMinter.mp h
    cases enabled with
    | true => exact publishes_of rfl (by simp [View.apply])
    | false => exact publishes_of rfl (by simp [View.apply])
  case setAuthorized a authorize =>
    obtain ⟨-, adm, -, -, rfl⟩ := run_setAuthorized.mp h
    exact publishes_of rfl (view_setAuthorized s a authorize)
  case mint a n =>
    obtain ⟨-, -, m, hm, rfl⟩ := run_mint.mp h
    exact publishes_of (events_minted hm) (view_minted hm)
  case mintFromMinter minter a n =>
    obtain ⟨-, -, -, m, hm, rfl⟩ := run_mintFromMinter.mp h
    exact publishes_of (events_minted hm) (view_minted hm)
  case approve a b n expiration =>
    obtain ⟨-, -, -, -, -, -, rfl⟩ := run_approve.mp h
    exact publishes_of rfl rfl
  case transfer a b n =>
    obtain ⟨-, -, d, m, hm, rfl⟩ := run_transfer.mp h
    exact publishes_of (events_transferred hm) (view_transferred hm)
  case transferFrom spender a b n =>
    obtain ⟨-, -, r, d, m, hr, hm, rfl⟩ := run_transferFrom.mp h
    refine publishes_of ((events_transferred hm).trans (events_spent hr)) ?_
    rw [view_transferred hm, view_spent hr]
    rfl
  case burn a n =>
    obtain ⟨-, -, m, hm, rfl⟩ := run_burn.mp h
    exact publishes_of (events_burned hm) (view_burned hm)
  case burnFrom spender a n =>
    obtain ⟨-, -, r, m, hr, hm, rfl⟩ := run_burnFrom.mp h
    refine publishes_of ((events_burned hm).trans (events_spent hr)) ?_
    rw [view_burned hm, view_spent hr]
    rfl

/-- STAR with its log in view. -/
def journaled : Journaled StarTokenError Storage Storage Entry (OnLedger Storage) (Env × Entry)
    StarEvent View where
  toHosted := .alone Deployed exec
  events := Storage.events
  view := Storage.view
  blank := .blank
  apply := View.apply
  kept _ := True
  deployed := by
    rintro c ⟨env, ⟨admin, name, symbol, maxSupply, hrun⟩, -⟩
    obtain ⟨-, -, heq⟩ := run_constructor.mp hrun
    refine ⟨trivial, ?_⟩
    change c.state.view = c.state.events.foldl View.apply .blank
    rw [heq, view_publish, view_setMinter, view_setAuthorized]
    rfl
  turn _ _ _ _ _ h := ⟨trivial, exec_publishes h⟩

/-- **The log of STAR** tells the balances, the supply, the roles and the settings of the contract. -/
theorem star_log_tells (c : OnLedger Storage) (h : journaled.system.Reachable c) : journaled.Told c :=
  Journaled.told h

/-- STAR was minted for account 7, and the log says so. -/
theorem star_log_tells_of_minted :
    (journaled.replay sampleMinted.events).balance ⟨7⟩ = 40 ∧
      journaled.Told (⟨6, sampleMinted⟩ : OnLedger Storage) := by
  have h := contract_reachable_call sampleDeployed_reachable (sampleEnv 6) (.mint ⟨7⟩ (.lit 40))
    (by decide)
  exact ⟨rfl, star_log_tells _ h⟩

end PayEra.StarToken
