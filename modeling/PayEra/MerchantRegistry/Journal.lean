import PayEra.Lib.Journal
import PayEra.MerchantRegistry.Lifecycle

/-!
# The log of the merchant registry

What the events of the registry tell: who owns each merchant, its status, who administers, and whether
the registry is paused. The hashes of a merchant are not in the log.
-/

namespace PayEra.MerchantRegistry

open Soroban Soroban.Call

/-- What a reader of the log knows of a merchant. -/
structure MerchantView where
  owner : Address
  status : MerchantStatus
  deriving DecidableEq

def MerchantRecord.view (r : MerchantRecord) : MerchantView := ⟨r.owner, r.status⟩

@[ext] structure View where
  initialized : Bool
  paused : Bool
  admin : Option Address
  pendingAdmin : Option Address
  merchant : Bytes32 → Option MerchantView

namespace View

def blank : View := ⟨false, false, none, none, fun _ => none⟩

/-- What an event says. Every event about a merchant names its owner and its status. -/
def apply (v : View) : Event → View
  | .merchant _ merchantId account status _ =>
    { v with merchant := Function.update v.merchant merchantId (some ⟨account, status⟩) }
  | .config .init account _ _ => { v with initialized := true, paused := false, admin := some account }
  | .config .admProp _ counterparty _ => { v with pendingAdmin := some counterparty }
  | .config .admin _ counterparty _ => { v with admin := some counterparty, pendingAdmin := none }
  | .config .pause _ _ _ => { v with paused := true }
  | .config .unpause _ _ _ => { v with paused := false }

end View

/-- What the log is to tell of the storage. -/
def Storage.view (s : Storage) : View where
  initialized := s.isInitialized
  paused := s.isPaused
  admin := s.admin
  pendingAdmin := s.pendingAdmin
  merchant id := (s.merchant id).map MerchantRecord.view

section Calls

variable {env : Env} {s t : Storage} {u : Unit} {e : Entry} {id : Bytes32} {r : MerchantRecord}

lemma view_writeMerchant (s : Storage) (r : MerchantRecord) (action : Action) (flag : Bool) :
    (s.writeMerchant r).view = s.view.apply (.merchant action r.merchantId r.owner r.status flag) := by
  refine View.ext rfl rfl rfl rfl (funext fun x => ?_)
  by_cases hx : x = r.merchantId
  · simp [Storage.view, Storage.writeMerchant, View.apply, MerchantRecord.view, hx]
  · simp [Storage.view, Storage.writeMerchant, View.apply, hx]

/-- Events were published, and they are what has changed in the view. -/
def Publishes : Storage → Storage → Prop := Soroban.Publishes Storage.events Storage.view View.apply

/-- A write that is followed by its event. -/
lemma publishes_of {m : Storage} {e : Event} (hevents : m.events = s.events)
    (hview : m.view = s.view.apply e) : Publishes s (m.publish e) := by
  refine .of_event ?_ hview
  rw [Storage.publish, hevents]

/-- A record under its own id is written, and the event names what it says now. -/
lemma publishes_merchant (action : Action) (flag : Bool) (hid : r.merchantId = id) :
    Publishes s ((s.writeMerchant r).publish (.merchant action id r.owner r.status flag)) := by
  subst hid
  exact publishes_of rfl (view_writeMerchant s r action flag)

lemma exec_publishes (hkeyed : Keyed s) (h : (exec e).run env s = .ok (u, t)) : Publishes s t := by
  by_cases hread : e.isRead = true
  · rw [eq_of_isRead hread h]
    exact .refl _
  cases e with
  | admin | heartbeat | paused | getMerchant | isApproved => exact absurd rfl hread
  | setAdmin newAdmin =>
    obtain ⟨adm, -, rfl⟩ := run_setAdmin.mp h
    exact publishes_of rfl rfl
  | acceptAdmin =>
    obtain ⟨-, pending, old, -, -, -, rfl⟩ := run_acceptAdmin.mp h
    exact publishes_of rfl rfl
  | pause =>
    obtain ⟨adm, -, -, rfl⟩ := run_pause.mp h
    exact publishes_of rfl rfl
  | unpause =>
    obtain ⟨adm, -, -, rfl⟩ := run_unpause.mp h
    exact publishes_of rfl rfl
  | registerMerchant id owner upiIdHash metadataHash =>
    obtain ⟨adm, -, -, rfl⟩ := run_registerMerchant.mp h
    exact publishes_merchant .regMerch true rfl
  | approveMerchant id =>
    obtain ⟨adm, r, -, hr, -, rfl⟩ := run_approveMerchant.mp h
    exact publishes_merchant (r := { r with status := .approved, updatedLedger := env.ledger })
      .approve true (hkeyed id r hr)
  | suspendMerchant id =>
    obtain ⟨adm, r, -, hr, -, rfl⟩ := run_suspendMerchant.mp h
    exact publishes_merchant (r := { r with status := .suspended, updatedLedger := env.ledger })
      .suspend false (hkeyed id r hr)
  | rejectMerchant id =>
    obtain ⟨adm, r, -, hr, -, rfl⟩ := run_rejectMerchant.mp h
    exact publishes_merchant (r := { r with status := .rejected, updatedLedger := env.ledger })
      .reject false (hkeyed id r hr)
  | updateMetadata id metadataHash =>
    obtain ⟨-, r, hr, -, rfl⟩ := run_updateMetadata.mp h
    exact publishes_merchant (r := { r with metadataHash, updatedLedger := env.ledger })
      .metadata true (hkeyed id r hr)
  | transferOwner id newOwner =>
    obtain ⟨-, r, hr, -, rfl⟩ := run_transferOwner.mp h
    exact publishes_merchant (r := { r with owner := newOwner, updatedLedger := env.ledger })
      .owner true (hkeyed id r hr)

lemma keyed_exec (hkeyed : Keyed s) (h : (exec e).run env s = .ok (u, t)) : Keyed t := by
  intro id r hr
  rcases exec_effect h with ⟨hsame, -⟩ | ⟨id', r', -, hupd⟩
  · rw [hsame] at hr
    exact hkeyed id r hr
  · rw [hupd, update_eq_some] at hr
    rcases hr with ⟨rfl, rfl⟩ | ⟨-, hr⟩
    · rfl
    · exact hkeyed id r hr

end Calls

/-- The registry with its log in view. -/
def journaled : Journaled MerchantRegistryError Storage Storage Entry (OnLedger Storage) (Env × Entry)
    Event View where
  toHosted := host
  events := Storage.events
  view := Storage.view
  blank := .blank
  apply := View.apply
  kept := Keyed
  deployed := by
    rintro c ⟨env, ⟨admin, hrun⟩, -⟩
    obtain ⟨-, heq⟩ := run_constructor.mp hrun
    refine ⟨fun id r hr => ?_, ?_⟩
    · change c.state.merchant id = some r at hr
      rw [heq] at hr
      cases hr
    · change c.state.view = c.state.events.foldl View.apply .blank
      rw [heq]
      rfl
  turn _ _ _ _ hkeyed h := ⟨keyed_exec hkeyed h, exec_publishes hkeyed h⟩

/-- **The log of the registry** tells the owner and the status of every merchant. -/
theorem registry_log_tells (c : OnLedger Storage) (h : journaled.system.Reachable c) :
    journaled.Told c :=
  Journaled.told h

/-- A merchant is registered and approved, and hands its record over. -/
theorem registry_log_tells_of_transferred_merchant :
    ∃ c, journaled.Told c ∧ (journaled.viewAt c).merchant (.fill 1) = some ⟨⟨3⟩, .approved⟩ := by
  let env : Env := ⟨7, fun a => decide (a = ⟨1⟩ ∨ a = ⟨2⟩), none, ⟨100⟩⟩
  have h : system.Reachable ⟨7, (constructor ⟨1⟩).commit env {}⟩ := .init ⟨env, ⟨⟨1⟩, rfl⟩, rfl⟩
  have h := contract_reachable_call h env (.registerMerchant (.fill 1) ⟨2⟩ (.fill 2) (.fill 3)) le_rfl
  have h := contract_reachable_call h env (.approveMerchant (.fill 1)) le_rfl
  have h := contract_reachable_call h env (.transferOwner (.fill 1) ⟨3⟩) le_rfl
  exact ⟨_, registry_log_tells _ h, by decide⟩

end PayEra.MerchantRegistry
