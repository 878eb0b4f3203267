import PayEra.Lib.Governance
import PayEra.MerchantRegistry.Effects

/-!
# The pause of the merchant registry

The registry has an admin and no flags; it is an instance of the pausable contracts, and of the governed
ones.
-/

namespace PayEra.MerchantRegistry

open Soroban Soroban.Call

variable {env : Env} {s t : Storage} {u : Unit}

/-- What but `pause` and `unpause` goes past the first check finds the registry live. -/
lemma exec_live {e : Entry} (hreads : e.isRead = false) (hpause : e ≠ .pause)
    (hunpause : e ≠ .unpause) (h : (exec e).run env s = .ok (u, t)) : s.Live := by
  cases e <;> simp only [Entry.isRead, reduceCtorEq] at hreads
  case pause => exact absurd rfl hpause
  case unpause => exact absurd rfl hunpause
  case setAdmin =>
    obtain ⟨adm, hadm, -⟩ := run_setAdmin.mp h
    exact hadm.live
  case acceptAdmin => exact (run_acceptAdmin.mp h).1
  case registerMerchant =>
    obtain ⟨adm, hadm, -⟩ := run_registerMerchant.mp h
    exact hadm.live
  case approveMerchant =>
    obtain ⟨adm, r, hadm, -⟩ := run_approveMerchant.mp h
    exact hadm.live
  case suspendMerchant =>
    obtain ⟨adm, r, hadm, -⟩ := run_suspendMerchant.mp h
    exact hadm.live
  case rejectMerchant =>
    obtain ⟨adm, r, hadm, -⟩ := run_rejectMerchant.mp h
    exact hadm.live
  case updateMetadata => exact (run_updateMetadata.mp h).1
  case transferOwner => exact (run_transferOwner.mp h).1

/-- The registry with its calls in view. -/
def host : Hosted MerchantRegistryError Storage Storage Entry (OnLedger Storage) (Env × Entry) :=
  .alone Deployed exec

def pausable : Pausable MerchantRegistryError Storage Storage Entry (OnLedger Storage)
    (Env × Entry) where
  toHosted := host
  paused := Storage.isPaused
  admin := Storage.admin
  rest s := { s with paused := none, events := [] }
  pause := .pause
  unpause := .unpause
  reads := Entry.isRead
  blocked := by
    intro env e s t hpaused hreads hpause hunpause h
    have hlive := exec_live hreads hpause hunpause h
    have hnot : s.isPaused = true := hpaused
    rw [hlive.2] at hnot
    cases hnot
  read _ _ _ _ hreads h := eq_of_isRead hreads h
  toggled := by
    rintro env e s t (rfl | rfl) h
    · obtain ⟨adm, hadm, hauth, rfl⟩ := run_pause.mp h
      exact ⟨⟨adm, hadm, hauth⟩, rfl, by simp [host, Hosted.alone, Storage.isPaused, Storage.publish]⟩
    · obtain ⟨adm, hadm, hauth, rfl⟩ := run_unpause.mp h
      exact ⟨⟨adm, hadm, hauth⟩, rfl, by simp [host, Hosted.alone, Storage.isPaused, Storage.publish]⟩

/-! ### The admin's role -/

/-- The registry has no flags of its own; being the admin is the only one. -/
def Storage.charter (s : Storage) : Charter := ⟨s.admin, s.pendingAdmin, fun x => decide (s.admin = some x)⟩

def Entry.motion : Entry → Option Motion
  | .setAdmin newAdmin => some (.propose newAdmin)
  | .acceptAdmin => some .accept
  | _ => none

/-- What a successful call does to the charter. -/
lemma exec_charter {e : Entry} (h : (exec e).run env s = .ok (u, t)) :
    s.charter.Step env.auth e.motion t.charter := by
  cases e with
  | admin | heartbeat | paused | getMerchant | isApproved =>
    rw [eq_of_isRead rfl h]
    exact .still
  | setAdmin newAdmin =>
    obtain ⟨adm, hby, rfl⟩ := run_setAdmin.mp h
    exact .propose newAdmin hby.admin hby.auth
  | acceptAdmin =>
    obtain ⟨-, pending, old, hpending, hauth, hadm, rfl⟩ := run_acceptAdmin.mp h
    have hflag : (fun x => decide (some pending = some x)) =
        Function.update (Function.update s.charter.flag old false) pending true := by
      funext x
      simp only [Storage.charter, hadm, Function.update_apply]
      grind
    have hstep := Charter.Step.accept (c := s.charter) hadm hpending hauth
    rwa [← hflag] at hstep
  | pause =>
    obtain ⟨adm, -, -, rfl⟩ := run_pause.mp h
    exact .still
  | unpause =>
    obtain ⟨adm, -, -, rfl⟩ := run_unpause.mp h
    exact .still
  | registerMerchant =>
    obtain ⟨adm, -, -, rfl⟩ := run_registerMerchant.mp h
    exact .still
  | approveMerchant =>
    obtain ⟨adm, r, -, -, -, rfl⟩ := run_approveMerchant.mp h
    exact .still
  | suspendMerchant =>
    obtain ⟨adm, r, -, -, -, rfl⟩ := run_suspendMerchant.mp h
    exact .still
  | rejectMerchant =>
    obtain ⟨adm, r, -, -, -, rfl⟩ := run_rejectMerchant.mp h
    exact .still
  | updateMetadata =>
    obtain ⟨-, r, -, -, rfl⟩ := run_updateMetadata.mp h
    exact .still
  | transferOwner =>
    obtain ⟨-, r, -, -, rfl⟩ := run_transferOwner.mp h
    exact .still

/-- The registry as a governed contract; no entrypoint names the holder of a flag. -/
def governed : Governed MerchantRegistryError Storage Storage Entry (OnLedger Storage)
    (Env × Entry) where
  toHosted := host
  charter := Storage.charter
  motion := Entry.motion
  names _ := none
  deployed := by
    rintro c ⟨env, ⟨adm, hd⟩, -⟩
    obtain ⟨-, hown⟩ := run_constructor.mp hd
    refine ⟨adm, ?_⟩
    show c.state.charter = _
    rw [hown]
    refine Charter.ext rfl rfl ?_
    funext x
    simp [Storage.charter, Storage.publish, eq_comm]
  turn _ _ _ _ h := exec_charter h
  gated _ _ _ _ _ hx _ := nomatch hx

end PayEra.MerchantRegistry
