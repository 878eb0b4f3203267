import PayEra.Lib.Governance
import PayEra.StarToken.Effects

/-!
# Roles in the STAR token contract

Who is admin, who may mint and who is frozen. `exec_ruled` says once what a call does to that;
with it the contract is an instance of the governed and of the pausable contracts.
-/

namespace PayEra.StarToken

open Soroban Soroban.Call

/-- STAR with its calls in view. -/
def host : Hosted StarTokenError Storage Storage Entry (OnLedger Storage) (Env × Entry) :=
  .alone Deployed exec

def Storage.charter (s : Storage) : Charter := ⟨s.admin, s.pendingAdmin, s.isMinter⟩

def Entry.motion : Entry → Option Motion
  | .setAdmin newAdmin => some (.propose newAdmin)
  | .acceptAdmin => some .accept
  | .setMinter minter enabled => some (.set minter enabled)
  | _ => none

variable {env : Env} {s t : Storage} {u : Unit}

/-! ### What a call does to the roles -/

/-- Same admin and pending admin, same flags. -/
structure SameRoles (s t : Storage) : Prop where
  initialized : t.initialized = s.initialized
  admin : t.admin = s.admin
  pendingAdmin : t.pendingAdmin = s.pendingAdmin
  minter : t.minter = s.minter
  authorized : t.authorized = s.authorized

lemma SameRoles.refl (s : Storage) : SameRoles s s := ⟨rfl, rfl, rfl, rfl, rfl⟩

lemma SameRoles.publish (s : Storage) (e : StarEvent) : SameRoles s (s.publish e) :=
  ⟨rfl, rfl, rfl, rfl, rfl⟩

lemma SameRoles.trans {r : Storage} (h : SameRoles s r) (h' : SameRoles r t) : SameRoles s t :=
  ⟨h'.initialized.trans h.initialized, h'.admin.trans h.admin,
    h'.pendingAdmin.trans h.pendingAdmin, h'.minter.trans h.minter,
    h'.authorized.trans h.authorized⟩

lemma Minted.sameRoles {a : Address} {n : I128} (h : Minted s a n t) : SameRoles s t := by
  obtain ⟨md, supply, next, -, -, -, -, rfl⟩ := h.written
  exact ⟨rfl, rfl, rfl, rfl, rfl⟩

lemma Burned.sameRoles {a : Address} {n : I128} (h : Burned s a n t) : SameRoles s t := by
  obtain ⟨next, supply, -, -, rfl⟩ := h.written
  exact ⟨rfl, rfl, rfl, rfl, rfl⟩

lemma Transferred.sameRoles {a b : Address} {n : I128} {d : Storage}
    (h : Transferred s a b n d t) : SameRoles s t := by
  obtain ⟨next, -, rfl⟩ := h.debit
  obtain ⟨next', -, rfl⟩ := h.credit
  exact ⟨rfl, rfl, rfl, rfl, rfl⟩

lemma Spent.sameRoles {a b : Address} {n : I128} (h : Spent env s a b n t) : SameRoles s t := by
  obtain ⟨v, next, -, -, -, -, rfl⟩ := h.written
  exact ⟨rfl, rfl, rfl, rfl, rfl⟩

lemma SameRoles.isAuthorized (h : SameRoles s t) (x : Address) :
    t.isAuthorized x = s.isAuthorized x := by
  rw [Storage.isAuthorized, Storage.isAuthorized, h.authorized]

lemma SameRoles.isMinter (h : SameRoles s t) (x : Address) : t.isMinter x = s.isMinter x := by
  rw [Storage.isMinter, Storage.isMinter, h.minter]

lemma SameRoles.charter (h : SameRoles s t) : t.charter = s.charter := by
  rw [Storage.charter, Storage.charter, h.admin, h.pendingAdmin]
  congr 1
  funext x
  exact h.isMinter x

/-- What a successful call does to the roles. Only a change of the freeze list goes past the
charter. -/
inductive Ruled (env : Env) (s : Storage) : Entry → Storage → Prop where
  | still {e : Entry} {t : Storage} (he : e.motion = none) (h : SameRoles s t) : Ruled env s e t
  | proposed {adm newAdmin : Address} {t : Storage} (hadm : s.admin = some adm)
      (hauth : env.auth adm = true) (h : SameRoles { s with pendingAdmin := some newAdmin } t) :
      Ruled env s (.setAdmin newAdmin) t
  | accepted {old pending : Address} {t : Storage} (hadm : s.admin = some old)
      (hpending : s.pendingAdmin = some pending) (hauth : env.auth pending = true)
      (h : SameRoles (s.handOver old pending) t) : Ruled env s .acceptAdmin t
  | minterSet {adm minter : Address} {enabled : Bool} {t : Storage} (hadm : s.admin = some adm)
      (hauth : env.auth adm = true)
      (h : SameRoles (if enabled then (s.setMinter minter enabled).setAuthorized minter true
        else s.setMinter minter enabled) t) : Ruled env s (.setMinter minter enabled) t
  | authorizedSet {adm id : Address} {authorize : Bool} {t : Storage} (hadm : s.admin = some adm)
      (hauth : env.auth adm = true) (h : SameRoles (s.setAuthorized id authorize) t) :
      Ruled env s (.setAuthorized id authorize) t

lemma motion_of_isRead {e : Entry} (he : e.isRead = true) : e.motion = none := by
  cases e <;> first | rfl | cases he

theorem exec_ruled {e : Entry} (h : (exec e).run env s = .ok (u, t)) : Ruled env s e t := by
  by_cases hread : e.isRead = true
  · rw [eq_of_isRead hread h]
    exact .still (motion_of_isRead hread) (.refl s)
  cases e <;> simp only [Entry.isRead, not_true_eq_false] at hread
  case setAdmin newAdmin =>
    obtain ⟨-, adm, hadm, hauth, rfl⟩ := run_setAdmin.mp h
    exact .proposed hadm hauth (.publish _ _)
  case acceptAdmin =>
    obtain ⟨-, pending, old, hpending, hauth, hadm, rfl⟩ := run_acceptAdmin.mp h
    exact .accepted hadm hpending hauth (.publish _ _)
  case setFeeBurnConfig enabled bps recipient =>
    obtain ⟨-, adm, -, -, -, rfl⟩ := run_setFeeBurnConfig.mp h
    exact .still rfl ⟨rfl, rfl, rfl, rfl, rfl⟩
  case burnFee a n =>
    obtain ⟨fee, h⟩ := run_void.mp h
    obtain ⟨-, -, -, ⟨-, -, rfl⟩ | ⟨-, -, -, ⟨-, rfl⟩ | ⟨-, m, hm, rfl⟩⟩⟩ := run_burnFee.mp h
    · exact .still rfl (.refl _)
    · exact .still rfl (.refl _)
    · exact .still rfl (hm.sameRoles.trans (.publish _ _))
  case pause =>
    obtain ⟨adm, -, -, rfl⟩ := run_pause.mp h
    exact .still rfl ⟨rfl, rfl, rfl, rfl, rfl⟩
  case unpause =>
    obtain ⟨adm, -, -, rfl⟩ := run_unpause.mp h
    exact .still rfl ⟨rfl, rfl, rfl, rfl, rfl⟩
  case setMinter m enabled =>
    obtain ⟨-, adm, hadm, hauth, rfl⟩ := run_setMinter.mp h
    exact .minterSet hadm hauth (.publish _ _)
  case setAuthorized id authorize =>
    obtain ⟨-, adm, hadm, hauth, rfl⟩ := run_setAuthorized.mp h
    exact .authorizedSet hadm hauth (.publish _ _)
  case mint a n =>
    obtain ⟨-, -, m, hm, rfl⟩ := run_mint.mp h
    exact .still rfl (hm.sameRoles.trans (.publish _ _))
  case mintFromMinter mr a n =>
    obtain ⟨-, -, -, m, hm, rfl⟩ := run_mintFromMinter.mp h
    exact .still rfl (hm.sameRoles.trans (.publish _ _))
  case approve f sp n exp =>
    obtain ⟨-, -, -, -, -, -, rfl⟩ := run_approve.mp h
    exact .still rfl ⟨rfl, rfl, rfl, rfl, rfl⟩
  case transfer f c n =>
    obtain ⟨-, -, d, m, hm, rfl⟩ := run_transfer.mp h
    exact .still rfl (hm.sameRoles.trans (.publish _ _))
  case transferFrom sp f c n =>
    obtain ⟨-, -, r, d, m, hr, hm, rfl⟩ := run_transferFrom.mp h
    exact .still rfl ((hr.sameRoles.trans hm.sameRoles).trans (.publish _ _))
  case burn f n =>
    obtain ⟨-, -, m, hm, rfl⟩ := run_burn.mp h
    exact .still rfl (hm.sameRoles.trans (.publish _ _))
  case burnFrom sp f n =>
    obtain ⟨-, -, r, m, hr, hm, rfl⟩ := run_burnFrom.mp h
    exact .still rfl ((hr.sameRoles.trans hm.sameRoles).trans (.publish _ _))

/-! ### The flags after a call -/

lemma isMinter_setMinter (s : Storage) (id x : Address) (flag : Bool) :
    (s.setMinter id flag).isMinter x = if x = id then flag else s.isMinter x := by
  by_cases h : x = id
  · simp [Storage.isMinter, Storage.setMinter, h]
  · simp [Storage.isMinter, Storage.setMinter, h]

@[simp] lemma isMinter_setAuthorized (s : Storage) (id x : Address) (flag : Bool) :
    (s.setAuthorized id flag).isMinter x = s.isMinter x := rfl

lemma isAuthorized_setAuthorized (s : Storage) (id x : Address) (flag : Bool) :
    (s.setAuthorized id flag).isAuthorized x = if x = id then flag else s.isAuthorized x := by
  by_cases h : x = id
  · simp [Storage.isAuthorized, Storage.setAuthorized, h]
  · simp [Storage.isAuthorized, Storage.setAuthorized, h]

@[simp] lemma isAuthorized_setMinter (s : Storage) (id x : Address) (flag : Bool) :
    (s.setMinter id flag).isAuthorized x = s.isAuthorized x := rfl

lemma isMinter_handOver (s : Storage) (old pending x : Address) :
    (s.handOver old pending).isMinter x =
      if x = pending then true else if x = old then false else s.isMinter x := by
  rw [Storage.handOver, isMinter_setMinter]
  by_cases hx : x = pending
  · rw [if_pos hx, if_pos hx]
  · rw [if_neg hx, if_neg hx]
    by_cases hne : old ≠ pending
    · have h := isMinter_setMinter s old x false
      rw [if_pos hne]
      exact h
    · rw [not_not] at hne
      rw [if_neg (not_not.mpr hne), if_neg (hne ▸ hx)]
      rfl

lemma isAuthorized_handOver (s : Storage) (old pending x : Address) :
    (s.handOver old pending).isAuthorized x =
      if x = pending then true else if x = old then false else s.isAuthorized x := by
  rw [Storage.handOver, isAuthorized_setMinter, isAuthorized_setAuthorized]
  by_cases hx : x = pending
  · rw [if_pos hx, if_pos hx]
  · rw [if_neg hx, if_neg hx]
    by_cases hne : old ≠ pending
    · have h := isAuthorized_setAuthorized s old x false
      rw [if_pos hne]
      exact h
    · rw [not_not] at hne
      rw [if_neg (not_not.mpr hne), if_neg (hne ▸ hx)]
      rfl

@[simp] lemma admin_handOver (s : Storage) (old pending : Address) :
    (s.handOver old pending).admin = some pending := by
  unfold Storage.handOver
  split_ifs <;> rfl

@[simp] lemma pendingAdmin_handOver (s : Storage) (old pending : Address) :
    (s.handOver old pending).pendingAdmin = none := by
  unfold Storage.handOver
  split_ifs <;> rfl

@[simp] lemma initialized_handOver (s : Storage) (old pending : Address) :
    (s.handOver old pending).initialized = s.initialized := by
  unfold Storage.handOver
  split_ifs <;> rfl

/-- A deployed contract stays initialized. -/
lemma Ruled.initialized {e : Entry} (h : Ruled env s e t) : t.initialized = s.initialized := by
  cases h with
  | still _ h => exact h.initialized
  | proposed _ _ h => exact h.initialized
  | accepted _ _ _ h => rw [h.initialized, initialized_handOver]
  | minterSet _ _ h =>
    rw [h.initialized]
    split_ifs <;> rfl
  | authorizedSet _ _ h => exact h.initialized

/-! ### The charter and the pause -/

lemma Ruled.charterStep {e : Entry} (h : Ruled env s e t) :
    s.charter.Step env.auth e.motion t.charter := by
  cases h with
  | still he h =>
    rw [he, h.charter]
    exact .still
  | proposed hadm hauth h =>
    rw [h.charter]
    exact .propose _ hadm hauth
  | @accepted old pending _ hadm hpending hauth h =>
    have heq : (s.handOver old pending).charter = ⟨some pending, none,
        Function.update (Function.update s.isMinter old false) pending true⟩ := by
      ext x
      · simp [Storage.charter]
      · simp [Storage.charter]
      · simp [Storage.charter, isMinter_handOver, Function.update_apply]
    rw [h.charter, heq]
    exact .accept hadm hpending hauth
  | @minterSet adm minter enabled _ hadm hauth h =>
    have heq : (if enabled then (s.setMinter minter enabled).setAuthorized minter true
        else s.setMinter minter enabled).charter =
          { s.charter with flag := Function.update s.isMinter minter enabled } := by
      ext x
      · cases enabled <;> rfl
      · cases enabled <;> rfl
      · cases enabled <;> simp [Storage.charter, isMinter_setMinter, Function.update_apply]
    rw [h.charter, heq]
    exact .set _ _ hadm hauth
  | authorizedSet hadm hauth h =>
    rw [h.charter]
    exact .still

/-- The address whose minter flag an entrypoint asks for. -/
def Entry.names : Entry → Option Address
  | .mintFromMinter minter _ _ => some minter
  | _ => none

/-- STAR is governed: its flag is `Minter`. -/
def governed : Governed StarTokenError Storage Storage Entry (OnLedger Storage) (Env × Entry) where
  toHosted := host
  charter := Storage.charter
  motion := Entry.motion
  names := Entry.names
  deployed := by
    rintro c ⟨env, ⟨adm, name, symbol, cap, hd⟩, -⟩
    obtain ⟨-, -, hown⟩ := run_constructor.mp hd
    refine ⟨adm, ?_⟩
    show c.state.charter = _
    rw [hown]
    ext x
    · rfl
    · rfl
    · show Storage.isMinter _ x = decide (x = adm)
      rw [(SameRoles.publish _ _).isMinter, isMinter_setMinter]
      by_cases hx : x = adm
      · simp [hx]
      · simp [hx, Storage.isMinter, Storage.setAuthorized]
  turn _ _ _ _ h := (exec_ruled h).charterStep
  gated := by
    intro env e x s t hx h
    cases e <;> simp only [Entry.names, Option.some.injEq, reduceCtorEq] at hx
    case mintFromMinter minter a n =>
      obtain ⟨-, hauth, hminter, -⟩ := run_mintFromMinter.mp h
      rw [← hx]
      exact ⟨hauth, hminter⟩

/-- What but `pause` and `unpause` goes past the first check finds STAR live. -/
lemma exec_live {e : Entry} (hreads : e.isRead = false) (hpause : e ≠ .pause)
    (hunpause : e ≠ .unpause) (h : (exec e).run env s = .ok (u, t)) : s.Live := by
  cases e <;> simp only [Entry.isRead, reduceCtorEq] at hreads
  case setAdmin => exact (run_setAdmin.mp h).1
  case acceptAdmin => exact (run_acceptAdmin.mp h).1
  case setFeeBurnConfig => exact (run_setFeeBurnConfig.mp h).1
  case burnFee =>
    obtain ⟨fee, h⟩ := run_void.mp h
    exact (run_burnFee.mp h).1
  case pause => exact absurd rfl hpause
  case unpause => exact absurd rfl hunpause
  case setMinter => exact (run_setMinter.mp h).1
  case setAuthorized => exact (run_setAuthorized.mp h).1
  case mint => exact (run_mint.mp h).1
  case mintFromMinter => exact (run_mintFromMinter.mp h).1
  case approve => exact (run_approve.mp h).1
  case transfer => exact (run_transfer.mp h).1
  case transferFrom => exact (run_transferFrom.mp h).1
  case burn => exact (run_burn.mp h).1
  case burnFrom => exact (run_burnFrom.mp h).1

def pausable : Pausable StarTokenError Storage Storage Entry (OnLedger Storage) (Env × Entry) where
  toHosted := host
  paused := Storage.isPaused
  admin := Storage.admin
  rest s := { s with paused := none, events := [] }
  pause := .pause
  unpause := .unpause
  reads := Entry.isRead
  blocked := by
    intro env e s t hpaused hreads hpause hunpause h
    have hlive := exec_live hreads hpause hunpause h
    have hnot : s.isPaused = true := hpaused
    rw [hlive.2] at hnot
    cases hnot
  read _ _ _ _ hreads h := eq_of_isRead hreads h
  toggled := by
    rintro env e s t (rfl | rfl) h
    · obtain ⟨adm, hadm, hauth, rfl⟩ := run_pause.mp h
      exact ⟨⟨adm, hadm, hauth⟩, rfl, by simp [host, Hosted.alone, Storage.isPaused, Storage.publish]⟩
    · obtain ⟨adm, hadm, hauth, rfl⟩ := run_unpause.mp h
      exact ⟨⟨adm, hadm, hauth⟩, rfl, by simp [host, Hosted.alone, Storage.isPaused, Storage.publish]⟩

end PayEra.StarToken
