import PayEra.Api.Forgery
import PayEra.Api.WalletEffects

/-!
# Users who were suspended or deleted

A user is shut out by one of four requests until an admin makes it active again. Four requests let it
back in without an admin: a login with one of its wallets, a refresh, a demo login, and the update to
`ACTIVE` of a wallet that was revoked since, even if it was disconnected in between.
-/

namespace PayEra.Api.Accounts

open Transition

/-! ### Shutting a user out -/

section Requests

variable (lib : Libraries) (x : Chance)

/-- The user whom a request suspends or deletes, once it succeeds. -/
def disabling : AccountRequest → Option String
  | .account (.suspend _ id) | .account (.softDelete _ id) => some id
  | .account (.deleteAccount bearer) =>
    (caller lib x (.account (.deleteAccount bearer))).map Principal.id
  | .updateUserStatus _ id status => if status = .SUSPENDED ∨ status = .DELETED then some id else none
  | _ => none

/-- The user whom an admin makes active by a request, once it succeeds. -/
def reactivating : AccountRequest → Option String
  | .account (.activate _ id) => some id
  | .account (.update _ id dto) => if dto.status = some .ACTIVE then some id else none
  | .updateUserStatus _ id status => if status = .ACTIVE then some id else none
  | _ => none

/-- A refresh with a token of the user `id` is answered by new tokens. -/
structure Refreshes (token : String) (d : Server) (id : String) : Prop where
  finds : ∃ user hashed, Finds lib x token d user hashed ∧ user.id = id ∧
    lib.compare token hashed = true
  verifies : (lib.verify .refresh x.now token).isSome

/-- A way back in for the user `id`, past the admins; `K` holds of the wallets that are to stay
inactive. -/
inductive Readmits (production : Bool) (K : String → Prop) (d : Server) (id : String) :
    AccountRequest → Prop where
  | login (dto : WalletLoginDto) (wallet : UserWallet) (holds : d.holds dto.nonce x.now = true)
      (signed : AuthService.isValidSignature lib dto = .ok true)
      (known : d.findWallet dto.network (AuthService.normalizeWalletAddress lib dto.address) =
        some wallet) (owner : wallet.userId = id) (found : (d.findUser id).isSome) :
      Readmits production K d id (.account (.walletLogin dto))
  | refresh (token : String) (h : Refreshes lib x token d id) :
      Readmits production K d id (.account (.refresh token))
  | demo (dto : MockLoginDto) (user : User) (outside : production = false)
      (given : ¬(dto.email = none ∧ dto.phoneE164 = none))
      (found : AuthService.findContact lib x dto d = some user) (hid : user.id = id) :
      Readmits production K d id (.demoLogin dto)
  | wallet (bearer : String) (dto : UpdateWalletDto) (owner : Principal) (w : UserWallet)
      (hcaller : caller lib x (.updateWallet bearer w.id dto) = some owner)
      (may : WalletsService.mayAccess owner w.userId = true) (active : dto.status = some .ACTIVE)
      (mem : w ∈ d.wallets) (huser : w.userId = id) (revoked : K w.id) :
      Readmits production K d id (.updateWallet bearer w.id dto)

end Requests

/-- Requests one after the other; the ids of wallets are unique, and new ones are fresh. -/
def accounts (lib : Libraries) (production : Bool) : System Server (AccountRequest × Chance) where
  Init d := (d.wallets.map UserWallet.id).Nodup
  Step d l d' := l.2.walletId ∉ d.wallets.map UserWallet.id ∧
    d' = (handle lib l.2 production l.1 d).1

section Moves

variable (lib : Libraries) (production : Bool)

def Succeeds (m : AccountMove) : Prop :=
  ∃ a, (handle lib m.label.2 production m.label.1 m.pre).2 = .ok a

/-- The request suspends or deletes the user. -/
def Disables (m : AccountMove) (id : String) : Prop :=
  disabling lib m.label.2 m.label.1 = some id ∧ Succeeds lib production m

/-- The request of an admin makes the user active. -/
def Reactivates (m : AccountMove) (id : String) : Prop :=
  reactivating m.label.1 = some id ∧ Succeeds lib production m

/-- The user has been suspended or deleted, and not been made active since. -/
def ShutOut (tr : List AccountMove) (id : String) : Prop :=
  ∃ tr₁ m tr₂, tr = tr₁ ++ m :: tr₂ ∧ Disables lib production m id ∧
    ∀ m' ∈ tr₂, ¬Reactivates lib production m' id

/-- The user has been suspended or deleted, and not been made active since; and at the end of that
request or of a later one the wallet of this id was the user's, and revoked. -/
def RevokedSince (tr : List AccountMove) (id walletId : String) : Prop :=
  ∃ tr₁ m tr₂, tr = tr₁ ++ m :: tr₂ ∧ Disables lib production m id ∧
    (∀ m' ∈ tr₂, ¬Reactivates lib production m' id) ∧
      ∃ m' ∈ m :: tr₂, ∃ w ∈ m'.post.wallets, w.id = walletId ∧ w.userId = id ∧ w.status = .REVOKED

end Moves

/-! ### What stays as it is -/

/-- No row of the user is active. -/
def Dormant (id : String) (users : List User) : Prop :=
  ∀ u ∈ users, u.id = id → u.status ≠ .ACTIVE

/-- None of these wallets of the user is active. -/
def Inactive (K : String → Prop) (id : String) (wallets : List UserWallet) : Prop :=
  ∀ w ∈ wallets, w.userId = id → K w.id → w.status ≠ .ACTIVE

/-- Neither the user nor its wallets are active. -/
structure Asleep (K : String → Prop) (id : String) (d : Server) : Prop where
  status : Dormant id d.users
  wallets : Inactive K id d.wallets

/-- The user gets no token, and afterwards it is not active, and none of these wallets of it is. -/
structure Undisturbed (K : String → Prop) (id : String) (d d' : Server) : Prop extends Asleep K id d' where
  tokens : ∀ new, d'.issued = d.issued ++ new → ∀ t ∈ new, t.payload.sub ≠ id

/-- While the user is shut out, nothing but an admin disturbs it: it gets no token, it is not active, and no
wallet that was revoked since is. -/
def Effective (lib : Libraries) (production : Bool) (tr : List AccountMove) (id : String) : Prop :=
  ∀ tr₁ m tr₂, tr = tr₁ ++ m :: tr₂ → ShutOut lib production tr₁ id →
    ¬Reactivates lib production m id →
      Undisturbed (RevokedSince lib production tr₁ id) id m.pre m.post

section Lemmas

variable {lib : Libraries} {x : Chance} {production : Bool} {K : String → Prop} {id : String}
  {d e d' : Server} {f : User → User} {r : AccountRequest}

lemma Dormant.updateUser {k : String} {users : List User} (h : Dormant id users)
    (hid : ∀ u, (f u).id = u.id) (hf : k = id → ∀ u, u.status ≠ .ACTIVE → (f u).status ≠ .ACTIVE) :
    Dormant id (updateWhere (fun u => u.id = k) f users) := by
  intro v hv hvid
  obtain ⟨u, hu, rfl⟩ := List.mem_map.mp hv
  by_cases hk : u.id = k
  · simp only [hk, decide_true, if_true] at hvid ⊢
    have huid : u.id = id := (hid u).symm.trans hvid
    exact hf (hk.symm.trans huid) u (h u hu huid)
  · simp only [hk, decide_false, Bool.false_eq_true, if_false] at hvid ⊢
    exact h u hu hvid

/-- Afterwards no row of the user is active, whatever was before. -/
lemma dormant_updateUser {users : List User} (hf : ∀ u, (f u).status ≠ .ACTIVE) :
    Dormant id (updateWhere (fun u => u.id = id) f users) := by
  intro v hv hvid
  obtain ⟨u, hu, rfl⟩ := List.mem_map.mp hv
  by_cases hk : u.id = id
  · simp only [hk, decide_true, if_true]
    exact hf u
  · simp only [hk, decide_false, Bool.false_eq_true, if_false] at hvid

lemma Dormant.append {users : List User} {u : User} (h : Dormant id users) (hu : u.id ≠ id) :
    Dormant id (users ++ [u]) := by
  intro v hv hvid
  rcases List.mem_append.mp hv with hv | hv
  · exact h v hv hvid
  · obtain rfl := List.mem_singleton.mp hv
    exact absurd hvid hu

lemma Inactive.updateWhere {p : UserWallet → Bool} {f : UserWallet → UserWallet}
    {wallets : List UserWallet} (h : Inactive K id wallets)
    (hkeeps : ∀ w, (f w).id = w.id ∧ (f w).userId = w.userId)
    (hf : ∀ w ∈ wallets, p w → w.userId = id → K w.id → w.status ≠ .ACTIVE → (f w).status ≠ .ACTIVE) :
    Inactive K id (updateWhere p f wallets) := by
  intro v hv huser hK
  obtain ⟨w, hw, rfl⟩ := List.mem_map.mp hv
  by_cases hp : p w = true
  · simp only [hp, if_true] at huser hK ⊢
    rw [(hkeeps w).1] at hK
    rw [(hkeeps w).2] at huser
    exact hf w hw hp huser hK (h w hw huser hK)
  · simp only [hp, Bool.false_eq_true, if_false] at huser hK ⊢
    exact h w hw huser hK

lemma Inactive.append {wallets : List UserWallet} {w : UserWallet} (h : Inactive K id wallets)
    (hw : ¬K w.id) : Inactive K id (wallets ++ [w]) := by
  intro v hv huser hK
  rcases List.mem_append.mp hv with hv | hv
  · exact h v hv huser hK
  · obtain rfl := List.mem_singleton.mp hv
    exact absurd hK hw

lemma Inactive.demote {isPrimary : Option Bool} {k : String} (h : Inactive K id d.wallets) :
    Inactive K id (WalletsService.demote isPrimary k d).wallets := by
  rw [WalletsService.demote]
  split_ifs
  · exact h.updateWhere (fun _ => ⟨rfl, rfl⟩) fun _ _ _ _ _ hstatus => hstatus
  · exact h

/-- Wallets that are not primary any more are what they were otherwise. -/
lemma mem_of_mem_demote {isPrimary : Option Bool} {k : String} {v : UserWallet}
    (h : v ∈ (WalletsService.demote isPrimary k d).wallets) :
    ∃ w ∈ d.wallets, w.id = v.id ∧ w.userId = v.userId := by
  rw [demote_wallets] at h
  obtain ⟨w, hw, rfl⟩ := List.mem_map.mp h
  refine ⟨w, hw, ?_⟩
  split_ifs
  · exact ⟨rfl, rfl⟩
  · exact ⟨rfl, rfl⟩

lemma exists_mem_demote {isPrimary : Option Bool} {k : String} {w : UserWallet} (h : w ∈ d.wallets) :
    ∃ v ∈ (WalletsService.demote isPrimary k d).wallets, v.id = w.id ∧ v.userId = w.userId := by
  rw [demote_wallets]
  refine ⟨_, List.mem_map_of_mem h, ?_⟩
  split_ifs
  · exact ⟨rfl, rfl⟩
  · exact ⟨rfl, rfl⟩

/-- A request that gives no tokens. -/
lemma undisturbed_of (hissued : d'.issued = d.issued) (h : Asleep K id d') : Undisturbed K id d d' where
  toAsleep := h
  tokens new hnew t ht := by
    rw [hissued] at hnew
    rw [List.self_eq_append_right.mp hnew] at ht
    cases ht

lemma Undisturbed.refl (h : Asleep K id d) : Undisturbed K id d d := undisturbed_of rfl h

/-- A request that gives no tokens and leaves the wallets. -/
lemma Asleep.of_users (h : Asleep K id d) (hissued : d'.issued = d.issued)
    (hwallets : d'.wallets = d.wallets) (hstatus : Dormant id d'.users) : Undisturbed K id d d' :=
  undisturbed_of hissued ⟨hstatus, hwallets ▸ h.wallets⟩

/-- Tokens for somebody else. -/
lemma undisturbed_generateTokens {k : String} {role : UserRole} {next : Tokens → Server → Outcome}
    (hk : k ≠ id) (hissued : e.issued = d.issued) (h : Asleep K id e)
    (hnext : ∀ auth d, (next auth d).1.users = d.users ∧ (next auth d).1.issued = d.issued ∧
      (next auth d).1.wallets = d.wallets) :
    Undisturbed K id d (AuthService.generateTokens lib x k role e next).1 := by
  simp only [AuthService.generateTokens]
  cases hfind : e.findUser k with
  | none => exact undisturbed_of hissued h
  | some u =>
    refine ⟨⟨?_, ?_⟩, fun new hnew t ht => ?_⟩
    · rw [(hnext _ _).1]
      exact h.status.updateUser (fun _ => rfl) fun heq => absurd heq hk
    · rw [(hnext _ _).2.2]
      exact h.wallets
    · rw [(hnext _ _).2.1, ← hissued] at hnew
      obtain rfl : tokensOf lib x ⟨k, role⟩ = new := List.append_cancel_left hnew
      rw [payload_of_mem_tokensOf ht]
      exact hk

/-! ### What each request does -/

/-- Requests that are turned away disturb nobody. -/
lemma undisturbed_signedIn {next : Principal → Outcome} (h : Asleep K id d)
    (hnext : ∀ a, caller lib x r = some a → Undisturbed K id d (next a).1) :
    Undisturbed K id d (signedIn lib x r d next).1 := by
  rw [signedIn]
  cases ha : caller lib x r with
  | none => exact .refl h
  | some a => exact hnext a ha

/-- A request to the users controller that succeeds, or changes nothing. -/
lemma undisturbed_adminOnly {u : UserRequest} {next : Outcome} (h : Asleep K id d)
    (hserve : serve lib x u d = adminOnly lib x u d next)
    (hnext : serve lib x u d = next → Undisturbed K id d next.1) :
    Undisturbed K id d (serve lib x u d).1 := by
  rw [adminOnly, authenticated] at hserve
  cases ha : principal lib x u with
  | none =>
    simp only [ha] at hserve
    rw [hserve]
    exact .refl h
  | some a =>
    simp only [ha] at hserve
    split_ifs at hserve
    · rw [hserve]
      exact hnext hserve
    · rw [hserve]
      exact .refl h

/-- The update of a row, which makes nobody active. -/
lemma undisturbed_updateRow {k : String} (h : Asleep K id d) (hid : ∀ u, (f u).id = u.id)
    (hf : (∃ a, (UsersService.updateRow k f d).2 = .ok a) → k = id →
      ∀ u, u.status ≠ .ACTIVE → (f u).status ≠ .ACTIVE) :
    Undisturbed K id d (UsersService.updateRow k f d).1 := by
  rcases updateRow_cases k f d with hrow | ⟨u, -, hrow⟩
  · rw [hrow]
    exact .refl h
  · rw [hrow] at hf ⊢
    exact h.of_users rfl rfl (h.status.updateUser hid (hf ⟨_, rfl⟩))

lemma ne_of_free {u : User} (hfound : (d.findUser id).isSome) (h : d.free u = true) : u.id ≠ id := by
  rintro rfl
  simp only [Server.free, Bool.and_eq_true, Option.isNone_iff_eq_none] at h
  rw [h.1.1.1] at hfound
  cases hfound

/-- A wallet is found by its id. -/
lemma eq_of_wallet_id {w w' : UserWallet} (hnodup : (d.wallets.map UserWallet.id).Nodup)
    (hw : w ∈ d.wallets) (hw' : w' ∈ d.wallets) (h : w.id = w'.id) : w = w' :=
  List.inj_on_of_nodup_map hnodup hw hw' h

lemma undisturbed_loginKnown {dto : WalletLoginDto} {wallet : UserWallet} (h : Asleep K id d)
    (hnodup : (d.wallets.map UserWallet.id).Nodup) (hmem : wallet ∈ d.wallets)
    (howner : (d.findUser wallet.userId).isSome → wallet.userId ≠ id) :
    Undisturbed K id d (AuthService.loginKnown lib x dto wallet (d.consume dto.nonce)).1 := by
  rw [AuthService.loginKnown]
  cases hfind : (d.consume dto.nonce).findUser wallet.userId with
  | none => exact h.of_users rfl rfl h.status
  | some before =>
    have hfind' : d.findUser wallet.userId = some before := hfind
    have hne : wallet.userId ≠ id := howner (by rw [hfind']; rfl)
    have hbefore : before.id = wallet.userId := id_of_findUser hfind'
    have hasleep : Asleep K id (((d.consume dto.nonce).updateUser wallet.userId
        (AuthService.loggedIn x)).updateWallets (fun w => w.id = wallet.id) fun w =>
          { w with lastUsedAt := some x.now, status := .ACTIVE }) := by
      refine ⟨h.status.updateUser (f := AuthService.loggedIn x) (fun _ => rfl) fun heq => absurd heq hne,
        h.wallets.updateWhere (fun _ => ⟨rfl, rfl⟩) fun w hw hwid huser _ _ => ?_⟩
      -- the wallet of the login is somebody else's
      rw [eq_of_wallet_id hnodup hw hmem (of_decide_eq_true hwid)] at huser
      exact absurd huser hne
    refine undisturbed_generateTokens ?_ rfl hasleep fun auth d => ⟨rfl, rfl, rfl⟩
    show before.id ≠ id
    rw [hbefore]
    exact hne

lemma undisturbed_loginUnknown {dto : WalletLoginDto} (h : Asleep K id d)
    (hfound : (d.findUser id).isSome) (hfresh : ¬K x.walletId) :
    Undisturbed K id d (AuthService.loginUnknown lib x dto (d.consume dto.nonce)).1 := by
  rw [AuthService.loginUnknown]
  split_ifs with hfree
  · have hne : (AuthService.newUser x dto).id ≠ id := ne_of_free (d := d.consume dto.nonce) hfound hfree
    have hasleep : Asleep K id (((d.consume dto.nonce).createUser (AuthService.newUser x dto)).createWallet
        (AuthService.newWallet lib x dto)) := ⟨h.status.append hne, h.wallets.append hfresh⟩
    exact undisturbed_generateTokens hne rfl hasleep fun auth d => ⟨rfl, rfl, rfl⟩
  · exact h.of_users rfl rfl h.status

lemma undisturbed_walletLogin {dto : WalletLoginDto} (h : Asleep K id d)
    (hnodup : (d.wallets.map UserWallet.id).Nodup) (hfound : (d.findUser id).isSome)
    (hfresh : ¬K x.walletId)
    (hno : ¬Readmits lib x production K d id (.account (.walletLogin dto))) :
    Undisturbed K id d (AuthService.walletLogin lib x dto d).1 := by
  rw [AuthService.walletLogin]
  split_ifs with hholds
  · cases hsigned : AuthService.isValidSignature lib dto with
    | error message => exact h.of_users rfl rfl h.status
    | ok valid =>
      cases valid with
      | false => exact h.of_users rfl rfl h.status
      | true =>
        cases hwallet : (d.consume dto.nonce).findWallet dto.network
            (AuthService.normalizeWalletAddress lib dto.address) with
        | some wallet =>
          simp only [hwallet]
          refine undisturbed_loginKnown h hnodup (List.mem_of_find?_eq_some hwallet) ?_
          intro hsome howner
          exact hno (.login dto wallet hholds hsigned hwallet howner (howner ▸ hsome))
        | none =>
          simp only [hwallet]
          exact undisturbed_loginUnknown h hfound hfresh
  · exact .refl h

lemma undisturbed_refreshToken {token : String} (h : Asleep K id d)
    (hno : ¬Readmits lib x production K d id (.account (.refresh token))) :
    Undisturbed K id d (AuthService.refreshToken lib x token d).1 := by
  rcases refreshToken_cases lib x token d with
    ⟨e, hcase⟩ | ⟨user, hashed, hfinds, hcompare | ⟨hcompare, hverifies⟩⟩
  · rw [hcase]
    exact .refl h
  · rw [hfinds.mismatch hcompare]
    exact h.of_users rfl rfl (h.status.updateUser (fun _ => rfl) fun _ u hu => hu)
  · have hne : user.id ≠ id := fun hid =>
      hno (.refresh token ⟨⟨user, hashed, hfinds, hid, hcompare⟩, hverifies⟩)
    rw [hfinds.accepted hcompare hverifies]
    exact undisturbed_generateTokens hne rfl h fun auth d => ⟨rfl, rfl, rfl⟩

lemma undisturbed_deleteAccount {k : String} (h : Asleep K id d) :
    Undisturbed K id d (UsersService.deleteAccount x k d).1 := by
  rw [UsersService.deleteAccount]
  rcases updateRow_cases k (UsersService.erased x) d with hrow | ⟨u, -, hrow⟩
  · rw [hrow]
    exact .refl h
  · rw [hrow]
    refine undisturbed_of rfl ⟨?_, ?_⟩
    · exact h.status.updateUser (f := UsersService.erased x) (fun _ => rfl) (by simp [UsersService.erased])
    · exact h.wallets.updateWhere (fun _ => ⟨rfl, rfl⟩) (by simp)

lemma undisturbed_softDelete {k : String} (h : Asleep K id d) :
    Undisturbed K id d (UsersService.softDelete x k d).1 := by
  rw [UsersService.softDelete]
  rcases updateRow_cases k (fun u => { u with deletedAt := some x.now, status := .DELETED }) d with
    hrow | ⟨u, -, hrow⟩
  · rw [hrow]
    exact .refl h
  · rw [hrow]
    exact h.of_users rfl rfl (h.status.updateUser (fun _ => rfl) (by simp))

lemma undisturbed_create {dto : CreateUserDto} (h : Asleep K id d)
    (hfound : (d.findUser id).isSome) :
    Undisturbed K id d (UsersService.create lib x dto d).1 := by
  rw [UsersService.create]
  split_ifs with hnone
  · exact .refl h
  · by_cases hfree : d.free (UsersService.newUser lib x dto) = true
    · rw [if_pos hfree]
      exact h.of_users rfl rfl (h.status.append (ne_of_free hfound hfree))
    · rw [if_neg hfree]
      exact .refl h

lemma undisturbed_update {k : String} {dto : UpdateUserDto} (h : Asleep K id d)
    (hre : (∃ a, (UsersService.update lib k dto d).2 = .ok a) → k = id → dto.status ≠ some .ACTIVE) :
    Undisturbed K id d (UsersService.update lib k dto d).1 := by
  rw [UsersService.update] at hre ⊢
  split_ifs at hre ⊢
  · exact .refl h
  · refine undisturbed_updateRow (f := UsersService.updated lib dto) h (fun _ => rfl) fun hok hk => ?_
    have hstatus := hre hok hk
    intro u hu
    show dto.status.getD u.status ≠ .ACTIVE
    cases hdto : dto.status with
    | none => exact hu
    | some status =>
      rintro rfl
      exact hstatus hdto

lemma undisturbed_activate {k : String} (h : Asleep K id d)
    (hre : (∃ a, (UsersService.activate k d).2 = .ok a) → k ≠ id) :
    Undisturbed K id d (UsersService.activate k d).1 :=
  undisturbed_updateRow h (fun _ => rfl) fun hok hk => absurd hk (hre hok)

lemma undisturbed_suspend {k : String} (h : Asleep K id d) :
    Undisturbed K id d (UsersService.suspend k d).1 :=
  undisturbed_updateRow h (fun _ => rfl) (by simp)

/-- The requests to the users controller and the auth controller in production. -/
lemma undisturbed_serve {u : UserRequest} (h : Asleep K id d)
    (hnodup : (d.wallets.map UserWallet.id).Nodup) (hfound : (d.findUser id).isSome)
    (hfresh : ¬K x.walletId) (hno : ¬Readmits lib x production K d id (.account u))
    (hre : reactivating (.account u) = some id → ¬∃ a, (serve lib x u d).2 = .ok a) :
    Undisturbed K id d (serve lib x u d).1 := by
  cases u with
  | mockLogin => exact .refl h
  | walletChallenge dto => exact h.of_users rfl rfl h.status
  | walletLogin dto => exact undisturbed_walletLogin h hnodup hfound hfresh hno
  | refresh token => exact undisturbed_refreshToken h hno
  | deleteAccount bearer =>
    rw [serve, authenticated]
    cases principal lib x (.deleteAccount bearer) with
    | none => exact .refl h
    | some a => exact undisturbed_deleteAccount h
  | create bearer dto => exact undisturbed_adminOnly h rfl fun _ => undisturbed_create h hfound
  | update bearer k dto =>
    refine undisturbed_adminOnly h rfl fun hserve => undisturbed_update h ?_
    rintro hok rfl hstatus
    rw [hserve] at hre
    exact hre (by simp [reactivating, hstatus]) hok
  | activate bearer k =>
    refine undisturbed_adminOnly h rfl fun hserve => undisturbed_activate h ?_
    rintro hok rfl
    rw [hserve] at hre
    exact hre rfl hok
  | suspend bearer k => exact undisturbed_adminOnly h rfl fun _ => undisturbed_suspend h
  | softDelete bearer k => exact undisturbed_adminOnly h rfl fun _ => undisturbed_softDelete h

lemma undisturbed_demoTokens {user : User} (hne : user.id ≠ id) (hissued : e.issued = d.issued)
    (h : Asleep K id e) : Undisturbed K id d (AuthService.demoTokens lib x user e).1 :=
  undisturbed_generateTokens hne hissued h fun auth d => ⟨rfl, rfl, rfl⟩

lemma undisturbed_demoLogin {dto : MockLoginDto} (h : Asleep K id d)
    (hfound : (d.findUser id).isSome) (hno : ¬Readmits lib x false K d id (.demoLogin dto)) :
    Undisturbed K id d (AuthService.demoLogin lib x dto d).1 := by
  rw [AuthService.demoLogin]
  by_cases hnone : dto.email = none ∧ dto.phoneE164 = none
  · rw [if_pos hnone]
    exact .refl h
  · rw [if_neg hnone]
    cases hcontact : AuthService.findContact lib x dto d with
    | some user =>
      have hne : user.id ≠ id := fun heq => hno (.demo dto user rfl hnone hcontact heq)
      refine undisturbed_demoTokens (e := d.updateUser user.id (AuthService.demoLoggedIn x dto)) hne rfl
        ⟨?_, h.wallets⟩
      exact h.status.updateUser (f := AuthService.demoLoggedIn x dto) (fun _ => rfl)
        fun heq => absurd heq hne
    | none =>
      by_cases hfree : d.free (AuthService.demoUser lib x dto) = true
      · have hne := ne_of_free hfound hfree
        simp only [if_pos hfree]
        exact undisturbed_demoTokens (e := d.createUser (AuthService.demoUser lib x dto)) hne rfl
          ⟨h.status.append hne, h.wallets⟩
      · simp only [if_neg hfree]
        exact .refl h

lemma undisturbed_updateUserStatus {actor : Principal} {k : String} {status : UserStatus}
    (h : Asleep K id d)
    (hre : (∃ a, (AdminService.updateUserStatus actor k status d).2 = .ok a) → k = id →
      status ≠ .ACTIVE) :
    Undisturbed K id d (AdminService.updateUserStatus actor k status d).1 := by
  rw [AdminService.updateUserStatus] at hre ⊢
  split at hre
  · exact .refl h
  · refine h.of_users rfl rfl (h.status.updateUser (fun _ => rfl) fun hk u _ => ?_)
    exact hre ⟨_, rfl⟩ hk

lemma undisturbed_createWallet {owner : Principal} {dto : CreateWalletDto} (h : Asleep K id d)
    (hfresh : ¬K x.walletId) : Undisturbed K id d (WalletsService.create lib x owner dto d).1 := by
  rw [WalletsService.create]
  split_ifs
  · refine undisturbed_of (demote_issued dto.isPrimary owner.id) ⟨?_, h.wallets.demote.append hfresh⟩
    simpa [Server.createWallet, demote_users] using h.status
  · exact .refl h
  · exact .refl h

lemma undisturbed_findOne {owner : Principal} {k : String} {next : UserWallet → Outcome}
    (h : Asleep K id d)
    (hnext : ∀ w ∈ d.wallets, w.id = k → WalletsService.mayAccess owner w.userId = true →
      Undisturbed K id d (next w).1) :
    Undisturbed K id d (WalletsService.findOne owner k d next).1 := by
  rw [WalletsService.findOne]
  cases hfind : d.wallets.find? (·.id = k) with
  | none => exact .refl h
  | some w =>
    by_cases hmay : WalletsService.mayAccess owner w.userId = true
    · simp only [if_pos hmay]
      exact hnext w (List.mem_of_find?_eq_some hfind) (by simpa using List.find?_some hfind) hmay
    · simp only [if_neg hmay]
      exact .refl h

lemma undisturbed_updateWallet {bearer : String} {owner : Principal} {k : String}
    {dto : UpdateWalletDto} (h : Asleep K id d) (hnodup : (d.wallets.map UserWallet.id).Nodup)
    (hcaller : caller lib x (.updateWallet bearer k dto) = some owner)
    (hno : ¬Readmits lib x production K d id (.updateWallet bearer k dto)) :
    Undisturbed K id d (WalletsService.update owner k dto d).1 := by
  refine undisturbed_findOne h fun wallet hmem hid hmay => ?_
  subst hid
  refine undisturbed_of (demote_issued dto.isPrimary wallet.userId) ⟨?_, ?_⟩
  · simpa [Server.updateWallets, demote_users] using h.status
  · refine h.wallets.demote.updateWhere (fun _ => ⟨rfl, rfl⟩) fun v hv hid huser hK hstatus => ?_
    obtain ⟨w, hw, hwid, hwuser⟩ := mem_of_mem_demote hv
    have heq : w = wallet := eq_of_wallet_id hnodup hw hmem (hwid.trans (of_decide_eq_true hid))
    subst heq
    show dto.status.getD v.status ≠ .ACTIVE
    cases hdto : dto.status with
    | none => exact hstatus
    | some status =>
      rintro rfl
      exact hno (.wallet bearer dto owner w hcaller hmay hdto hw (hwuser.trans huser) (hwid ▸ hK))

lemma undisturbed_disconnect {owner : Principal} {k : String} (h : Asleep K id d) :
    Undisturbed K id d (WalletsService.disconnect owner k d).1 := by
  refine undisturbed_findOne h fun wallet _ _ _ => undisturbed_of rfl ⟨h.status, ?_⟩
  exact h.wallets.updateWhere (fun _ => ⟨rfl, rfl⟩) (by simp [WalletsService.disconnected])

/-- **One request.** A user that is not active is disturbed only by a way back in or by an admin. -/
theorem undisturbed_handle (h : Asleep K id d) (hnodup : (d.wallets.map UserWallet.id).Nodup)
    (hfound : (d.findUser id).isSome) (hfresh : ¬K x.walletId)
    (hno : ¬Readmits lib x production K d id r)
    (hre : reactivating r = some id → ¬∃ a, (handle lib x production r d).2 = .ok a) :
    Undisturbed K id d (handle lib x production r d).1 := by
  cases r with
  | account u => exact undisturbed_serve h hnodup hfound hfresh hno hre
  | demoLogin dto =>
    cases production with
    | true => exact .refl h
    | false => exact undisturbed_demoLogin h hfound hno
  | updateUserStatus bearer k status =>
    refine undisturbed_signedIn h fun a ha => ?_
    simp only [handle, signedIn, ha] at hre
    split_ifs with hadmin
    · rw [if_pos hadmin] at hre
      refine undisturbed_updateUserStatus h ?_
      rintro hok rfl rfl
      exact hre rfl hok
    · exact .refl h
  | createWallet bearer dto => exact undisturbed_signedIn h fun _ _ => undisturbed_createWallet h hfresh
  | updateWallet bearer k dto =>
    exact undisturbed_signedIn h fun _ ha => undisturbed_updateWallet h hnodup ha hno
  | disconnectWallet bearer k => exact undisturbed_signedIn h fun _ _ => undisturbed_disconnect h

/-! ### Users stay -/

lemma isSome_findUser : (d.findUser id).isSome ↔ ∃ role, (id, role) ∈ d.roles := by
  simp [Server.findUser, mem_roles]

lemma found_updateUser {k : String} (hid : ∀ u, (f u).id = u.id) (h : (d.findUser id).isSome) :
    ((d.updateUser k f).findUser id).isSome := by
  rw [Server.findUser, Server.updateUser, find?_updateWhere_key hid, Option.isSome_map]
  exact h

lemma found_generateTokens {k : String} {role : UserRole} {next : Tokens → Server → Outcome}
    (h : (d.findUser id).isSome) (hnext : ∀ auth d, (next auth d).1.users = d.users) :
    ((AuthService.generateTokens lib x k role d next).1.findUser id).isSome := by
  simp only [AuthService.generateTokens]
  cases d.findUser k with
  | none => exact h
  | some u =>
    simp only [Server.findUser, hnext]
    exact found_updateUser (d := d) (k := k) (fun _ => rfl) h

lemma found_demoLogin (dto : MockLoginDto) (h : (d.findUser id).isSome) :
    ((AuthService.demoLogin lib x dto d).1.findUser id).isSome := by
  rw [AuthService.demoLogin]
  split_ifs
  · exact h
  · split
    · exact found_generateTokens (found_updateUser (f := AuthService.demoLoggedIn x dto)
        (fun _ => rfl) h) fun _ _ => rfl
    · simp only
      split_ifs
      · refine found_generateTokens ?_ fun _ _ => rfl
        rw [Server.findUser, Server.createUser, List.find?_append]
        rw [Server.findUser] at h
        simp [h]
      · exact h

lemma found_of_users (husers : d'.users = d.users) (h : (d.findUser id).isSome) :
    (d'.findUser id).isSome := by
  rw [Server.findUser, husers]
  exact h

lemma found_handle (h : (d.findUser id).isSome) :
    ((handle lib x production r d).1.findUser id).isSome := by
  cases r with
  | account u => exact isSome_findUser.mpr (mem_roles_serve (isSome_findUser.mp h))
  | demoLogin dto =>
    cases production with
    | true => exact h
    | false => exact found_demoLogin dto h
  | updateUserStatus bearer k status =>
    simp only [handle, signedIn]
    split
    · split_ifs
      · rw [AdminService.updateUserStatus]
        split
        · exact h
        · exact found_updateUser (d := d) (k := k) (fun _ => rfl) h
      · exact h
    · exact h
  | createWallet bearer dto =>
    simp only [handle, signedIn]
    split
    · rw [WalletsService.create]
      split_ifs
      · exact found_of_users (demote_users _ _) h
      · exact h
      · exact h
    · exact h
  | updateWallet bearer k dto =>
    simp only [handle, signedIn]
    split
    · rw [WalletsService.update, WalletsService.findOne]
      split
      · exact h
      · split_ifs
        · exact found_of_users (demote_users _ _) h
        · exact h
    · exact h
  | disconnectWallet bearer k =>
    simp only [handle, signedIn]
    split
    · rw [WalletsService.disconnect, WalletsService.findOne]
      split
      · exact h
      · split_ifs
        · exact h
        · exact h
    · exact h

/-! ### Shutting out -/

/-- A row that was updated: the user is there, and it is not active afterwards. -/
lemma dormant_updateRow {k : String} {a : Answer} (hf : ∀ u, (f u).status ≠ .ACTIVE)
    (h : (UsersService.updateRow k f d).2 = .ok a) :
    (d.findUser k).isSome ∧ Dormant k (UsersService.updateRow k f d).1.users := by
  rcases updateRow_cases k f d with hrow | ⟨u, hu, hrow⟩
  · rw [hrow] at h
    cases h
  · rw [hrow]
    exact ⟨by rw [hu]; rfl, dormant_updateUser hf⟩

/-- An admin's request that succeeds has been carried out. -/
lemma serve_of_ok {u : UserRequest} {next : Outcome} {a : Answer}
    (hserve : serve lib x u d = adminOnly lib x u d next) (h : (serve lib x u d).2 = .ok a) :
    serve lib x u d = next := by
  rw [adminOnly, authenticated] at hserve
  cases hp : principal lib x u with
  | none =>
    simp only [hp] at hserve
    rw [hserve] at h
    cases h
  | some p =>
    simp only [hp] at hserve
    split_ifs at hserve
    · exact hserve
    · rw [hserve] at h
      cases h

lemma dormant_of_disabling {a : Answer} (hr : disabling lib x r = some id)
    (h : (handle lib x production r d).2 = .ok a) :
    (d.findUser id).isSome ∧ Dormant id (handle lib x production r d).1.users := by
  cases r with
  | account u =>
    cases u with
    | suspend bearer k =>
      obtain rfl : k = id := Option.some.inj hr
      have hserve := serve_of_ok rfl h
      simp only [handle, hserve] at h ⊢
      exact dormant_updateRow (by simp) h
    | softDelete bearer k =>
      obtain rfl : k = id := Option.some.inj hr
      have hserve := serve_of_ok rfl h
      simp only [handle, hserve, UsersService.softDelete] at h ⊢
      rcases updateRow_cases k (fun u => { u with deletedAt := some x.now, status := .DELETED }) d with
        hrow | ⟨u, hu, hrow⟩
      · rw [hrow] at h
        cases h
      · rw [hrow]
        exact ⟨by rw [hu]; rfl, dormant_updateUser (by simp)⟩
    | deleteAccount bearer =>
      simp only [disabling, Option.map_eq_some_iff] at hr
      obtain ⟨p, hp, rfl⟩ := hr
      have hp' : principal lib x (.deleteAccount bearer) = some p := hp
      simp only [handle, serve, authenticated, hp', UsersService.deleteAccount] at h ⊢
      rcases updateRow_cases p.id (UsersService.erased x) d with hrow | ⟨u, hu, hrow⟩
      · rw [hrow] at h
        cases h
      · rw [hrow]
        exact ⟨by rw [hu]; rfl, dormant_updateUser (f := UsersService.erased x)
          (by simp [UsersService.erased])⟩
    | _ => cases hr
  | updateUserStatus bearer k status =>
    simp only [disabling] at hr
    split_ifs at hr with hstatus
    obtain rfl : k = id := Option.some.inj hr
    simp only [handle, signedIn] at h ⊢
    split at h
    · split_ifs at h ⊢
      · rw [AdminService.updateUserStatus] at h ⊢
        split at h
        · cases h
        · rename_i before hbefore
          refine ⟨?_, dormant_updateUser fun u => ?_⟩
          · refine List.find?_isSome.mpr ⟨before, List.mem_of_find?_eq_some hbefore, ?_⟩
            have hcond := List.find?_some hbefore
            simp only [Bool.decide_and, Bool.and_eq_true] at hcond
            exact hcond.1
          · rcases hstatus with rfl | rfl
            · simp
            · simp
    · cases h
  | _ => cases hr

/-! ### The ways back in -/

lemma not_undisturbed_of_tokens {p : JwtPayload} (hissued : d'.issued = d.issued ++ tokensOf lib x p)
    (hp : p.sub = id) : ¬Undisturbed K id d d' := by
  intro h
  exact h.tokens _ hissued ⟨.access, p, lib.sign .access p x.now⟩ (List.mem_cons_self ..) hp

lemma not_undisturbed_generateTokens {k : String} {role : UserRole} {u : User}
    {next : Tokens → Server → Outcome} (hk : k = id) (hissued : e.issued = d.issued)
    (hfind : e.findUser k = some u)
    (hnext : ∀ auth d, (next auth d).1.users = d.users ∧ (next auth d).1.issued = d.issued) :
    ¬Undisturbed K id d (AuthService.generateTokens lib x k role e next).1 := by
  have htokens : (AuthService.generateTokens lib x k role e next).1.issued =
      d.issued ++ tokensOf lib x ⟨k, role⟩ := by
    rw [← hissued]
    exact (generateTokens_of_findUser role hfind hnext).2
  exact not_undisturbed_of_tokens htokens hk

lemma not_undisturbed_login {dto : WalletLoginDto} {wallet : UserWallet}
    (hholds : d.holds dto.nonce x.now = true)
    (hsigned : AuthService.isValidSignature lib dto = .ok true)
    (hknown : d.findWallet dto.network (AuthService.normalizeWalletAddress lib dto.address) =
      some wallet) (hfound : (d.findUser wallet.userId).isSome) :
    ¬Undisturbed K wallet.userId d (AuthService.walletLogin lib x dto d).1 := by
  obtain ⟨before, hbefore⟩ := Option.isSome_iff_exists.mp hfound
  have hbefore' : (d.consume dto.nonce).findUser wallet.userId = some before := hbefore
  have hknown' : (d.consume dto.nonce).findWallet dto.network
      (AuthService.normalizeWalletAddress lib dto.address) = some wallet := hknown
  have hid : before.id = wallet.userId := id_of_findUser hbefore
  have hfind : (((d.consume dto.nonce).updateUser wallet.userId (AuthService.loggedIn x)).updateWallets
      (fun w => w.id = wallet.id) fun w =>
        { w with lastUsedAt := some x.now, status := .ACTIVE }).findUser before.id =
      some (AuthService.loggedIn x before) := by
    rw [hid]
    exact (findUser_updateUser (d := d) (f := AuthService.loggedIn x) fun _ => rfl).trans
      (congrArg (Option.map _) hbefore)
  simp only [AuthService.walletLogin, hholds, if_true, hsigned, hknown', AuthService.loginKnown,
    hbefore']
  exact not_undisturbed_generateTokens hid rfl hfind fun auth d => ⟨rfl, rfl⟩

lemma not_undisturbed_refresh {token : String} (h : Refreshes lib x token d id) :
    ¬Undisturbed K id d (AuthService.refreshToken lib x token d).1 := by
  obtain ⟨⟨user, hashed, hfinds, hid, hcompare⟩, hverifies⟩ := h
  obtain ⟨u, hu⟩ := hfinds.findUser
  rw [hfinds.accepted hcompare hverifies]
  exact not_undisturbed_generateTokens hid rfl hu fun auth d => ⟨rfl, rfl⟩

lemma not_undisturbed_demo {dto : MockLoginDto} {user : User}
    (hgiven : ¬(dto.email = none ∧ dto.phoneE164 = none))
    (hfound : AuthService.findContact lib x dto d = some user) :
    ¬Undisturbed K user.id d (AuthService.demoLogin lib x dto d).1 := by
  obtain ⟨u, hu⟩ : ∃ u, d.findUser user.id = some u := by
    refine Option.isSome_iff_exists.mp (List.find?_isSome.mpr ⟨user, ?_, by simp⟩)
    exact x.scan.mem_of_find? hfound
  have hfind : (d.updateUser user.id (AuthService.demoLoggedIn x dto)).findUser user.id =
      some (AuthService.demoLoggedIn x dto u) := by
    rw [findUser_updateUser (f := AuthService.demoLoggedIn x dto) fun _ => rfl, hu]
    rfl
  simp only [AuthService.demoLogin, if_neg hgiven, hfound]
  exact not_undisturbed_generateTokens rfl rfl hfind fun auth d => ⟨rfl, rfl⟩

lemma not_undisturbed_wallet {owner : Principal} {w : UserWallet} {dto : UpdateWalletDto}
    (hnodup : (d.wallets.map UserWallet.id).Nodup) (hmem : w ∈ d.wallets)
    (hmay : WalletsService.mayAccess owner w.userId = true) (hactive : dto.status = some .ACTIVE)
    (hK : K w.id) : ¬Undisturbed K w.userId d (WalletsService.update owner w.id dto d).1 := by
  obtain ⟨v, hv⟩ := Option.isSome_iff_exists.mp
    (List.find?_isSome.mpr ⟨w, hmem, decide_eq_true rfl⟩ :
      (d.wallets.find? (·.id = w.id)).isSome)
  obtain rfl : v = w :=
    eq_of_wallet_id hnodup (List.mem_of_find?_eq_some hv) hmem (by simpa using List.find?_some hv)
  obtain ⟨u, hu, hid, huser⟩ : ∃ u ∈ (WalletsService.demote dto.isPrimary v.userId d).wallets,
      u.id = v.id ∧ u.userId = v.userId := exists_mem_demote hmem
  have hupdated : WalletsService.updated dto u ∈ (WalletsService.update owner v.id dto d).1.wallets := by
    simp only [WalletsService.update, WalletsService.findOne, hv, if_pos hmay]
    exact List.mem_map.mpr ⟨u, hu, if_pos (decide_eq_true hid)⟩
  intro h
  refine h.wallets _ hupdated huser ?_ ?_
  · show K u.id
    rwa [hid]
  · show dto.status.getD u.status = .ACTIVE
    rw [hactive]
    rfl

theorem not_undisturbed_of_readmits (hnodup : (d.wallets.map UserWallet.id).Nodup)
    (h : Readmits lib x production K d id r) :
    ¬Undisturbed K id d (handle lib x production r d).1 := by
  cases h with
  | login dto wallet hholds hsigned hknown howner hfound =>
    subst howner
    exact not_undisturbed_login hholds hsigned hknown hfound
  | refresh token h => exact not_undisturbed_refresh h
  | demo dto user houtside hgiven hfound hid =>
    subst houtside hid
    exact not_undisturbed_demo hgiven hfound
  | wallet bearer dto owner w hcaller hmay hactive hmem huser hrevoked =>
    subst huser
    simp only [handle, signedIn, hcaller]
    exact not_undisturbed_wallet hnodup hmem hmay hactive hrevoked

end Lemmas

/-! ### Runs -/

section Runs

variable {lib : Libraries} {production : Bool} {d₀ d d' : Server} {tr : List AccountMove}
  {l : AccountRequest × Chance} {id : String}

lemma ids_of_titles : d.wallets.map UserWallet.id = d.titles.map Prod.fst := by
  rw [Server.titles, List.map_map]
  rfl

lemma nodup_step (hstep : (accounts lib production).Step d l d')
    (h : (d.wallets.map UserWallet.id).Nodup) : (d'.wallets.map UserWallet.id).Nodup := by
  obtain ⟨hfresh, rfl⟩ := hstep
  rw [ids_of_titles] at hfresh h ⊢
  cases handle_walletEffect lib l.2 production l.1 d with
  | same htitles => rwa [htitles]
  | registered dto _ _ htitles | connected owner dto _ htitles =>
    rw [htitles, List.map_append, List.map_singleton, List.nodup_append_comm, List.singleton_append,
      List.nodup_cons]
    exact ⟨hfresh, h⟩

lemma nodup_of_run (h₀ : (accounts lib production).Init d₀) (h : (accounts lib production).Run d₀ tr d) :
    (d.wallets.map UserWallet.id).Nodup := by
  induction h with
  | nil => exact h₀
  | snoc _ hstep ih => exact nodup_step hstep ih

/-- Whoever is shut out after a move was so before, or the move shuts it out. -/
lemma shutOut_snoc {m : AccountMove} (h : ShutOut lib production (tr ++ [m]) id) :
    Disables lib production m id ∨ ShutOut lib production tr id ∧ ¬Reactivates lib production m id := by
  obtain ⟨tr₁, m', tr₂, heq, hdis, hall⟩ := h
  cases tr₂ using List.reverseRecOn with
  | nil =>
    obtain ⟨-, hm⟩ := List.append_inj' heq rfl
    obtain rfl := List.singleton_inj.mp hm
    exact .inl hdis
  | append_singleton tr₂ m'' _ =>
    rw [← List.cons_append, ← List.append_assoc] at heq
    obtain ⟨htr, hm⟩ := List.append_inj' heq rfl
    obtain rfl := List.singleton_inj.mp hm
    refine .inr ⟨⟨tr₁, m', tr₂, htr, hdis, fun m₂ hm₂ => ?_⟩, ?_⟩
    · exact hall m₂ (List.mem_append_left _ hm₂)
    · exact hall m (List.mem_append_right _ (List.mem_singleton_self _))

/-- While a user is shut out, nobody lets it back in but an admin. -/
def Barred (lib : Libraries) (production : Bool) (tr : List AccountMove) (id : String) : Prop :=
  ∀ tr₁ m tr₂, tr = tr₁ ++ m :: tr₂ → ShutOut lib production tr₁ id →
    ¬Readmits lib m.label.2 production (RevokedSince lib production tr₁ id) m.pre id m.label.1

lemma Barred.prefix {tr' : List AccountMove} (h : Barred lib production (tr ++ tr') id) :
    Barred lib production tr id := by
  rintro tr₁ m tr₂ rfl
  exact h tr₁ m (tr₂ ++ tr') (by simp)

/-- A wallet that was revoked since is revoked after the last move, or it was so before. -/
lemma revokedSince_snoc {m : AccountMove} {k : String} (h : RevokedSince lib production (tr ++ [m]) id k) :
    (RevokedSince lib production tr id k ∧ ¬Reactivates lib production m id) ∨
      ∃ w ∈ m.post.wallets, w.id = k ∧ w.userId = id ∧ w.status = .REVOKED := by
  obtain ⟨tr₁, m₀, tr₂, heq, hdis, hall, m', hm', hrevoked⟩ := h
  cases tr₂ using List.reverseRecOn with
  | nil =>
    obtain ⟨-, hm⟩ := List.append_inj' heq rfl
    obtain rfl := List.singleton_inj.mp hm
    obtain rfl := List.mem_singleton.mp hm'
    exact .inr hrevoked
  | append_singleton tr₂ m'' _ =>
    rw [← List.cons_append, ← List.append_assoc] at heq
    obtain ⟨htr, hm⟩ := List.append_inj' heq rfl
    obtain rfl := List.singleton_inj.mp hm
    rw [← List.cons_append] at hm'
    rcases List.mem_append.mp hm' with hm' | hm'
    · refine .inl ⟨⟨tr₁, m₀, tr₂, htr, hdis, fun m₂ hm₂ => ?_, m', hm', hrevoked⟩, ?_⟩
      · exact hall m₂ (List.mem_append_left _ hm₂)
      · exact hall m (List.mem_append_right _ (List.mem_singleton_self _))
    · obtain rfl := List.mem_singleton.mp hm'
      exact .inr hrevoked

/-- Whoever has such a wallet is shut out. -/
lemma RevokedSince.shutOut {k : String} (h : RevokedSince lib production tr id k) :
    ShutOut lib production tr id := by
  obtain ⟨tr₁, m, tr₂, heq, hdis, hall, -⟩ := h
  exact ⟨tr₁, m, tr₂, heq, hdis, hall⟩

/-- Wallets stay. -/
lemma ids_step (hstep : (accounts lib production).Step d l d') :
    d.wallets.map UserWallet.id ⊆ d'.wallets.map UserWallet.id := by
  obtain ⟨-, rfl⟩ := hstep
  rw [ids_of_titles, ids_of_titles]
  cases handle_walletEffect lib l.2 production l.1 d with
  | same htitles =>
    rw [htitles]
    exact List.Subset.refl _
  | registered dto _ _ htitles | connected owner dto _ htitles =>
    rw [htitles, List.map_append]
    exact List.subset_append_left ..

lemma RevokedSince.mem_ids (h : (accounts lib production).Run d₀ tr d) {k : String}
    (hk : RevokedSince lib production tr id k) : k ∈ d.wallets.map UserWallet.id := by
  induction h with
  | nil =>
    obtain ⟨tr₁, m, tr₂, heq, -⟩ := hk
    simp at heq
  | snoc hrun hstep ih =>
    rcases revokedSince_snoc hk with ⟨hk, -⟩ | ⟨w, hw, rfl, -⟩
    · exact ids_step hstep (ih hk)
    · exact List.mem_map_of_mem hw

/-- **One move.** While a user is asleep and shut out, a move that is neither a way back in nor an admin's
does not disturb it. -/
lemma undisturbed_step (h₀ : (accounts lib production).Init d₀)
    (hrun : (accounts lib production).Run d₀ tr d) (hstep : (accounts lib production).Step d l d')
    (hfound : (d.findUser id).isSome) (hasleep : Asleep (RevokedSince lib production tr id) id d)
    (hno : ¬Readmits lib l.2 production (RevokedSince lib production tr id) d id l.1)
    (hre : ¬Reactivates lib production ⟨d, l, d'⟩ id) :
    Undisturbed (RevokedSince lib production tr id) id d d' := by
  obtain ⟨hfresh, rfl⟩ := hstep
  refine undisturbed_handle hasleep (nodup_of_run h₀ hrun) hfound ?_ hno fun hr ha => hre ⟨hr, ha⟩
  exact fun hk => hfresh (hk.mem_ids hrun)

/-- **The run lemma.** A user that is shut out is there and not active, and neither is any of its wallets
that was revoked since. -/
theorem asleep_of_run (h₀ : (accounts lib production).Init d₀)
    (h : (accounts lib production).Run d₀ tr d) (hbarred : Barred lib production tr id)
    (hout : ShutOut lib production tr id) :
    (d.findUser id).isSome ∧ Asleep (RevokedSince lib production tr id) id d := by
  induction h with
  | nil =>
    obtain ⟨tr₁, m, tr₂, heq, -⟩ := hout
    simp at heq
  | @snoc d d' tr l hrun hstep ih =>
    have hundisturbed : ShutOut lib production tr id → ¬Reactivates lib production ⟨d, l, d'⟩ id →
        Undisturbed (RevokedSince lib production tr id) id d d' := by
      intro hout' hre
      obtain ⟨hfound, hasleep⟩ := ih hbarred.prefix hout'
      exact undisturbed_step h₀ hrun hstep hfound hasleep (hbarred tr _ [] rfl hout') hre
    have hwallets : Inactive (RevokedSince lib production (tr ++ [⟨d, l, d'⟩]) id) id d'.wallets := by
      intro w hw huser hk
      rcases revokedSince_snoc hk with ⟨hk, hre⟩ | ⟨w', hw', hid, -, hrevoked⟩
      · exact (hundisturbed hk.shutOut hre).wallets w hw huser hk
      · rw [eq_of_wallet_id (nodup_step hstep (nodup_of_run h₀ hrun)) hw hw' hid.symm, hrevoked]
        simp
    have hstatus : (d'.findUser id).isSome ∧ Dormant id d'.users := by
      rcases shutOut_snoc hout with ⟨hdis, a, ha⟩ | ⟨hout', hre⟩
      · obtain ⟨-, rfl⟩ := hstep
        obtain ⟨hfound, hdormant⟩ := dormant_of_disabling hdis ha
        exact ⟨found_handle hfound, hdormant⟩
      · refine ⟨?_, (hundisturbed hout' hre).status⟩
        obtain ⟨-, rfl⟩ := hstep
        exact found_handle (ih hbarred.prefix hout').1
    exact ⟨hstatus.1, hstatus.2, hwallets⟩

/-- A way back in is not an admin's. -/
lemma not_reactivates_of_readmits {m : AccountMove}
    {K : String → Prop} (h : Readmits lib m.label.2 production K m.pre id m.label.1) :
    ¬Reactivates lib production m id := by
  rintro ⟨hr, -⟩
  cases m with
  | mk pre label post =>
    obtain ⟨r, x⟩ := label
    cases h with
    | login | refresh | demo | wallet => cases hr

/-- **Suspension and deletion.** Along a run a user that is shut out gets no tokens, does not become
active and has no wallet active that was revoked since, until an admin makes it active, exactly if nobody
logs in with one of its wallets meanwhile, has a refresh token of it accepted, makes a demo login as it, or
updates to `ACTIVE` a wallet of it that was revoked since, whatever became of that wallet in between. -/
theorem suspension_effective_iff (lib : Libraries) (production : Bool) (d₀ d : Server)
    (tr : List AccountMove) (h₀ : (accounts lib production).Init d₀)
    (h : (accounts lib production).Run d₀ tr d) (id : String) :
    Effective lib production tr id ↔ Barred lib production tr id := by
  constructor
  · rintro heffective tr₁ m tr₂ rfl hout hreadmits
    obtain ⟨hrun, hstep⟩ := h.split tr₁ m tr₂
    obtain ⟨-, hpost⟩ := hstep
    have hundisturbed := heffective tr₁ m tr₂ rfl hout (not_reactivates_of_readmits hreadmits)
    rw [hpost] at hundisturbed
    exact not_undisturbed_of_readmits (nodup_of_run h₀ hrun) hreadmits hundisturbed
  · rintro hbarred tr₁ m tr₂ rfl hout hre
    obtain ⟨hrun, hstep⟩ := h.split tr₁ m tr₂
    obtain ⟨hfound, hasleep⟩ := asleep_of_run h₀ hrun hbarred.prefix hout
    exact undisturbed_step h₀ hrun hstep hfound hasleep (hbarred tr₁ m tr₂ rfl hout) hre

end Runs

/-! ### A suspended user that logs in -/

/-- An admin, and a user with a wallet. -/
def sampleAccounts : Server where
  users := [{ id := "root", role := .ADMIN }, { id := "shopper", status := .ACTIVE }]
  wallets :=
    [{ id := "wallet of shopper", userId := "shopper", provider := .FREIGHTER, network := .STELLAR
       address := "GSHOPPER", addressNormalized := "GSHOPPER" }]

lemma init_sampleAccounts (production : Bool) :
    (accounts sampleLibraries production).Init sampleAccounts :=
  List.nodup_singleton _

def sampleSuspension : AccountRequest := .account (.suspend "access root" "shopper")

lemma run_account {lib : Libraries} {production : Bool} {d₀ d : Server} {tr : List AccountMove}
    (h : (accounts lib production).Run d₀ tr d) (r : AccountRequest) (x : Chance)
    (hfresh : x.walletId ∉ d.wallets.map UserWallet.id) :
    (accounts lib production).Run d₀ (tr ++ [⟨d, (r, x), (handle lib x production r d).1⟩])
      (handle lib x production r d).1 :=
  h.snoc ⟨hfresh, rfl⟩

/-- A user that an admin has suspended logs in with its wallet, in production. -/
theorem suspended_user_logs_in : ∃ lib d₀ tr d id, (accounts lib true).Init d₀ ∧
    (accounts lib true).Run d₀ tr d ∧ ¬Effective lib true tr id := by
  have h := Transition.System.Run.nil (M := accounts sampleLibraries true) sampleAccounts
  have h := run_account h sampleSuspension (sampleChance "1") (by decide)
  have h := run_account h (.account (.walletChallenge ⟨.FREIGHTER, .STELLAR, "GSHOPPER"⟩))
    (sampleChance "2") (by decide)
  have hlogin := run_account h (.account (.walletLogin (sampleLogin "GSHOPPER" "NONCE_2" none)))
    (sampleChance "3") (by decide)
  refine ⟨sampleLibraries, sampleAccounts, _, _, "shopper", init_sampleAccounts true, hlogin,
    fun heffective => ?_⟩
  refine not_undisturbed_of_readmits (by decide) ?_ (heffective _ _ [] rfl ?_ ?_)
  · refine .login (sampleLogin "GSHOPPER" "NONCE_2" none) ⟨"wallet of shopper", "shopper", .FREIGHTER,
      .STELLAR, "GSHOPPER", "GSHOPPER", none, none, .ACTIVE, false, none, none, []⟩ ?_ rfl ?_ rfl ?_
    · decide
    · decide
    · decide
  · refine ⟨[], _, _, rfl, ⟨rfl, _, rfl⟩, fun m hm => ?_⟩
    obtain rfl := List.mem_singleton.mp hm
    rintro ⟨hr, -⟩
    cases hr
  · rintro ⟨hr, -⟩
    cases hr

/-- Requests that let nobody back in. -/
lemma barred_of_forall {lib : Libraries} {production : Bool} {tr : List AccountMove} {id : String}
    (h : ∀ m ∈ tr, ∀ K, ¬Readmits lib m.label.2 production K m.pre id m.label.1) :
    Barred lib production tr id := by
  rintro tr₁ m tr₂ rfl -
  exact h m (by simp) _

/-- The suspended user asks for a challenge, and that is all. -/
theorem suspension_effective_iff_of_challenge : ∃ tr d,
    (accounts sampleLibraries true).Run sampleAccounts tr d ∧
      ShutOut sampleLibraries true tr "shopper" ∧ Effective sampleLibraries true tr "shopper" := by
  have h := Transition.System.Run.nil (M := accounts sampleLibraries true) sampleAccounts
  have h := run_account h sampleSuspension (sampleChance "1") (by decide)
  have h := run_account h (.account (.walletChallenge ⟨.FREIGHTER, .STELLAR, "GSHOPPER"⟩))
    (sampleChance "2") (by decide)
  refine ⟨_, _, h, ⟨[], _, _, rfl, ⟨rfl, _, rfl⟩, fun m hm => ?_⟩, ?_⟩
  · obtain rfl := List.mem_singleton.mp hm
    rintro ⟨hr, -⟩
    cases hr
  · refine (suspension_effective_iff sampleLibraries true _ _ _ (init_sampleAccounts true) h "shopper").mpr
      (barred_of_forall fun m hm K => ?_)
    simp only [List.nil_append, List.cons_append, List.mem_cons, List.not_mem_nil, or_false] at hm
    rcases hm with rfl | rfl
    · intro hreadmits
      cases hreadmits
    · intro hreadmits
      cases hreadmits

end PayEra.Api.Accounts
