import PayEra.Api.Wallets
import PayEra.Api.Escalation

/-!
# What a request does to the wallets

A wallet keeps its id, its user, its address and the time of its verification. A new one comes from a
login that creates its user, or from a user who connects it.
-/

namespace PayEra.Api.Accounts

/-- One of the requests, with its clock and its random values. -/
abbrev AccountMove := Transition.Move Server (AccountRequest × Chance)

/-- What never changes of a wallet. -/
def UserWallet.title (w : UserWallet) : String × String × String × Option ℕ :=
  (w.id, w.userId, w.address, w.verifiedAt)

lemma UserWallet.title_eq_iff {w w' : UserWallet} : w.title = w'.title ↔ w.id = w'.id ∧
    w.userId = w'.userId ∧ w.address = w'.address ∧ w.verifiedAt = w'.verifiedAt := by
  simp only [UserWallet.title, Prod.mk.injEq]

/-- What it is found by. -/
def UserWallet.key (w : UserWallet) : WalletNetwork × String × String :=
  (w.network, w.address, w.addressNormalized)

def Server.titles (d : Server) : List (String × String × String × Option ℕ) :=
  d.wallets.map UserWallet.title

/-- The user connects a wallet. -/
structure Connects (lib : Libraries) (x : Chance) (r : AccountRequest) (d : Server)
    (owner : Principal) (dto : CreateWalletDto) : Prop where
  request : ∃ bearer, r = .createWallet bearer dto
  signedIn : caller lib x r = some owner
  free : d.freeWallet (WalletsService.newWallet lib x owner dto) = true
  user : (d.findUser owner.id).isSome = true

/-- Whoever makes the request may act on the wallet. -/
structure Accesses (lib : Libraries) (x : Chance) (r : AccountRequest) (d : Server)
    (owner : Principal) (wallet : UserWallet) : Prop where
  signedIn : caller lib x r = some owner
  mem : wallet ∈ d.wallets
  may : WalletsService.mayAccess owner wallet.userId = true

/-- What a request does to the rows. -/
inductive WalletChange (lib : Libraries) (x : Chance) (r : AccountRequest) (d d' : Server) : Prop where
  | same (h : d'.wallets = d.wallets)
  | touched (p : UserWallet → Bool) (f : UserWallet → UserWallet)
      (h : d'.wallets = updateWhere p f d.wallets) (htitle : ∀ w, (f w).title = w.title)
      (hkey : ∀ w, (f w).key = w.key) (hprimary : ∀ w, (f w).isPrimary = w.isPrimary)
  | registered (dto : WalletLoginDto) (hr : r = .account (.walletLogin dto))
      (hreg : Registers lib x dto d) (h : d'.wallets = d.wallets ++ [AuthService.newWallet lib x dto])
  | connected (owner : Principal) (dto : CreateWalletDto) (hconnects : Connects lib x r d owner dto)
      (h : d'.wallets = (WalletsService.demote dto.isPrimary owner.id d).wallets ++
        [WalletsService.newWallet lib x owner dto])
  | updated (bearer : String) (owner : Principal) (wallet : UserWallet) (dto : UpdateWalletDto)
      (hr : r = .updateWallet bearer wallet.id dto) (haccess : Accesses lib x r d owner wallet)
      (h : d'.wallets = updateWhere (fun w => w.id = wallet.id) (WalletsService.updated dto)
        (WalletsService.demote dto.isPrimary wallet.userId d).wallets)
  | disconnected (bearer : String) (owner : Principal) (wallet : UserWallet)
      (hr : r = .disconnectWallet bearer wallet.id) (haccess : Accesses lib x r d owner wallet)
      (h : d'.wallets =
        updateWhere (fun w => w.id = wallet.id) WalletsService.disconnected d.wallets)

/-- What it does to what never changes of them. -/
inductive WalletEffect (lib : Libraries) (x : Chance) (r : AccountRequest) (d d' : Server) : Prop where
  | same (h : d'.titles = d.titles)
  | registered (dto : WalletLoginDto) (hr : r = .account (.walletLogin dto))
      (hreg : Registers lib x dto d)
      (h : d'.titles = d.titles ++ [(AuthService.newWallet lib x dto).title])
  | connected (owner : Principal) (dto : CreateWalletDto) (hconnects : Connects lib x r d owner dto)
      (h : d'.titles = d.titles ++ [(WalletsService.newWallet lib x owner dto).title])

section Lemmas

variable {lib : Libraries} {x : Chance} {production : Bool} {d d' e : Server} {r : AccountRequest}

/-! ### Requests that leave the wallets alone -/

lemma generateTokens_wallets {k : String} {role : UserRole} {next : Tokens → Server → Outcome}
    (hnext : ∀ auth d, (next auth d).1.wallets = d.wallets) :
    (AuthService.generateTokens lib x k role d next).1.wallets = d.wallets := by
  simp only [AuthService.generateTokens]
  cases d.findUser k with
  | none => rfl
  | some u => exact hnext _ _

lemma updateRow_wallets {k : String} {f : User → User} :
    (UsersService.updateRow k f d).1.wallets = d.wallets := by
  rcases updateRow_cases k f d with h | ⟨u, -, h⟩
  · rw [h]
  · rw [h]
    rfl

lemma adminOnly_wallets {u : UserRequest} {next : Outcome} (h : next.1.wallets = d.wallets) :
    (adminOnly lib x u d next).1.wallets = d.wallets := by
  rw [adminOnly, authenticated]
  cases principal lib x u with
  | none => rfl
  | some a =>
    simp only
    split_ifs
    · exact h
    · rfl

lemma refreshToken_wallets (token : String) :
    (AuthService.refreshToken lib x token d).1.wallets = d.wallets := by
  rw [AuthService.refreshToken]
  split
  · rfl
  · split
    · rfl
    · split
      · rfl
      · split_ifs
        · split
          · rfl
          · exact generateTokens_wallets fun _ _ => rfl
        · rfl

lemma demoLogin_wallets (dto : MockLoginDto) :
    (AuthService.demoLogin lib x dto d).1.wallets = d.wallets := by
  rw [AuthService.demoLogin]
  split_ifs
  · rfl
  · split
    · exact generateTokens_wallets fun _ _ => rfl
    · simp only
      split_ifs
      · exact generateTokens_wallets fun _ _ => rfl
      · rfl

lemma updateUserStatus_wallets (actor : Principal) (k : String) (status : UserStatus) :
    (AdminService.updateUserStatus actor k status d).1.wallets = d.wallets := by
  rw [AdminService.updateUserStatus]
  split <;> rfl

/-! ### The other wallets of a user -/

/-- `demote` as a change of each wallet. -/
lemma demote_wallets (isPrimary : Option Bool) (k : String) :
    (WalletsService.demote isPrimary k d).wallets = d.wallets.map fun w =>
      if isPrimary = some true ∧ w.userId = k then { w with isPrimary := false } else w := by
  rw [WalletsService.demote]
  by_cases hp : isPrimary = some true <;> simp [hp, Server.updateWallets, updateWhere]

lemma demote_issued (isPrimary : Option Bool) (k : String) :
    (WalletsService.demote isPrimary k d).issued = d.issued := by
  rw [WalletsService.demote]
  split_ifs <;> rfl

lemma demote_users (isPrimary : Option Bool) (k : String) :
    (WalletsService.demote isPrimary k d).users = d.users := by
  rw [WalletsService.demote]
  split_ifs <;> rfl

/-! ### The changes -/

lemma signedIn_change {next : Principal → Outcome}
    (h : ∀ a, caller lib x r = some a → WalletChange lib x r d (next a).1) :
    WalletChange lib x r d (signedIn lib x r d next).1 := by
  rw [signedIn]
  cases ha : caller lib x r with
  | none => exact .same rfl
  | some a => exact h a ha

lemma findOne_change {owner : Principal} {k : String} {next : UserWallet → Outcome}
    (hcaller : caller lib x r = some owner)
    (h : ∀ w, w.id = k → Accesses lib x r d owner w → WalletChange lib x r d (next w).1) :
    WalletChange lib x r d (WalletsService.findOne owner k d next).1 := by
  rw [WalletsService.findOne]
  split
  · exact .same rfl
  · rename_i wallet hfound
    split_ifs with hmay
    · have hid : wallet.id = k := by simpa using List.find?_some hfound
      exact h wallet hid ⟨hcaller, List.mem_of_find?_eq_some hfound, hmay⟩
    · exact .same rfl

lemma walletLogin_change (dto : WalletLoginDto) :
    WalletChange lib x (.account (.walletLogin dto)) d (AuthService.walletLogin lib x dto d).1 := by
  by_cases hreg : Registers lib x dto d
  · have hfree : (d.consume dto.nonce).free (AuthService.newUser x dto) = true := hreg.free
    rw [walletLogin_of_registers hreg, AuthService.loginUnknown, if_pos hfree]
    exact .registered dto rfl hreg (generateTokens_wallets fun _ _ => rfl)
  · rw [AuthService.walletLogin]
    split_ifs with hholds
    · cases hsigned : AuthService.isValidSignature lib dto with
      | error message => exact .same rfl
      | ok valid =>
        cases valid with
        | false => exact .same rfl
        | true =>
          cases hwallet : (d.consume dto.nonce).findWallet dto.network
              (AuthService.normalizeWalletAddress lib dto.address) with
          | some wallet =>
            simp only [hwallet, AuthService.loginKnown]
            cases (d.consume dto.nonce).findUser wallet.userId with
            | none => exact .same rfl
            | some before =>
              exact .touched (fun w => w.id = wallet.id)
                (fun w => { w with lastUsedAt := some x.now, status := .ACTIVE })
                (generateTokens_wallets fun _ _ => rfl) (fun _ => rfl) (fun _ => rfl) (fun _ => rfl)
          | none =>
            have hfree : ¬(d.consume dto.nonce).free (AuthService.newUser x dto) = true :=
              fun hfree => hreg ⟨hholds, hsigned, hwallet, hfree⟩
            simp only [hwallet, AuthService.loginUnknown, if_neg hfree]
            exact .same rfl
    · exact .same rfl

lemma serve_change (u : UserRequest) : WalletChange lib x (.account u) d (serve lib x u d).1 := by
  cases u with
  | mockLogin => exact .same rfl
  | walletChallenge dto => exact .same rfl
  | walletLogin dto => exact walletLogin_change dto
  | refresh token => exact .same (refreshToken_wallets token)
  | deleteAccount bearer =>
    rw [serve, authenticated]
    cases principal lib x (.deleteAccount bearer) with
    | none => exact .same rfl
    | some a =>
      simp only [UsersService.deleteAccount]
      rcases updateRow_cases a.id (UsersService.erased x) d with h | ⟨u, -, h⟩
      · rw [h]
        exact .same rfl
      · rw [h]
        exact .touched (fun w => w.userId = a.id) (fun w => { w with status := .REVOKED }) rfl
          (fun _ => rfl) (fun _ => rfl) (fun _ => rfl)
  | create bearer dto =>
    refine .same (adminOnly_wallets ?_)
    rw [UsersService.create]
    split_ifs with hnone
    · rfl
    · by_cases hfree : d.free (UsersService.newUser lib x dto) = true
      · rw [if_pos hfree]
        rfl
      · rw [if_neg hfree]
  | update bearer k dto =>
    refine .same (adminOnly_wallets ?_)
    rw [UsersService.update]
    split_ifs
    · rfl
    · exact updateRow_wallets
  | activate bearer k => exact .same (adminOnly_wallets updateRow_wallets)
  | suspend bearer k => exact .same (adminOnly_wallets updateRow_wallets)
  | softDelete bearer k =>
    refine .same (adminOnly_wallets ?_)
    rw [UsersService.softDelete]
    rcases updateRow_cases k (fun u => { u with deletedAt := some x.now, status := .DELETED }) d with
      h | ⟨u, -, h⟩
    · rw [h]
    · rw [h]
      rfl

/-- **Changes of the wallets.** -/
theorem handle_walletChange (lib : Libraries) (x : Chance) (production : Bool) (r : AccountRequest)
    (d : Server) : WalletChange lib x r d (handle lib x production r d).1 := by
  cases r with
  | account u => exact serve_change u
  | demoLogin dto =>
    cases production with
    | true => exact .same rfl
    | false => exact .same (demoLogin_wallets dto)
  | updateUserStatus bearer k status =>
    refine signedIn_change fun a _ => ?_
    split_ifs
    · exact .same (updateUserStatus_wallets a k status)
    · exact .same rfl
  | createWallet bearer dto =>
    refine signedIn_change fun owner howner => ?_
    rw [WalletsService.create]
    split_ifs with hfree huser
    · exact .connected owner dto ⟨⟨bearer, rfl⟩, howner, hfree, huser⟩ rfl
    · exact .same rfl
    · exact .same rfl
  | updateWallet bearer k dto =>
    refine signedIn_change fun owner howner => findOne_change howner fun w hid haccess => ?_
    subst hid
    exact .updated bearer owner w dto rfl haccess rfl
  | disconnectWallet bearer k =>
    refine signedIn_change fun owner howner => findOne_change howner fun w hid haccess => ?_
    subst hid
    exact .disconnected bearer owner w rfl haccess rfl

/-! ### What they leave -/

lemma titles_updateWhere {p : UserWallet → Bool} {f : UserWallet → UserWallet}
    (h : ∀ w, (f w).title = w.title) (l : List UserWallet) :
    (updateWhere p f l).map UserWallet.title = l.map UserWallet.title := by
  rw [updateWhere, List.map_map]
  refine List.map_congr_left fun w _ => ?_
  show (if p w = true then f w else w).title = w.title
  split_ifs
  · exact h w
  · rfl

lemma demote_titles (isPrimary : Option Bool) (k : String) :
    (WalletsService.demote isPrimary k d).titles = d.titles := by
  rw [WalletsService.demote]
  split_ifs
  · exact titles_updateWhere (f := fun w => { w with isPrimary := false }) (fun _ => rfl) d.wallets
  · rfl

lemma WalletChange.effect (h : WalletChange lib x r d d') : WalletEffect lib x r d d' := by
  cases h with
  | same h => exact .same (congrArg (List.map UserWallet.title) h)
  | touched p f h htitle =>
    refine .same ?_
    rw [Server.titles, h, titles_updateWhere htitle]
    rfl
  | registered dto hr hreg h =>
    refine .registered dto hr hreg ?_
    rw [Server.titles, h, List.map_append]
    rfl
  | connected owner dto hconnects h =>
    refine .connected owner dto hconnects ?_
    rw [Server.titles, h, List.map_append]
    exact congrArg (· ++ _) (demote_titles dto.isPrimary owner.id)
  | updated bearer owner wallet dto hr haccess h =>
    refine .same ?_
    rw [Server.titles, h, titles_updateWhere (f := WalletsService.updated dto) fun _ => rfl]
    exact demote_titles dto.isPrimary wallet.userId
  | disconnected bearer owner wallet hr haccess h =>
    refine .same ?_
    rw [Server.titles, h, titles_updateWhere (f := WalletsService.disconnected) fun _ => rfl]
    rfl

/-- **Effects on the wallets.** -/
theorem handle_walletEffect (lib : Libraries) (x : Chance) (production : Bool) (r : AccountRequest)
    (d : Server) : WalletEffect lib x r d (handle lib x production r d).1 :=
  (handle_walletChange lib x production r d).effect

end Lemmas

end PayEra.Api.Accounts
