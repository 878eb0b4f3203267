import PayEra.Api.Forgery
import PayEra.Api.WalletEffects

/-!
# What a request does to the stored refresh hashes

A row of a user keeps its id, and once deleted it stays so. Its hash stays, is cleared, or becomes that
of a refresh token that the request hands out for the user.
-/

namespace PayEra.Api.Accounts

section Effects

variable (lib : Libraries) (x : Chance)

/-- The request is answered by tokens for the user, or it is a refresh by a user who may. -/
inductive Gives (r : AccountRequest) (d : Server) (answer : Except Failure Answer) (id : String) : Prop
  where
  | login (auth : Tokens) (user : User) (wallet : UserWallet)
      (h : answer = .ok (.login auth user wallet)) (hid : user.id = id)
  | demo (auth : Tokens) (user : User) (h : answer = .ok (.mockLogin auth user)) (hid : user.id = id)
  | refresh (token : String) (hr : r = .account (.refresh token)) (h : Refreshable d id)

/-- The hash of a refresh token that is signed now. -/
def FreshHash (id : String) (hashed : Option String) : Prop :=
  ∃ role, hashed = some (lib.hash (lib.sign .refresh ⟨id, role⟩ x.now) x.salt)

variable (r : AccountRequest) (d : Server) (answer : Except Failure Answer)

structure RowStep (u u' : User) : Prop where
  id : u'.id = u.id
  deletedAt : u'.deletedAt = none → u.deletedAt = none
  hash : u'.hashedRefreshToken = u.hashedRefreshToken ∨ u'.hashedRefreshToken = none ∨
    Gives r d answer u.id ∧ FreshHash lib x u.id u'.hashedRefreshToken

inductive UserEffect (d' : Server) : Prop where
  | rows (f : User → User) (h : d'.users = d.users.map f)
      (hf : ∀ u ∈ d.users, RowStep lib x r d answer u (f u))
  | created (u : User) (h : d'.users = d.users ++ [u]) (hid : u.id = x.userId)
      (hnew : ∀ v ∈ d.users, v.id ≠ u.id)
      (hash : u.hashedRefreshToken = none ∨
        Gives r d answer u.id ∧ FreshHash lib x u.id u.hashedRefreshToken)

end Effects

section Lemmas

variable {lib : Libraries} {x : Chance} {r : AccountRequest} {d e : Server}
  {answer : Except Failure Answer} {f : User → User} {production : Bool} {o : Outcome}

lemma RowStep.refl (u : User) : RowStep lib x r d answer u u :=
  ⟨rfl, fun h => h, .inl rfl⟩

lemma userEffect_same (h : e.users = d.users) : UserEffect lib x r d answer e := by
  refine .rows (fun u => u) ?_ fun u _ => .refl u
  rw [h, List.map_id']

/-- A row whose hash is kept. -/
lemma userEffect_updateUser {k : String} (h : e.users = updateWhere (fun u => u.id = k) f d.users)
    (hid : ∀ u, (f u).id = u.id)
    (hdeleted : ∀ u, (f u).deletedAt = none → u.deletedAt = none)
    (hhash : ∀ u, (f u).hashedRefreshToken = u.hashedRefreshToken ∨ (f u).hashedRefreshToken = none) :
    UserEffect lib x r d answer e := by
  refine .rows _ h fun u _ => ?_
  simp only
  split_ifs
  · exact ⟨hid u, hdeleted u, (hhash u).imp_right Or.inl⟩
  · exact .refl u

/-- `generateTokens` after an update of the row of its user. -/
lemma userEffect_generateTokens {k : String} {role : UserRole} {next : Tokens → Server → Outcome}
    (h : e.users = updateWhere (fun u => u.id = k) f d.users)
    (hid : ∀ u, (f u).id = u.id)
    (hdeleted : ∀ u, (f u).deletedAt = none → u.deletedAt = none)
    (hhash : ∀ u, (f u).hashedRefreshToken = u.hashedRefreshToken)
    (hnext : ∀ auth d, (next auth d).1.users = d.users)
    (hgives : ∀ auth d', e.findUser k ≠ none → Gives r d (next auth d').2 k) :
    UserEffect lib x r d (AuthService.generateTokens lib x k role e next).2
      (AuthService.generateTokens lib x k role e next).1 := by
  simp only [AuthService.generateTokens]
  cases hfind : e.findUser k with
  | none => exact userEffect_updateUser h hid hdeleted fun u => .inl (hhash u)
  | some u =>
    let hashed := some (lib.hash (lib.sign .refresh ⟨k, role⟩ x.now) x.salt)
    refine .rows (fun u => if u.id = k then { f u with hashedRefreshToken := hashed } else u) ?_
      fun u _ => ?_
    · simp only [hnext, Server.updateUser, h, updateWhere, List.map_map]
      refine List.map_congr_left fun u _ => ?_
      by_cases hu : u.id = k
      · simp [hu, hid, hashed]
      · simp [hu]
    · simp only
      split_ifs with hu
      · subst hu
        refine ⟨hid u, hdeleted u, .inr (.inr ⟨hgives _ _ ?_, role, rfl⟩)⟩
        rw [hfind]
        exact Option.some_ne_none _
      · exact .refl u

/-- `generateTokens` for a user who has just been created. -/
lemma userEffect_created {u : User} {next : Tokens → Server → Outcome} (hid : u.id = x.userId)
    (hfree : d.free u = true) (h : e.users = d.users ++ [u])
    (hnext : ∀ auth d, (next auth d).1.users = d.users)
    (hgives : ∀ auth d', Gives r d (next auth d').2 u.id) :
    UserEffect lib x r d (AuthService.generateTokens lib x u.id u.role e next).2
      (AuthService.generateTokens lib x u.id u.role e next).1 := by
  have hnew : ∀ v ∈ d.users, v.id ≠ u.id := by
    simp only [Server.free, Bool.and_eq_true, Option.isNone_iff_eq_none, Server.findUser,
      List.find?_eq_none] at hfree
    exact fun v hv => by simpa using hfree.1.1.1 v hv
  have hfind : e.findUser u.id = some u := by
    rw [Server.findUser, h, List.find?_append, List.find?_eq_none.mpr (by simpa using hnew)]
    simp
  simp only [AuthService.generateTokens, hfind]
  let hashed := some (lib.hash (lib.sign .refresh ⟨u.id, u.role⟩ x.now) x.salt)
  refine .created { u with hashedRefreshToken := hashed } ?_ hid hnew
    (.inr ⟨hgives _ _, u.role, rfl⟩)
  simp only [hnext, Server.updateUser, h, updateWhere, List.map_append, List.map_singleton]
  congr 1
  conv_rhs => rw [← List.map_id' d.users]
  refine List.map_congr_left fun v hv => ?_
  simp [hnew v hv]

lemma userEffect_updateRow {k : String} (hid : ∀ u, (f u).id = u.id)
    (hdeleted : ∀ u, (f u).deletedAt = none → u.deletedAt = none)
    (hhash : ∀ u, (f u).hashedRefreshToken = u.hashedRefreshToken) :
    UserEffect lib x r d answer (UsersService.updateRow k f d).1 := by
  rcases updateRow_cases k f d with hrow | ⟨u, -, hrow⟩
  · rw [hrow]
    exact userEffect_same rfl
  · rw [hrow]
    exact userEffect_updateUser rfl hid hdeleted fun u => .inl (hhash u)

lemma userEffect_adminOnly {u : UserRequest} {next : Outcome}
    (h : UserEffect lib x r d answer next.1) :
    UserEffect lib x r d answer (adminOnly lib x u d next).1 := by
  rw [adminOnly, authenticated]
  cases principal lib x u with
  | none => exact userEffect_same rfl
  | some a =>
    simp only
    split_ifs
    · exact h
    · exact userEffect_same rfl

lemma userEffect_signedIn {q : AccountRequest} {next : Principal → Outcome}
    (h : ∀ a, UserEffect lib x r d answer (next a).1) :
    UserEffect lib x r d answer (signedIn lib x q d next).1 := by
  rw [signedIn]
  cases caller lib x q with
  | none => exact userEffect_same rfl
  | some a => exact h a

lemma userEffect_walletLogin (dto : WalletLoginDto) :
    UserEffect lib x r d (AuthService.walletLogin lib x dto d).2
      (AuthService.walletLogin lib x dto d).1 := by
  rw [AuthService.walletLogin]
  split_ifs with hholds
  · cases hsigned : AuthService.isValidSignature lib dto with
    | error message => exact userEffect_same rfl
    | ok valid =>
      cases valid with
      | false => exact userEffect_same rfl
      | true =>
        cases hwallet : (d.consume dto.nonce).findWallet dto.network
            (AuthService.normalizeWalletAddress lib dto.address) with
        | some wallet =>
          simp only [hwallet, AuthService.loginKnown]
          cases hfind : (d.consume dto.nonce).findUser wallet.userId with
          | none => exact userEffect_same rfl
          | some before =>
            have hid : before.id = wallet.userId := id_of_findUser hfind
            refine userEffect_generateTokens (k := before.id) (f := AuthService.loggedIn x) ?_
              (fun _ => rfl) (fun _ h => h) (fun _ => rfl) (fun _ _ => rfl) fun auth d' _ =>
                .login auth (AuthService.loggedIn x before) wallet rfl rfl
            rw [hid]
            rfl
        | none =>
          simp only [hwallet, AuthService.loginUnknown]
          split_ifs with hfree
          · exact userEffect_created rfl hfree rfl (fun _ _ => rfl) fun auth d' =>
              .login auth _ _ rfl rfl
          · exact userEffect_same rfl
  · exact userEffect_same rfl

lemma userEffect_refreshToken (token : String) (hr : r = .account (.refresh token)) :
    UserEffect lib x r d (AuthService.refreshToken lib x token d).2
      (AuthService.refreshToken lib x token d).1 := by
  rcases refreshToken_cases lib x token d with
    ⟨e, h⟩ | ⟨user, hashed, hfinds, hcompare | ⟨hcompare, hverifies⟩⟩
  · rw [h]
    exact userEffect_same rfl
  · rw [hfinds.mismatch hcompare]
    exact userEffect_updateUser rfl (fun _ => rfl) (fun _ h => h) fun _ => .inr rfl
  · rw [hfinds.accepted hcompare hverifies]
    refine userEffect_generateTokens (f := fun u => u) ?_ (fun _ => rfl) (fun _ h => h) (fun _ => rfl)
      (fun _ _ => rfl) fun _ _ _ => .refresh token hr hfinds.refreshable
    simp [updateWhere]

lemma userEffect_demoLogin (dto : MockLoginDto) :
    UserEffect lib x r d (AuthService.demoLogin lib x dto d).2
      (AuthService.demoLogin lib x dto d).1 := by
  rw [AuthService.demoLogin]
  by_cases hnone : dto.email = none ∧ dto.phoneE164 = none
  · rw [if_pos hnone]
    exact userEffect_same rfl
  · rw [if_neg hnone]
    cases hcontact : AuthService.findContact lib x dto d with
    | some user =>
      exact userEffect_generateTokens (k := user.id) (f := AuthService.demoLoggedIn x dto) rfl
        (fun _ => rfl) (fun _ h => h) (fun _ => rfl) (fun _ _ => rfl) fun auth d' _ =>
          .demo auth (AuthService.demoLoggedIn x dto user) rfl rfl
    | none =>
      by_cases hfree : d.free (AuthService.demoUser lib x dto) = true
      · simp only [if_pos hfree]
        exact userEffect_created rfl hfree rfl (fun _ _ => rfl) fun auth d' =>
          .demo auth (AuthService.demoUser lib x dto) rfl rfl
      · simp only [if_neg hfree]
        exact userEffect_same rfl

lemma userEffect_serve (u : UserRequest) :
    UserEffect lib x (.account u) d (serve lib x u d).2 (serve lib x u d).1 := by
  cases u with
  | mockLogin => exact userEffect_same rfl
  | walletChallenge dto => exact userEffect_same rfl
  | walletLogin dto => exact userEffect_walletLogin dto
  | refresh token => exact userEffect_refreshToken token rfl
  | deleteAccount bearer =>
    generalize (serve lib x (.deleteAccount bearer) d).2 = answer
    rw [serve, authenticated]
    cases principal lib x (.deleteAccount bearer) with
    | none => exact userEffect_same rfl
    | some a =>
      simp only [UsersService.deleteAccount]
      rcases updateRow_cases a.id (UsersService.erased x) d with h | ⟨u, -, h⟩
      · rw [h]
        exact userEffect_same rfl
      · rw [h]
        exact userEffect_updateUser (f := UsersService.erased x) rfl (fun _ => rfl)
          (by simp [UsersService.erased]) fun _ => .inl rfl
  | create bearer dto =>
    refine userEffect_adminOnly ?_
    rw [UsersService.create]
    split_ifs with hnone
    · exact userEffect_same rfl
    · by_cases hfree : d.free (UsersService.newUser lib x dto) = true
      · rw [if_pos hfree]
        refine .created (UsersService.newUser lib x dto) rfl rfl (fun v hv => ?_) (.inl rfl)
        simp only [Server.free, Bool.and_eq_true, Option.isNone_iff_eq_none, Server.findUser,
          List.find?_eq_none] at hfree
        simpa using hfree.1.1.1 v hv
      · rw [if_neg hfree]
        exact userEffect_same rfl
  | update bearer k dto =>
    refine userEffect_adminOnly ?_
    rw [UsersService.update]
    split_ifs
    · exact userEffect_same rfl
    · exact userEffect_updateRow (f := UsersService.updated lib dto) (fun _ => rfl) (fun _ h => h)
        fun _ => rfl
  | activate bearer k =>
    exact userEffect_adminOnly (userEffect_updateRow (fun _ => rfl) (fun _ h => h) fun _ => rfl)
  | suspend bearer k =>
    exact userEffect_adminOnly (userEffect_updateRow (fun _ => rfl) (fun _ h => h) fun _ => rfl)
  | softDelete bearer k =>
    refine userEffect_adminOnly ?_
    rw [UsersService.softDelete]
    rcases updateRow_cases k (fun u => { u with deletedAt := some x.now, status := .DELETED }) d with
      h | ⟨u, -, h⟩
    · rw [h]
      exact userEffect_same rfl
    · rw [h]
      exact userEffect_updateUser rfl (fun _ => rfl) (by simp) fun _ => .inl rfl

/-- **Effects on the users' rows.** -/
theorem handle_userEffect (lib : Libraries) (x : Chance) (production : Bool) (r : AccountRequest)
    (d : Server) :
    UserEffect lib x r d (handle lib x production r d).2 (handle lib x production r d).1 := by
  cases r with
  | account u => exact userEffect_serve u
  | demoLogin dto =>
    cases production with
    | true => exact userEffect_same rfl
    | false => exact userEffect_demoLogin dto
  | updateUserStatus bearer k status =>
    refine userEffect_signedIn fun a => ?_
    split_ifs
    · rw [AdminService.updateUserStatus]
      split
      · exact userEffect_same rfl
      · exact userEffect_updateUser rfl (fun _ => rfl) (fun _ h => h) fun _ => .inl rfl
    · exact userEffect_same rfl
  | createWallet bearer dto =>
    refine userEffect_signedIn fun owner => ?_
    rw [WalletsService.create]
    split_ifs
    · exact userEffect_same (demote_users dto.isPrimary owner.id)
    · exact userEffect_same rfl
    · exact userEffect_same rfl
  | updateWallet bearer k dto =>
    refine userEffect_signedIn fun owner => ?_
    rw [WalletsService.update, WalletsService.findOne]
    split
    · exact userEffect_same rfl
    · split_ifs
      · exact userEffect_same (demote_users _ _)
      · exact userEffect_same rfl
  | disconnectWallet bearer k =>
    refine userEffect_signedIn fun owner => ?_
    rw [WalletsService.disconnect, WalletsService.findOne]
    split
    · exact userEffect_same rfl
    · split_ifs
      · exact userEffect_same rfl
      · exact userEffect_same rfl

end Lemmas

end PayEra.Api.Accounts
