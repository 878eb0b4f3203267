import PayEra.Api.Accounts
import PayEra.Lib.Transition

/-!
# Who becomes an admin

What a request does to the roles of the users and to the tokens is one of five effects. A role that is
not copied from somebody's login is the role of a row, or one that an admin asked for.
-/

namespace PayEra.Api.Accounts

open Transition

/-- The users with their roles. -/
def Server.roles (d : Server) : List (String × UserRole) := d.users.map fun u => (u.id, u.role)

section Tables

variable {d : Server} {id : String} {f : User → User} {u : User}

lemma mem_roles {role : UserRole} :
    (id, role) ∈ d.roles ↔ ∃ u ∈ d.users, u.id = id ∧ u.role = role := by
  simp [Server.roles]

lemma id_of_findUser (h : d.findUser id = some u) : u.id = id := by
  simpa using List.find?_some h

lemma mem_roles_of_findUser (h : d.findUser id = some u) : (id, u.role) ∈ d.roles :=
  mem_roles.mpr ⟨u, List.mem_of_find?_eq_some h, id_of_findUser h, rfl⟩

lemma roles_updateUser (hid : ∀ u, (f u).id = u.id) {g : UserRole → UserRole}
    (hrole : ∀ u, (f u).role = g u.role) :
    (d.updateUser id f).roles = d.roles.map fun p => if p.1 = id then (p.1, g p.2) else p := by
  rw [Server.roles, Server.updateUser, Server.roles, updateWhere, List.map_map, List.map_map]
  refine List.map_congr_left fun u _ => ?_
  by_cases h : u.id = id
  · simp [h, hid, hrole]
  · simp [h]

lemma roles_updateUser_same (hid : ∀ u, (f u).id = u.id) (hrole : ∀ u, (f u).role = u.role) :
    (d.updateUser id f).roles = d.roles := by
  rw [roles_updateUser (g := fun role => role) hid hrole]
  simp

lemma findUser_updateUser (hid : ∀ u, (f u).id = u.id) :
    (d.updateUser id f).findUser id = (d.findUser id).map f := by
  have h : (d.updateUser id f).findUser id = _ := find?_updateWhere_key hid id id
  simp only [if_true] at h
  exact h

lemma findUser_createUser (h : d.free u = true) : (d.createUser u).findUser u.id = some u := by
  have hnone : d.findUser u.id = none := by
    simp only [Server.free, Bool.and_eq_true, Option.isNone_iff_eq_none] at h
    exact h.1.1.1
  rw [Server.findUser] at hnone
  rw [Server.findUser, Server.createUser, List.find?_append, hnone]
  simp

/-- A user that is created is new. -/
lemma not_mem_roles_of_free (h : d.free u = true) (role : UserRole) : (u.id, role) ∉ d.roles := by
  simp only [Server.free, Bool.and_eq_true, Option.isNone_iff_eq_none, Server.findUser,
    List.find?_eq_none] at h
  intro hmem
  obtain ⟨v, hv, hid, -⟩ := mem_roles.mp hmem
  exact h.1.1.1 v hv (decide_eq_true hid)

end Tables

/-! ### Effects -/

section Effects

variable (lib : Libraries) (x : Chance)

/-- A login that creates its user: the nonce is good, the signature verifies, the wallet is unknown,
and the new row violates no constraint. -/
structure Registers (dto : WalletLoginDto) (d : Server) : Prop where
  holds : d.holds dto.nonce x.now = true
  signed : AuthService.isValidSignature lib dto = .ok true
  unknown : d.findWallet dto.network (AuthService.normalizeWalletAddress lib dto.address) = none
  free : d.free (AuthService.newUser x dto) = true

/-- The role that a request to the users controller asks for. -/
def UserRequest.grants : UserRequest → Option UserRole
  | .create _ dto => dto.role
  | .update _ _ dto => dto.role
  | _ => none

/-- An admin has created or updated a user. -/
structure Administered (r : UserRequest) (d : Server) (user : User) : Prop where
  admin : ∃ a, principal lib x r = some a ∧ a.role = .ADMIN
  answer : (serve lib x r d).2 = .ok (.user user)

/-- The tokens of one user. -/
def tokensOf (payload : JwtPayload) : List Issued :=
  [⟨.access, payload, lib.sign .access payload x.now⟩,
    ⟨.refresh, payload, lib.sign .refresh payload x.now⟩]

/-- What a request does to the roles and the tokens. -/
inductive Effect (r : UserRequest) (d d' : Server) : Prop where
  | same (hroles : d'.roles = d.roles) (hissued : d'.issued = d.issued)
  | refreshed (payload : JwtPayload) (hmem : (payload.sub, payload.role) ∈ d.roles)
      (hroles : d'.roles = d.roles) (hissued : d'.issued = d.issued ++ tokensOf lib x payload)
  | registered (dto : WalletLoginDto) (hr : r = .walletLogin dto) (h : Registers lib x dto d)
      (hroles : d'.roles = d.roles ++ [(x.userId, dto.role.getD .CONSUMER)])
      (hissued : d'.issued = d.issued ++ tokensOf lib x ⟨x.userId, dto.role.getD .CONSUMER⟩)
  | created (user : User) (h : Administered lib x r d user)
      (hrole : user.role = r.grants.getD .CONSUMER)
      (hroles : d'.roles = d.roles ++ [(user.id, user.role)]) (hissued : d'.issued = d.issued)
  | updated (user : User) (h : Administered lib x r d user)
      (hmem : ∃ role, (user.id, role) ∈ d.roles)
      (hroles : d'.roles =
        d.roles.map fun p => if p.1 = user.id then (p.1, r.grants.getD p.2) else p)
      (hissued : d'.issued = d.issued)

variable {lib x} {r : UserRequest} {d d' : Server} {id : String} {role : UserRole}

lemma generateTokens_of_findUser {u : User} {next : Tokens → Server → Outcome}
    (role : UserRole) (h : d.findUser id = some u)
    (hnext : ∀ auth d, (next auth d).1.users = d.users ∧ (next auth d).1.issued = d.issued) :
    (AuthService.generateTokens lib x id role d next).1.roles = d.roles ∧
      (AuthService.generateTokens lib x id role d next).1.issued =
        d.issued ++ tokensOf lib x ⟨id, role⟩ := by
  simp only [AuthService.generateTokens, h]
  refine ⟨?_, (hnext _ _).2⟩
  rw [Server.roles, (hnext _ _).1]
  exact roles_updateUser_same (fun _ => rfl) fun _ => rfl

/-- Tokens for the role of a row. -/
lemma effect_generateTokens {next : Tokens → Server → Outcome} (hmem : (id, role) ∈ d.roles)
    (hroles : d'.roles = d.roles) (hissued : d'.issued = d.issued)
    (hnext : ∀ auth d, (next auth d).1.users = d.users ∧ (next auth d).1.issued = d.issued) :
    Effect lib x r d (AuthService.generateTokens lib x id role d' next).1 := by
  cases hfind : d'.findUser id with
  | none =>
    simp only [AuthService.generateTokens, hfind]
    exact .same hroles hissued
  | some u =>
    obtain ⟨htokens, hgiven⟩ := generateTokens_of_findUser role hfind hnext
    exact .refreshed ⟨id, role⟩ hmem (htokens.trans hroles) (hgiven.trans (by rw [hissued]))

lemma effect_loginKnown {dto : WalletLoginDto} (wallet : UserWallet) (nonce : String) :
    Effect lib x r d (AuthService.loginKnown lib x dto wallet (d.consume nonce)).1 := by
  rw [AuthService.loginKnown]
  cases hfind : (d.consume nonce).findUser wallet.userId with
  | none => exact .same rfl rfl
  | some before =>
    have hmem : (before.id, before.role) ∈ d.roles := by
      rw [id_of_findUser hfind]
      exact mem_roles_of_findUser hfind
    refine effect_generateTokens hmem ?_ rfl fun _ _ => ⟨rfl, rfl⟩
    exact roles_updateUser_same (f := AuthService.loggedIn x) (fun _ => rfl) fun _ => rfl

/-- A login with an unknown wallet creates the user and gives it its tokens. -/
lemma loginUnknown_of_free {dto : WalletLoginDto} (h : d.free (AuthService.newUser x dto) = true) :
    (AuthService.loginUnknown lib x dto d).1.roles =
        d.roles ++ [(x.userId, dto.role.getD .CONSUMER)] ∧
      (AuthService.loginUnknown lib x dto d).1.issued =
        d.issued ++ tokensOf lib x ⟨x.userId, dto.role.getD .CONSUMER⟩ := by
  have hfind : ((d.createUser (AuthService.newUser x dto)).createWallet
      (AuthService.newWallet lib x dto)).findUser (AuthService.newUser x dto).id = some _ :=
    findUser_createUser h
  rw [AuthService.loginUnknown, if_pos h]
  constructor
  · refine (generateTokens_of_findUser _ hfind fun _ _ => ⟨rfl, rfl⟩).1.trans ?_
    simp [Server.roles, Server.createWallet, Server.createUser, AuthService.newUser]
  · exact (generateTokens_of_findUser _ hfind fun _ _ => ⟨rfl, rfl⟩).2

lemma walletLogin_of_registers {dto : WalletLoginDto} (h : Registers lib x dto d) :
    AuthService.walletLogin lib x dto d =
      AuthService.loginUnknown lib x dto (d.consume dto.nonce) := by
  have hwallet : (d.consume dto.nonce).findWallet dto.network
      (AuthService.normalizeWalletAddress lib dto.address) = none := h.unknown
  simp only [AuthService.walletLogin, h.holds, if_true, h.signed, hwallet]

lemma effect_registers {dto : WalletLoginDto} (h : Registers lib x dto d) :
    Effect lib x (.walletLogin dto) d (AuthService.walletLogin lib x dto d).1 := by
  have hfree : (d.consume dto.nonce).free (AuthService.newUser x dto) = true := h.free
  obtain ⟨hroles, hissued⟩ := loginUnknown_of_free hfree
  rw [walletLogin_of_registers h]
  exact .registered dto rfl h hroles hissued

lemma effect_walletLogin (dto : WalletLoginDto) :
    Effect lib x (.walletLogin dto) d (AuthService.walletLogin lib x dto d).1 := by
  by_cases hreg : Registers lib x dto d
  · exact effect_registers hreg
  · rw [AuthService.walletLogin]
    split_ifs with hholds
    · cases hsigned : AuthService.isValidSignature lib dto with
      | error message => exact .same rfl rfl
      | ok valid =>
        cases valid with
        | false => exact .same rfl rfl
        | true =>
          cases hwallet : (d.consume dto.nonce).findWallet dto.network
              (AuthService.normalizeWalletAddress lib dto.address) with
          | some wallet =>
            simp only [hwallet]
            exact effect_loginKnown wallet dto.nonce
          | none =>
            have hfree : ¬(d.consume dto.nonce).free (AuthService.newUser x dto) = true :=
              fun hfree => hreg ⟨hholds, hsigned, hwallet, hfree⟩
            simp only [hwallet, AuthService.loginUnknown, if_neg hfree]
            exact .same rfl rfl
    · exact .same rfl rfl

lemma effect_refreshToken (token : String) :
    Effect lib x r d (AuthService.refreshToken lib x token d).1 := by
  rw [AuthService.refreshToken]
  split
  · exact .same rfl rfl
  · split
    · exact .same rfl rfl
    · rename_i p _ user hfind
      split
      · exact .same rfl rfl
      · split_ifs
        · split
          · exact .same rfl rfl
          · have hmem : (user.id, user.role) ∈ d.roles :=
              mem_roles.mpr ⟨user, x.scan.mem_of_find? hfind, rfl, rfl⟩
            exact effect_generateTokens hmem rfl rfl fun _ _ => ⟨rfl, rfl⟩
        · exact .same (roles_updateUser_same (fun _ => rfl) fun _ => rfl) rfl

/-- A request to the users controller is turned away or comes from an admin. -/
lemma effect_adminOnly {next : Outcome} (hserve : serve lib x r d = adminOnly lib x r d next)
    (h : (∃ a, principal lib x r = some a ∧ a.role = .ADMIN) → serve lib x r d = next →
      Effect lib x r d next.1) :
    Effect lib x r d (serve lib x r d).1 := by
  rw [adminOnly, authenticated] at hserve
  cases ha : principal lib x r with
  | none =>
    simp only [ha] at hserve
    rw [hserve]
    exact .same rfl rfl
  | some a =>
    simp only [ha] at hserve
    by_cases hadmin : a.role = .ADMIN
    · rw [if_pos hadmin] at hserve
      have heffect := h ⟨a, ha, hadmin⟩ hserve
      rw [hserve]
      exact heffect
    · rw [if_neg hadmin] at hserve
      rw [hserve]
      exact .same rfl rfl

lemma updateRow_cases (id : String) (data : User → User) (d : Server) :
    UsersService.updateRow id data d = (d, .error .recordNotFound) ∨
      ∃ user, d.findUser id = some user ∧
        UsersService.updateRow id data d = (d.updateUser id data, .ok (.user (data user))) := by
  rw [UsersService.updateRow]
  cases d.findUser id with
  | none => exact .inl rfl
  | some user => exact .inr ⟨user, rfl, rfl⟩

/-- Updates that keep the roles. -/
lemma effect_updateRow {data : User → User} (hid : ∀ u, (data u).id = u.id)
    (hrole : ∀ u, (data u).role = u.role) :
    Effect lib x r d (UsersService.updateRow id data d).1 := by
  rcases updateRow_cases id data d with h | ⟨user, -, h⟩
  · rw [h]
    exact .same rfl rfl
  · rw [h]
    exact .same (roles_updateUser_same hid hrole) rfl

lemma effect_softDelete : Effect lib x r d (UsersService.softDelete x id d).1 := by
  rw [UsersService.softDelete]
  rcases updateRow_cases id (fun u => { u with deletedAt := some x.now, status := .DELETED }) d with
    h | ⟨user, -, h⟩
  · rw [h]
    exact .same rfl rfl
  · rw [h]
    exact .same (roles_updateUser_same (fun _ => rfl) fun _ => rfl) rfl

lemma effect_deleteAccount : Effect lib x r d (UsersService.deleteAccount x id d).1 := by
  rw [UsersService.deleteAccount]
  rcases updateRow_cases id (UsersService.erased x) d with h | ⟨user, -, h⟩
  · rw [h]
    exact .same rfl rfl
  · rw [h]
    exact .same (roles_updateUser_same (f := UsersService.erased x) (fun _ => rfl) fun _ => rfl) rfl

lemma effect_create {bearer : String} {dto : CreateUserDto} :
    Effect lib x (.create bearer dto) d (serve lib x (.create bearer dto) d).1 := by
  refine effect_adminOnly rfl fun hadmin hserve => ?_
  rw [UsersService.create] at hserve ⊢
  by_cases hnone : dto.email = none ∧ dto.phoneE164 = none
  · rw [if_pos hnone]
    exact .same rfl rfl
  · rw [if_neg hnone] at hserve ⊢
    by_cases hfree : d.free (UsersService.newUser lib x dto) = true
    · rw [if_pos hfree] at hserve ⊢
      refine .created (UsersService.newUser lib x dto) ⟨hadmin, by rw [hserve]⟩ rfl ?_ rfl
      simp [Server.roles, Server.createUser]
    · rw [if_neg hfree]
      exact .same rfl rfl

lemma effect_update {bearer : String} {dto : UpdateUserDto} :
    Effect lib x (.update bearer id dto) d (serve lib x (.update bearer id dto) d).1 := by
  refine effect_adminOnly rfl fun hadmin hserve => ?_
  rw [UsersService.update] at hserve ⊢
  split_ifs at hserve ⊢ with htaken
  · exact .same rfl rfl
  · rcases updateRow_cases id (UsersService.updated lib dto) d with h | ⟨user, huser, h⟩
    · rw [h]
      exact .same rfl rfl
    · rw [h] at hserve ⊢
      have hid : (UsersService.updated lib dto user).id = id := by
        have huser' : user.id = id := id_of_findUser huser
        exact huser'
      refine .updated _ ⟨hadmin, by rw [hserve]⟩ ⟨user.role, ?_⟩ ?_ rfl
      · rw [hid]
        exact mem_roles_of_findUser huser
      · rw [hid]
        exact roles_updateUser (f := UsersService.updated lib dto)
          (g := fun role => dto.role.getD role) (fun _ => rfl) fun _ => rfl

lemma serve_of_administered {next : Outcome} {user : User}
    (hserve : serve lib x r d = adminOnly lib x r d next) (h : Administered lib x r d user) :
    serve lib x r d = next := by
  obtain ⟨a, ha, hadmin⟩ := h.admin
  rw [hserve, adminOnly, authenticated, ha]
  exact if_pos hadmin

/-- The user that an admin creates or updates is in the table. -/
lemma Administered.mem_roles {user : User} (h : Administered lib x r d user)
    (hgrants : r.grants = some role) : (user.id, user.role) ∈ (serve lib x r d).1.roles := by
  cases r with
  | create bearer dto =>
    have hserve := serve_of_administered rfl h
    have hanswer := h.answer
    rw [hserve, UsersService.create] at hanswer
    rw [hserve, UsersService.create]
    by_cases hnone : dto.email = none ∧ dto.phoneE164 = none
    · rw [if_pos hnone] at hanswer
      cases hanswer
    · rw [if_neg hnone] at hanswer ⊢
      by_cases hfree : d.free (UsersService.newUser lib x dto) = true
      · rw [if_pos hfree] at hanswer ⊢
        cases hanswer
        exact Accounts.mem_roles.mpr
          ⟨_, List.mem_append_right _ (List.mem_singleton_self _), rfl, rfl⟩
      · rw [if_neg hfree] at hanswer
        cases hanswer
  | update bearer id dto =>
    have hserve := serve_of_administered rfl h
    have hanswer := h.answer
    rw [hserve, UsersService.update] at hanswer
    rw [hserve, UsersService.update]
    split_ifs at hanswer ⊢ with htaken
    rcases updateRow_cases id (UsersService.updated lib dto) d with hrow | ⟨u, hu, hrow⟩
    · rw [hrow] at hanswer
      cases hanswer
    · rw [hrow] at hanswer ⊢
      cases hanswer
      have hfind : (d.updateUser id (UsersService.updated lib dto)).findUser id = _ :=
        findUser_updateUser fun _ => rfl
      rw [hu, Option.map_some] at hfind
      exact Accounts.mem_roles.mpr ⟨_, List.mem_of_find?_eq_some hfind, rfl, rfl⟩
  | _ => cases hgrants

/-- **Effects.** -/
theorem serve_effect (lib : Libraries) (x : Chance) (r : UserRequest) (d : Server) :
    Effect lib x r d (serve lib x r d).1 := by
  cases r with
  | mockLogin => exact .same rfl rfl
  | walletChallenge dto => exact .same rfl rfl
  | walletLogin dto => exact effect_walletLogin dto
  | refresh token => exact effect_refreshToken token
  | deleteAccount bearer =>
    rw [serve, authenticated]
    cases principal lib x (.deleteAccount bearer) with
    | none => exact .same rfl rfl
    | some a => exact effect_deleteAccount
  | create bearer dto => exact effect_create
  | update bearer id dto => exact effect_update
  | activate bearer id =>
    exact effect_adminOnly rfl fun _ _ => effect_updateRow (fun _ => rfl) fun _ => rfl
  | suspend bearer id =>
    exact effect_adminOnly rfl fun _ _ => effect_updateRow (fun _ => rfl) fun _ => rfl
  | softDelete bearer id => exact effect_adminOnly rfl fun _ _ => effect_softDelete

end Effects

/-! ### Runs -/

section Runs

variable (lib : Libraries)

/-- Nobody forges a token: an access token that verifies was given to a client, with its payload. -/
def Unforged (x : Chance) (r : UserRequest) (d : Server) : Prop :=
  ∀ bearer payload, r.bearer = some bearer → lib.verify .access x.now bearer = some payload →
    ⟨.access, payload, bearer⟩ ∈ d.issued

/-- Requests one after the other; nobody is logged in at first. -/
def system : System Server (UserRequest × Chance) where
  Init d := d.issued = []
  Step d l d' := Unforged lib l.2 l.1 d ∧ d' = (serve lib l.2 l.1 d).1

abbrev ServerMove := Move Server (UserRequest × Chance)

/-- An authenticated admin has given the user the role of an admin. -/
def Appoints (m : ServerMove) (id : String) : Prop :=
  m.label.1.grants = some .ADMIN ∧
    ∃ user, Administered lib m.label.2 m.label.1 m.pre user ∧ user.id = id

/-- An admin from the start, or by appointment. -/
def Entitled (d₀ : Server) (tr : List ServerMove) (id : String) : Prop :=
  (id, .ADMIN) ∈ d₀.roles ∨ ∃ m ∈ tr, Appoints lib m id

/-- No role has escalated: whoever is an admin, holds a token of an admin, or has passed for an admin
is entitled to it. -/
structure Guarded (d₀ : Server) (tr : List ServerMove) (d : Server) : Prop where
  users : ∀ id, (id, .ADMIN) ∈ d.roles → Entitled lib d₀ tr id
  tokens : ∀ t ∈ d.issued, t.payload.role = .ADMIN → Entitled lib d₀ tr t.payload.sub
  principals : ∀ m ∈ tr, ∀ a, principal lib m.label.2 m.label.1 = some a → a.role = .ADMIN →
    Entitled lib d₀ tr a.id

/-- A login that creates its user asks to be an admin. -/
def Escalates (m : ServerMove) : Prop :=
  ∃ dto, m.label.1 = .walletLogin dto ∧ dto.role = some .ADMIN ∧ Registers lib m.label.2 dto m.pre

variable {lib} {d₀ d d' : Server} {tr tr' : List ServerMove} {l : UserRequest × Chance}
  {m : ServerMove} {id : String} {role : UserRole}

lemma Entitled.append (h : Entitled lib d₀ tr id) (tr' : List ServerMove) :
    Entitled lib d₀ (tr ++ tr') id := by
  rcases h with h | ⟨m, hm, h⟩
  · exact .inl h
  · exact .inr ⟨m, List.mem_append_left _ hm, h⟩

lemma Entitled.last (h : Appoints lib m id) : Entitled lib d₀ (tr ++ [m]) id :=
  .inr ⟨m, List.mem_append_right _ (List.mem_singleton_self _), h⟩

/-- A role that is absent is not the role of an admin. -/
lemma eq_admin_of_getD {role : Option UserRole} (h : role.getD .CONSUMER = .ADMIN) :
    role = some .ADMIN := by
  cases role with
  | none => cases h
  | some role => exact congrArg some h

/-- The roles after a request that does not escalate. -/
lemma Guarded.users_step (h : Guarded lib d₀ tr d) (hstep : (system lib).Step d l d')
    (hm : ¬Escalates lib ⟨d, l, d'⟩) (hid : (id, .ADMIN) ∈ d'.roles) :
    Entitled lib d₀ (tr ++ [⟨d, l, d'⟩]) id := by
  obtain ⟨-, rfl⟩ := hstep
  cases serve_effect lib l.2 l.1 d with
  | same hroles _ | refreshed _ _ hroles _ =>
    rw [hroles] at hid
    exact (h.users id hid).append _
  | registered dto hr hreg hroles _ =>
    rw [hroles, List.mem_append, List.mem_singleton, Prod.mk.injEq] at hid
    rcases hid with hid | ⟨-, hrole⟩
    · exact (h.users id hid).append _
    · exact absurd ⟨dto, hr, eq_admin_of_getD hrole.symm, hreg⟩ hm
  | created user hadm hrole hroles _ =>
    rw [hroles, List.mem_append, List.mem_singleton, Prod.mk.injEq] at hid
    rcases hid with hid | ⟨rfl, hadmin⟩
    · exact (h.users id hid).append _
    · exact .last ⟨eq_admin_of_getD (hrole.symm.trans hadmin.symm), user, hadm, rfl⟩
  | updated user hadm _ hroles _ =>
    rw [hroles, List.mem_map] at hid
    obtain ⟨p, hp, heq⟩ := hid
    by_cases hp₁ : p.1 = user.id
    · rw [if_pos hp₁, Prod.mk.injEq] at heq
      obtain ⟨rfl, hrole⟩ := heq
      cases hgrants : l.1.grants with
      | none =>
        rw [hgrants, Option.getD_none] at hrole
        exact (h.users p.1 (hrole ▸ hp)).append _
      | some role =>
        rw [hgrants, Option.getD_some] at hrole
        exact .last ⟨hgrants.trans (congrArg some hrole), user, hadm, hp₁.symm⟩
    · rw [if_neg hp₁] at heq
      rw [heq] at hp
      exact (h.users id hp).append _

lemma payload_of_mem_tokensOf {x : Chance} {payload : JwtPayload} {t : Issued}
    (h : t ∈ tokensOf lib x payload) : t.payload = payload := by
  simp only [tokensOf, List.mem_cons, List.not_mem_nil, or_false] at h
  rcases h with rfl | rfl
  · rfl
  · rfl

/-- New tokens are for the roles after the request. -/
lemma issued_step (hstep : (system lib).Step d l d') {t : Issued} (ht : t ∈ d'.issued) :
    t ∈ d.issued ∨ (t.payload.sub, t.payload.role) ∈ d'.roles := by
  obtain ⟨-, rfl⟩ := hstep
  cases serve_effect lib l.2 l.1 d with
  | same _ hissued | created _ _ _ _ hissued | updated _ _ _ _ hissued =>
    rw [hissued] at ht
    exact .inl ht
  | refreshed payload hmem hroles hissued =>
    rw [hissued, List.mem_append] at ht
    rcases ht with ht | ht
    · exact .inl ht
    · rw [payload_of_mem_tokensOf ht, hroles]
      exact .inr hmem
  | registered dto _ _ hroles hissued =>
    rw [hissued, List.mem_append] at ht
    rcases ht with ht | ht
    · exact .inl ht
    · rw [payload_of_mem_tokensOf ht, hroles]
      exact .inr (List.mem_append_right _ (List.mem_singleton_self _))

/-- Whoever passes for an admin has been given a token of one. -/
lemma Guarded.principals_step (h : Guarded lib d₀ tr d) (hstep : (system lib).Step d l d')
    {a : Principal} (ha : principal lib l.2 l.1 = some a) (hadmin : a.role = .ADMIN) :
    Entitled lib d₀ tr a.id := by
  rw [principal, Option.map_eq_some_iff] at ha
  obtain ⟨payload, hpayload, rfl⟩ := ha
  obtain ⟨bearer, hbearer, hverify⟩ := Option.bind_eq_some_iff.mp hpayload
  obtain ⟨hunforged, -⟩ := hstep
  exact h.tokens ⟨.access, payload, bearer⟩ (hunforged bearer payload hbearer hverify) hadmin

/-- The run lemma. -/
theorem guarded_of_run (h₀ : (system lib).Init d₀) (h : (system lib).Run d₀ tr d)
    (hall : ∀ m ∈ tr, ¬Escalates lib m) : Guarded lib d₀ tr d := by
  induction h with
  | nil =>
    refine ⟨fun id hid => .inl hid, fun t ht => ?_, fun m hm => absurd hm List.not_mem_nil⟩
    have hissued : d₀.issued = [] := h₀
    rw [hissued] at ht
    exact absurd ht List.not_mem_nil
  | @snoc d d' tr l hrun hstep ih =>
    have hg := ih fun m hm => hall m (List.mem_append_left _ hm)
    have hm := hall ⟨d, l, d'⟩ (List.mem_append_right _ (List.mem_singleton_self _))
    refine ⟨fun id hid => hg.users_step hstep hm hid, fun t ht hadmin => ?_,
      fun m hmem a ha hadmin => ?_⟩
    · rcases issued_step hstep ht with ht | ht
      · exact (hg.tokens t ht hadmin).append _
      · rw [hadmin] at ht
        exact hg.users_step hstep hm ht
    · rcases List.mem_append.mp hmem with hmem | hmem
      · exact (hg.principals m hmem a ha hadmin).append _
      · obtain rfl := List.mem_singleton.mp hmem
        exact (hg.principals_step hstep ha hadmin).append _

/-- A user stays. -/
lemma mem_roles_serve {x : Chance} {r : UserRequest} (h : ∃ role, (id, role) ∈ d.roles) :
    ∃ role, (id, role) ∈ (serve lib x r d).1.roles := by
  obtain ⟨role, h⟩ := h
  cases serve_effect lib x r d with
  | same hroles _ | refreshed _ _ hroles _ => exact ⟨role, hroles ▸ h⟩
  | registered _ _ _ hroles _ | created _ _ _ hroles _ =>
    exact ⟨role, hroles ▸ List.mem_append_left _ h⟩
  | updated user _ _ hroles _ =>
    have hmem := List.mem_map_of_mem (f := fun p : String × UserRole =>
      if p.1 = user.id then (p.1, r.grants.getD p.2) else p) h
    rw [← hroles] at hmem
    by_cases hid : id = user.id
    · simp only [if_pos hid] at hmem
      exact ⟨_, hmem⟩
    · simp only [if_neg hid] at hmem
      exact ⟨_, hmem⟩

lemma roles_mono (hstep : (system lib).Step d l d') (h : ∃ role, (id, role) ∈ d.roles) :
    ∃ role, (id, role) ∈ d'.roles := by
  obtain ⟨-, rfl⟩ := hstep
  exact mem_roles_serve h

lemma roles_of_run (h : (system lib).Run d tr d') (hd : ∃ role, (id, role) ∈ d.roles) :
    ∃ role, (id, role) ∈ d'.roles := by
  induction h with
  | nil => exact hd
  | snoc _ hstep ih => exact roles_mono hstep ih

/-- Whoever is appointed is a user afterwards. -/
lemma roles_of_appoints (hstep : (system lib).Step d l d') (h : Appoints lib ⟨d, l, d'⟩ id) :
    ∃ role, (id, role) ∈ d'.roles := by
  obtain ⟨-, rfl⟩ := hstep
  obtain ⟨hgrants, user, hadm, rfl⟩ := h
  exact ⟨_, hadm.mem_roles hgrants⟩

/-- Whoever is entitled is a user. -/
lemma Entitled.mem_roles (h : Entitled lib d₀ tr id) (hrun : (system lib).Run d₀ tr d) :
    ∃ role, (id, role) ∈ d.roles := by
  rcases h with h | ⟨m, hm, h⟩
  · exact roles_of_run hrun ⟨_, h⟩
  · induction hrun with
    | nil => cases hm
    | @snoc d d' tr l hrun hstep ih =>
      rcases List.mem_append.mp hm with hm | hm
      · exact roles_mono hstep (ih hm)
      · obtain rfl := List.mem_singleton.mp hm
        exact roles_of_appoints hstep h

/-- The user that such a login creates is an admin, and entitled to nothing. -/
lemma not_guarded_of_escalates (hrun : (system lib).Run d₀ tr d) (hstep : (system lib).Step d l d')
    (h : Escalates lib ⟨d, l, d'⟩) : ¬Guarded lib d₀ (tr ++ [⟨d, l, d'⟩]) d' := by
  obtain ⟨dto, hr, hrole, hreg⟩ := h
  intro hg
  have hadmin : (l.2.userId, UserRole.ADMIN) ∈ d'.roles := by
    have hfree : (d.consume dto.nonce).free (AuthService.newUser l.2 dto) = true := hreg.free
    obtain ⟨-, rfl⟩ := hstep
    rw [hr, serve, walletLogin_of_registers hreg, (loginUnknown_of_free hfree).1, hrole]
    exact List.mem_append_right _ (List.mem_singleton_self _)
  have hnew : ∀ role, (l.2.userId, role) ∉ d.roles := not_mem_roles_of_free hreg.free
  rcases hg.users _ hadmin with hinit | ⟨m, hm, happoints⟩
  · obtain ⟨role, hmem⟩ := roles_of_run hrun ⟨_, hinit⟩
    exact hnew role hmem
  · rcases List.mem_append.mp hm with hm | hm
    · obtain ⟨role, hmem⟩ := Entitled.mem_roles (.inr ⟨m, hm, happoints⟩) hrun
      exact hnew role hmem
    · obtain rfl := List.mem_singleton.mp hm
      have hgrants := happoints.1
      rw [hr] at hgrants
      cases hgrants

/-- **No escalation.** Throughout a run only entitled users are admins, hold tokens of admins, or pass
for admins, exactly if no login that creates its user asks to be one. -/
theorem no_role_escalation_iff (lib : Libraries) (d₀ d : Server) (tr : List ServerMove)
    (h₀ : (system lib).Init d₀) (h : (system lib).Run d₀ tr d) :
    (∀ tr' d', tr' <+: tr → (system lib).Run d₀ tr' d' → Guarded lib d₀ tr' d') ↔
      ∀ m ∈ tr, ¬Escalates lib m := by
  constructor
  · intro hall m hm hesc
    obtain ⟨tr₁, tr₂, rfl, hrun, hstep⟩ := h.split_of_mem hm
    refine not_guarded_of_escalates hrun hstep hesc (hall _ _ ?_ (hrun.snoc hstep))
    exact ⟨tr₂, by rw [List.append_assoc, List.singleton_append]⟩
  · intro hall tr' d' hcut hrun
    exact guarded_of_run h₀ hrun fun m hm => hall m (hcut.subset hm)

end Runs

/-! ### A login that makes an admin -/

def verifyRoot (s : Secret) (_ : ℕ) (token : String) : Option JwtPayload :=
  if s = .access ∧ token = "access root" then some ⟨"root", .ADMIN⟩ else none

def decodeRoot (token : String) : Except String Json :=
  .ok (if token = "access root" then .obj [("sub", .str "root")] else .null)

lemma decode_of_verifyRoot (s : Secret) (now : ℕ) (token : String) (p : JwtPayload)
    (h : verifyRoot s now token = some p) :
    ∃ json, decodeRoot token = .ok json ∧ json.get "sub" = .ok (some (.str p.sub)) := by
  rw [verifyRoot] at h
  split_ifs at h with hroot
  obtain rfl := Option.some.inj h
  exact ⟨_, by rw [decodeRoot, if_pos hroot.2], rfl⟩

/-- Libraries that know the tokens of one admin, and take every signature for good. -/
def sampleLibraries : Libraries where
  sign s payload _ := (match s with | .access => "access " | .refresh => "refresh ") ++ payload.sub
  decode := decodeRoot
  verify := verifyRoot
  decode_of_verify := decode_of_verifyRoot
  whereId := whereString
  whereId_str := whereString_str
  hash token _ := token
  compare token hashed := token = hashed
  verifySignature _ _ _ := .ok true
  sha256 bytes := bytes
  base64 _ := []
  trim s := s
  toLowerCase s := s

def sampleChance (userId : String) : Chance where
  now := 0
  nonce := "NONCE_" ++ userId
  userId := userId
  walletId := "wallet of " ++ userId
  referralCode := userId
  salt := ""

/-- An admin with a wallet. -/
def sampleServer : Server where
  users := [{ id := "root", role := .ADMIN }]
  wallets :=
    [{ id := "wallet of root", userId := "root", provider := .FREIGHTER, network := .STELLAR
       address := "GROOT", addressNormalized := "GROOT" }]

def sampleLogin (address nonce : String) (role : Option UserRole) : WalletLoginDto where
  provider := .FREIGHTER
  network := .STELLAR
  address := address
  signature := "signature"
  nonce := nonce
  role := role

/-- A request without a token. -/
lemma run_open {d₀ d : Server} {tr : List ServerMove} (h : (system sampleLibraries).Run d₀ tr d)
    (r : UserRequest) (userId : String) (hr : r.bearer = none) :
    (system sampleLibraries).Run d₀
      (tr ++ [⟨d, (r, sampleChance userId), (serve sampleLibraries (sampleChance userId) r d).1⟩])
      (serve sampleLibraries (sampleChance userId) r d).1 := by
  refine h.snoc ⟨fun bearer _ hbearer _ => ?_, rfl⟩
  rw [hr] at hbearer
  cases hbearer

/-- Anybody with a new wallet becomes an admin. -/
theorem wallet_login_escalates : ∃ lib d₀ tr d,
    (system lib).Init d₀ ∧ (system lib).Run d₀ tr d ∧
      ¬∀ tr' d', tr' <+: tr → (system lib).Run d₀ tr' d' → Guarded lib d₀ tr' d' := by
  have h := Transition.System.Run.nil (M := system sampleLibraries) sampleServer
  have h := run_open h (.walletChallenge ⟨.FREIGHTER, .STELLAR, "GNEW"⟩) "new" rfl
  have hlogin := run_open h (.walletLogin (sampleLogin "GNEW" "NONCE_new" (some .ADMIN))) "new" rfl
  refine ⟨sampleLibraries, sampleServer, _, _, rfl, hlogin, fun hall => ?_⟩
  have hstep := hlogin.of_mem rfl (List.mem_append_right _ (List.mem_singleton_self _))
  refine not_guarded_of_escalates h hstep.2 ⟨_, rfl, rfl, ?_⟩ (hall _ _ (List.prefix_refl _) hlogin)
  exact ⟨by decide, rfl, by decide, by decide⟩

def sampleAppointment : UserRequest :=
  .create "access root" { email := some "a@b.c", role := some .ADMIN }

/-- An admin logs in and makes another one. -/
theorem no_role_escalation_iff_of_appointment : ∃ tr d,
    (system sampleLibraries).Run sampleServer tr d ∧ ("second", .ADMIN) ∈ d.roles ∧
      Guarded sampleLibraries sampleServer tr d := by
  have h := Transition.System.Run.nil (M := system sampleLibraries) sampleServer
  have h := run_open h (.walletChallenge ⟨.FREIGHTER, .STELLAR, "GROOT"⟩) "any" rfl
  have h := run_open h (.walletLogin (sampleLogin "GROOT" "NONCE_any" none)) "any" rfl
  have h := h.snoc (l := (sampleAppointment, sampleChance "second")) ⟨?_, rfl⟩
  · refine ⟨_, _, h, by decide, ?_⟩
    refine (no_role_escalation_iff sampleLibraries sampleServer _ _ rfl h).mpr ?_ _ _
      (List.prefix_refl _) h
    rintro m hm ⟨dto, hr, hrole, -⟩
    simp only [List.nil_append, List.cons_append, List.mem_cons, List.not_mem_nil, or_false] at hm
    rcases hm with rfl | rfl | rfl
    · cases hr
    · obtain rfl : sampleLogin "GROOT" "NONCE_any" none = dto := UserRequest.walletLogin.inj hr
      cases hrole
    · cases hr
  · intro bearer payload hbearer hverify
    obtain rfl : "access root" = bearer := Option.some.inj hbearer
    obtain rfl : (⟨"root", .ADMIN⟩ : JwtPayload) = payload := Option.some.inj hverify
    decide

end PayEra.Api.Accounts
