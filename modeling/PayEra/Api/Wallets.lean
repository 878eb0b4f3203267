import PayEra.Api.Accounts

/-!
# Wallets, demo logins and the status of a user

`apps/api/src/wallets/wallets.service.ts`, `mockLogin` of `apps/api/src/auth/auth.service.ts` and
`updateUserStatus` of `apps/api/src/admin/admin.service.ts`, with their guards: together with the
requests of the users and auth controllers, everything that writes a user or a wallet.
-/

namespace PayEra.Api.Accounts

structure MockLoginDto where
  email : Option String := none
  phoneE164 : Option String := none
  displayName : Option String := none
  role : Option UserRole := none

structure CreateWalletDto where
  provider : WalletProvider
  network : WalletNetwork
  address : String
  label : Option String := none
  publicKey : Option String := none
  isPrimary : Option Bool := none
  metadata : Option Metadata := none

structure UpdateWalletDto where
  label : Option String := none
  isPrimary : Option Bool := none
  status : Option WalletStatus := none
  metadata : Option Metadata := none

/-! ### Demo logins -/

namespace AuthService

variable (lib : Libraries) (x : Chance)

/-- `OR: [{ emailNormalized }, { phoneE164 }]`, each where it is given. -/
def hasContact (emailNormalized phoneE164 : Option String) (u : User) : Bool :=
  emailNormalized.isSome && decide (u.emailNormalized = emailNormalized) ||
    phoneE164.isSome && decide (u.phoneE164 = phoneE164)

/-- The live user with the email address or the phone number. -/
def findContact (dto : MockLoginDto) (d : Server) : Option User :=
  (x.scan.rows d.users).find? fun u => decide (u.deletedAt = none) &&
    hasContact (UsersService.normalizeEmail lib dto.email)
      (UsersService.normalizePhone lib dto.phoneE164) u

def demoUser (dto : MockLoginDto) : User where
  id := x.userId
  displayName := dto.displayName
  email := dto.email
  emailNormalized := UsersService.normalizeEmail lib dto.email
  phoneE164 := UsersService.normalizePhone lib dto.phoneE164
  referralCode := some x.referralCode
  role := dto.role.getD .CONSUMER
  status := .ACTIVE

/-- What a demo login does to a user that exists. -/
def demoLoggedIn (dto : MockLoginDto) (u : User) : User :=
  { u with
    displayName := dto.displayName <|> u.displayName
    lastLoginAt := some x.now
    status := if u.status = .PENDING_ONBOARDING then .ACTIVE else u.status }

/-- The tokens of a demo login. -/
def demoTokens (user : User) (d : Server) : Outcome :=
  generateTokens lib x user.id user.role d fun auth d =>
    (d.log user.id "USER_LOGIN_MOCK" [("method", "MOCK")], .ok (.mockLogin auth user))

/-- `mockLogin` where `NODE_ENV` is not `production`. -/
def demoLogin (dto : MockLoginDto) (d : Server) : Outcome :=
  if dto.email = none ∧ dto.phoneE164 = none then
    (d, .error (.badRequest "Either email or phoneE164 is required"))
  else
    match findContact lib x dto d with
    | some existingUser =>
      demoTokens lib x (demoLoggedIn x dto existingUser)
        (d.updateUser existingUser.id (demoLoggedIn x dto))
    | none =>
      let user := demoUser lib x dto
      if d.free user then demoTokens lib x user (d.createUser user)
      else (d, .error .uniqueConstraint)

end AuthService

/-! ### The status of a user -/

namespace AdminService

/-- `updateUserStatus`. -/
def updateUserStatus (actor : Principal) (userId : String) (status : UserStatus) (d : Server) :
    Outcome :=
  match d.users.find? fun u => u.id = userId ∧ u.deletedAt = none with
  | none => (d, .error .recordNotFound)
  | some before =>
    let d := d.updateUser userId fun u => { u with status }
    ({ d with
        adminLogs := d.adminLogs ++
          [{ actorUserId := some actor.id, action := "user.status.update", targetType := "user"
             targetId := userId, metadata := [] }] },
      .ok (.user { before with status }))

end AdminService

/-! ### The wallets service -/

/-- `wallet.create` goes through: the id, and the network with the address, are free. -/
def Server.freeWallet (d : Server) (w : UserWallet) : Bool :=
  d.wallets.all fun v => decide (v.id ≠ w.id) &&
    !decide (v.network = w.network ∧ v.addressNormalized = w.addressNormalized)

namespace WalletsService

variable (lib : Libraries) (x : Chance)

/-- The other wallets of a user are not primary if the new one is. -/
def demote (isPrimary : Option Bool) (userId : String) (d : Server) : Server :=
  if isPrimary = some true then
    d.updateWallets (fun w => w.userId = userId) fun w => { w with isPrimary := false }
  else d

def newWallet (owner : Principal) (dto : CreateWalletDto) : UserWallet where
  id := x.walletId
  userId := owner.id
  provider := dto.provider
  network := dto.network
  address := dto.address
  addressNormalized := AuthService.normalizeWalletAddress lib dto.address
  label := dto.label
  publicKey := dto.publicKey
  status := .ACTIVE
  isPrimary := dto.isPrimary.getD false
  verifiedAt := some x.now
  metadata := dto.metadata.getD []

def create (owner : Principal) (dto : CreateWalletDto) (d : Server) : Outcome :=
  let wallet := newWallet lib x owner dto
  if d.freeWallet wallet then
    if (d.findUser owner.id).isSome then
      ((demote dto.isPrimary owner.id d).createWallet wallet, .ok (.wallet wallet))
    else (d, .error .foreignKeyConstraint)
  else (d, .error .uniqueConstraint)

/-- `assertWalletAccess`. -/
def mayAccess (owner : Principal) (userId : String) : Bool :=
  owner.role = .ADMIN || owner.id = userId

/-- `findOne`, and what is done with the wallet. -/
def findOne (owner : Principal) (id : String) (d : Server) (next : UserWallet → Outcome) : Outcome :=
  match d.wallets.find? (·.id = id) with
  | none => (d, .error (.notFound "Wallet not found"))
  | some wallet =>
    if mayAccess owner wallet.userId then next wallet
    else (d, .error (.forbidden "Wallet belongs to another user"))

def updated (dto : UpdateWalletDto) (w : UserWallet) : UserWallet :=
  { w with
    isPrimary := dto.isPrimary.getD w.isPrimary
    label := dto.label <|> w.label
    metadata := dto.metadata.getD w.metadata
    status := dto.status.getD w.status }

def update (owner : Principal) (id : String) (dto : UpdateWalletDto) (d : Server) : Outcome :=
  findOne owner id d fun wallet =>
    ((demote dto.isPrimary wallet.userId d).updateWallets (fun w => w.id = id) (updated dto),
      .ok (.wallet (updated dto wallet)))

def disconnected (w : UserWallet) : UserWallet :=
  { w with isPrimary := false, status := .DISCONNECTED }

def disconnect (owner : Principal) (id : String) (d : Server) : Outcome :=
  findOne owner id d fun wallet =>
    (d.updateWallets (fun w => w.id = id) disconnected, .ok (.wallet (disconnected wallet)))

end WalletsService

/-! ### Requests -/

/-- The requests that write users or wallets; the mock logins among the requests to the auth
controller are those in production. -/
inductive AccountRequest where
  | account (r : UserRequest)
  | demoLogin (dto : MockLoginDto)
  | updateUserStatus (bearer : String) (id : String) (status : UserStatus)
  | createWallet (bearer : String) (dto : CreateWalletDto)
  | updateWallet (bearer : String) (id : String) (dto : UpdateWalletDto)
  | disconnectWallet (bearer : String) (id : String)

def AccountRequest.bearer : AccountRequest → Option String
  | .account r => r.bearer
  | .demoLogin _ => none
  | .updateUserStatus bearer _ _ | .createWallet bearer _ | .updateWallet bearer _ _
  | .disconnectWallet bearer _ => some bearer

section Handle

variable (lib : Libraries) (x : Chance)

/-- Who makes the request, by the token that it bears. -/
def caller (r : AccountRequest) : Option Principal :=
  (r.bearer.bind (lib.verify .access x.now)).map fun payload =>
    { id := payload.sub, role := payload.role }

/-- `JwtAuthGuard`. -/
def signedIn (r : AccountRequest) (d : Server) (next : Principal → Outcome) : Outcome :=
  match caller lib x r with
  | some user => next user
  | none => (d, .error (.unauthorized "Unauthorized"))

/-- `production` is whether `NODE_ENV` is `production`. -/
def handle (production : Bool) (r : AccountRequest) (d : Server) : Outcome :=
  match r with
  | .account r => serve lib x r d
  | .demoLogin dto => if production then AuthService.mockLogin d else AuthService.demoLogin lib x dto d
  | .updateUserStatus _ id status =>
    signedIn lib x r d fun actor =>
      if actor.role = .ADMIN then AdminService.updateUserStatus actor id status d
      else (d, .error (.forbidden "Insufficient role for this operation"))
  | .createWallet _ dto => signedIn lib x r d fun owner => WalletsService.create lib x owner dto d
  | .updateWallet _ id dto => signedIn lib x r d fun owner => WalletsService.update owner id dto d
  | .disconnectWallet _ id => signedIn lib x r d fun owner => WalletsService.disconnect owner id d

end Handle

end PayEra.Api.Accounts
