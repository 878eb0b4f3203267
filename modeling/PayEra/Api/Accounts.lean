import PayEra.Api.Database
import PayEra.Lib.Hex
import PayEra.Lib.Json

/-!
# Users and their tokens

`apps/api/src/auth/auth.service.ts` in production mode, `apps/api/src/users/users.service.ts`, and the
guards in front of them. A request is served as a whole; it may leave its traces and throw.
-/

namespace PayEra.Api.Accounts

/-! ### Rows -/

inductive UserStatus where
  | PENDING_ONBOARDING | ACTIVE | SUSPENDED | DELETED
  deriving DecidableEq, Repr

inductive WalletProvider where
  | FREIGHTER | WALLET_CONNECT | MOCK
  deriving DecidableEq, Repr

inductive WalletNetwork where
  | STELLAR | ETHEREUM | BITCOIN | SOLANA
  deriving DecidableEq, Repr

inductive WalletStatus where
  | ACTIVE | DISCONNECTED | REVOKED
  deriving DecidableEq, Repr

def WalletProvider.name : WalletProvider → String
  | .FREIGHTER => "FREIGHTER"
  | .WALLET_CONNECT => "WALLET_CONNECT"
  | .MOCK => "MOCK"

def WalletNetwork.name : WalletNetwork → String
  | .STELLAR => "STELLAR"
  | .ETHEREUM => "ETHEREUM"
  | .BITCOIN => "BITCOIN"
  | .SOLANA => "SOLANA"

structure User where
  id : String
  email : Option String := none
  emailNormalized : Option String := none
  phoneE164 : Option String := none
  displayName : Option String := none
  role : UserRole := .CONSUMER
  status : UserStatus := .PENDING_ONBOARDING
  referralCode : Option String := none
  lastLoginAt : Option ℕ := none
  hashedRefreshToken : Option String := none
  metadata : Metadata := []
  deletedAt : Option ℕ := none
  deriving DecidableEq

structure UserWallet where
  id : String
  userId : String
  provider : WalletProvider
  network : WalletNetwork
  address : String
  addressNormalized : String
  label : Option String := none
  publicKey : Option String := none
  status : WalletStatus := .ACTIVE
  isPrimary : Bool := false
  verifiedAt : Option ℕ := none
  lastUsedAt : Option ℕ := none
  metadata : Metadata := []
  deriving DecidableEq

/-! ### Tokens -/

/-- `JWT_SECRET` and `JWT_REFRESH_SECRET`. -/
inductive Secret where
  | access | refresh
  deriving DecidableEq, Repr

structure JwtPayload where
  sub : String
  role : UserRole
  deriving DecidableEq

/-- A token that a client was given. -/
structure Issued where
  secret : Secret
  payload : JwtPayload
  token : String
  deriving DecidableEq

/-- The tables, the nonces of the cache with the time they are kept until, and the tokens that were
given out. -/
structure Server where
  users : List User := []
  wallets : List UserWallet := []
  adminLogs : List AdminLog := []
  nonces : List (String × ℕ) := []
  issued : List Issued := []

/-! ### What the services are given -/

/-- The libraries: JSON web tokens, Prisma, bcrypt, Stellar's key pairs, hashes and encodings, and the case
mapping and trimming of strings. -/
structure Libraries where
  sign : Secret → JwtPayload → ℕ → String
  /-- What the payload of a token says, whoever has made it; `null` if it is no token. It may throw. -/
  decode : String → Except String Json
  /-- The payload of a token that is signed with the secret and has not expired. -/
  verify : Secret → ℕ → String → Option JwtPayload
  decode_of_verify : ∀ s now token p, verify s now token = some p →
    ∃ json, decode token = .ok json ∧ json.get "sub" = .ok (some (.str p.sub))
  /-- The condition that Prisma takes a value of `id` for: an object is a filter, and there are values that
  Prisma or the database refuses. -/
  whereId : Json → Option (String → Bool)
  /-- A string means equality. -/
  whereId_str : ∀ s p, whereId (.str s) = some p → ∀ id, p id = decide (id = s)
  hash : String → String → String
  compare : String → String → Bool
  /-- `Keypair.fromPublicKey(address).verify(message, signature)`, which may throw. -/
  verifySignature : String → List UInt8 → List UInt8 → Except String Bool
  sha256 : List UInt8 → List UInt8
  base64 : String → List UInt8
  trim : String → String
  toLowerCase : String → String

/-- The least that Prisma takes: strings. -/
def whereString : Json → Option (String → Bool)
  | .str s => some fun id => id = s
  | _ => none

lemma whereString_str (s : String) (p : String → Bool) (h : whereString (.str s) = some p) (id : String) :
    p id = decide (id = s) := by
  obtain rfl := Option.some.inj h
  rfl

/-- No token verifies. -/
def verifyNone (_ : Secret) (_ : ℕ) (_ : String) : Option JwtPayload := none

lemma decode_of_verifyNone {decode : String → Except String Json} (s : Secret) (now : ℕ) (token : String)
    (p : JwtPayload) (h : verifyNone s now token = some p) :
    ∃ json, decode token = .ok json ∧ json.get "sub" = .ok (some (.str p.sub)) := by
  cases h

/-- The token carries the id of a user. -/
def Libraries.Names (lib : Libraries) (token id : String) : Prop :=
  ∃ json, lib.decode token = .ok json ∧ json.get "sub" = .ok (some (.str id))

/-- The order in which the database goes through the users, which nothing asks for. -/
structure Scan where
  rows : List User → List User
  perm : ∀ users, (rows users).Perm users

/-- As they are stored. -/
def Scan.stored : Scan where
  rows := id
  perm := List.Perm.refl

/-- What is found is one of the users. -/
lemma Scan.mem_of_find? (scan : Scan) {users : List User} {p : User → Bool} {u : User}
    (h : (scan.rows users).find? p = some u) : u ∈ users :=
  (scan.perm users).mem_iff.mp (List.mem_of_find?_eq_some h)

/-- The clock, the random values and the order of the rows of one request. -/
structure Chance where
  now : ℕ
  nonce : String
  userId : String
  walletId : String
  referralCode : String
  salt : String
  scan : Scan := .stored

structure WalletChallengeDto where
  provider : WalletProvider
  network : WalletNetwork
  address : String

structure WalletLoginDto where
  provider : WalletProvider
  network : WalletNetwork
  address : String
  signature : String
  nonce : String
  displayName : Option String := none
  role : Option UserRole := none

structure CreateUserDto where
  email : Option String := none
  phoneE164 : Option String := none
  displayName : Option String := none
  role : Option UserRole := none
  status : Option UserStatus := none
  metadata : Option Metadata := none

structure UpdateUserDto where
  email : Option String := none
  phoneE164 : Option String := none
  displayName : Option String := none
  role : Option UserRole := none
  status : Option UserStatus := none
  metadata : Option Metadata := none

structure Tokens where
  accessToken : String
  refreshToken : String
  deriving DecidableEq

inductive Failure where
  | badRequest (message : String)
  | unauthorized (message : String)
  | forbidden (message : String)
  | notFound (message : String)
  | validation
  | recordNotFound
  | uniqueConstraint
  | foreignKeyConstraint
  deriving DecidableEq, Repr

inductive Answer where
  | challenge (expiresAt : ℕ) (message nonce : String)
  | login (auth : Tokens) (user : User) (wallet : UserWallet)
  | auth (auth : Tokens)
  | mockLogin (auth : Tokens) (user : User)
  | user (user : User)
  | wallet (wallet : UserWallet)
  | deleted

/-- What a request leaves, and what it answers. -/
abbrev Outcome := Server × Except Failure Answer

/-! ### The tables -/

namespace Server

variable (d : Server)

def findUser (id : String) : Option User := d.users.find? (·.id = id)

/-- The wallet that is unique by network and address. -/
def findWallet (network : WalletNetwork) (addressNormalized : String) : Option UserWallet :=
  d.wallets.find? fun w => w.network = network ∧ w.addressNormalized = addressNormalized

def updateUser (id : String) (f : User → User) : Server :=
  { d with users := updateWhere (fun u => u.id = id) f d.users }

/-- The nonce is in the cache and has not expired. -/
def holds (nonce : String) (now : ℕ) : Bool := d.nonces.any fun n => n.1 = nonce ∧ now < n.2

/-- `cacheManager.del`. -/
def consume (nonce : String) : Server := { d with nonces := d.nonces.filter (·.1 ≠ nonce) }

/-- A unique column of another user has the value. -/
def taken (column : User → Option String) (id : String) (value : Option String) : Bool :=
  d.users.any fun u => value.isSome && decide (u.id ≠ id) && decide (column u = value)

/-- `user.create` goes through: the id and the unique columns are free. -/
def free (u : User) : Bool :=
  (d.findUser u.id).isNone && !d.taken User.emailNormalized u.id u.emailNormalized &&
    !d.taken User.phoneE164 u.id u.phoneE164 && !d.taken User.referralCode u.id u.referralCode

def createUser (u : User) : Server := { d with users := d.users ++ [u] }

/-- `wallet.updateMany`. -/
def updateWallets (p : UserWallet → Bool) (f : UserWallet → UserWallet) : Server :=
  { d with wallets := updateWhere p f d.wallets }

def createWallet (w : UserWallet) : Server := { d with wallets := d.wallets ++ [w] }

def log (actorUserId action : String) (metadata : Metadata) : Server :=
  { d with
    adminLogs := d.adminLogs ++
      [{ actorUserId := some actorUserId, action, targetType := "USER", targetId := actorUserId
         metadata }] }

end Server

/-! ### The auth service -/

namespace AuthService

variable (lib : Libraries) (x : Chance)

def messageOf (network : WalletNetwork) (provider : WalletProvider) (address nonce : String) :
    String :=
  "CryptoPay Network login\nnetwork=" ++ network.name ++ "\nprovider=" ++ provider.name ++
    "\naddress=" ++ address ++ "\nnonce=" ++ nonce

def mockLogin (d : Server) : Outcome :=
  (d, .error (.badRequest "Mock login is disabled in production"))

def issueWalletChallenge (dto : WalletChallengeDto) (d : Server) : Outcome :=
  let expiresAt := x.now + 5 * 60 * 1000
  ({ d with nonces := (x.nonce, expiresAt) :: d.nonces },
    .ok (.challenge expiresAt (messageOf dto.network dto.provider dto.address x.nonce) x.nonce))

/-- `sigStr.length === 128 && /^[0-9a-fA-F]+$/.test(sigStr)`. -/
def isHex (sigStr : String) : Bool :=
  sigStr.length = 128 && sigStr.toList.all fun c => (Hex.digit c).isSome

/-- Base64 that is URL-safe or misses its padding is brought into the usual form. -/
def normalizeSignature (signature : String) : String :=
  if isHex signature then signature
  else
    let sigStr := (signature.replace "-" "+").replace "_" "/"
    sigStr ++ String.ofList (List.replicate ((4 - sigStr.length % 4) % 4) '=')

def signatureBuffer (sigStr : String) : List UInt8 :=
  if isHex sigStr then Hex.decode sigStr.toList else lib.base64 sigStr

def utf8 (s : String) : List UInt8 := s.toUTF8.toList

/-- What the signature may have been made of. -/
def payloads (expectedMessage : String) : List (List UInt8) :=
  let msgLF := expectedMessage.replace "\r\n" "\n"
  let msgCRLF := msgLF.replace "\n" "\r\n"
  let prefixes := [utf8 "Stellar Signed Message:\n", utf8 "Stellar Signed Message:\r\n"]
  [msgLF, msgCRLF].flatMap fun msg =>
    utf8 msg :: prefixes.flatMap fun p => [p ++ utf8 msg, lib.sha256 (p ++ utf8 msg)]

/-- The first payload that verifies decides; an exception ends the search. -/
def firstValid (check : List UInt8 → Except String Bool) : List (List UInt8) → Except String Bool
  | [] => pure false
  | payload :: rest => do if ← check payload then pure true else firstValid check rest

def isValidSignature (dto : WalletLoginDto) : Except String Bool :=
  let signature := signatureBuffer lib (normalizeSignature dto.signature)
  firstValid (fun payload => lib.verifySignature dto.address payload signature)
    (payloads lib (messageOf dto.network dto.provider dto.address dto.nonce))

def normalizeWalletAddress (address : String) : String := lib.toLowerCase (lib.trim address)

/-- `generateTokens`, and what is done with its tokens. -/
def generateTokens (userId : String) (role : UserRole) (d : Server)
    (next : Tokens → Server → Outcome) : Outcome :=
  let payload : JwtPayload := { sub := userId, role }
  let accessToken := lib.sign .access payload x.now
  let refreshToken := lib.sign .refresh payload x.now
  match d.findUser userId with
  | none => (d, .error .recordNotFound)
  | some _ =>
    let d := d.updateUser userId fun u =>
      { u with hashedRefreshToken := some (lib.hash refreshToken x.salt) }
    next { accessToken, refreshToken }
      { d with
        issued := d.issued ++ [⟨.access, payload, accessToken⟩, ⟨.refresh, payload, refreshToken⟩] }

def loginLog (dto : WalletLoginDto) : Metadata :=
  [("method", "WALLET"), ("network", dto.network.name), ("provider", dto.provider.name),
    ("address", String.ofList (dto.address.toList.take 8) ++ "...")]

def loggedIn (u : User) : User := { u with lastLoginAt := some x.now, status := .ACTIVE }

/-- A login with a wallet that the database knows. -/
def loginKnown (dto : WalletLoginDto) (wallet : UserWallet) (d : Server) : Outcome :=
  match d.findUser wallet.userId with
  | none => (d, .error .recordNotFound)
  | some before =>
    let user := loggedIn x before
    let d := d.updateUser wallet.userId (loggedIn x)
    let d := d.updateWallets (fun w => w.id = wallet.id) fun w =>
      { w with lastUsedAt := some x.now, status := .ACTIVE }
    generateTokens lib x user.id user.role d fun auth d =>
      (d.log user.id "USER_LOGIN" (loginLog dto), .ok (.login auth user wallet))

/-- The user that a login with an unknown wallet creates. -/
def newUser (dto : WalletLoginDto) : User where
  id := x.userId
  displayName := dto.displayName
  referralCode := some x.referralCode
  role := dto.role.getD .CONSUMER
  status := .ACTIVE

def newWallet (dto : WalletLoginDto) : UserWallet where
  id := x.walletId
  userId := x.userId
  provider := dto.provider
  network := dto.network
  address := dto.address
  addressNormalized := normalizeWalletAddress lib dto.address
  status := .ACTIVE
  isPrimary := true
  verifiedAt := some x.now
  lastUsedAt := some x.now

def loginUnknown (dto : WalletLoginDto) (d : Server) : Outcome :=
  let user := newUser x dto
  if d.free user then
    let wallet := newWallet lib x dto
    let d := (d.createUser user).createWallet wallet
    generateTokens lib x user.id user.role d fun auth d =>
      (d.log user.id "USER_LOGIN" (loginLog dto), .ok (.login auth user wallet))
  else (d, .error .uniqueConstraint)

def walletLogin (dto : WalletLoginDto) (d : Server) : Outcome :=
  if d.holds dto.nonce x.now then
    let d := d.consume dto.nonce
    match isValidSignature lib dto with
    | .error message =>
      (d, .error (.unauthorized ("Invalid signature format: " ++ message ++ " | sig length: " ++
        toString dto.signature.length)))
    | .ok false =>
      let expectedMessage := messageOf dto.network dto.provider dto.address dto.nonce
      (d, .error (.unauthorized ("Signature verification failed. Expected msg: " ++
        expectedMessage.replace "\n" "\\n")))
    | .ok true =>
      match d.findWallet dto.network (normalizeWalletAddress lib dto.address) with
      | some wallet => loginKnown lib x dto wallet d
      | none => loginUnknown lib x dto d
  else
    (d, .error (.unauthorized ("Invalid or expired nonce: " ++ dto.nonce ++ ", status: undefined")))

/-- The condition on the id of the user, as the token has it. -/
def condition (token : String) : Except Failure (String → Bool) :=
  match lib.decode token with
  | .error _ => .error (.badRequest "Invalid token format")
  -- the `sub` of a string is a method, which Prisma refuses
  | .ok (.str s) => .error (if s = "" then .badRequest "Invalid token" else .validation)
  | .ok decoded =>
    match (decoded.get "sub").toOption.join.filter Json.truthy with
    | none => .error (.badRequest "Invalid token")
    | some sub => (lib.whereId sub).elim (.error .validation) .ok

def refreshToken (refreshToken : String) (d : Server) : Outcome :=
  match condition lib refreshToken with
  | .error e => (d, .error e)
  | .ok p =>
    match (x.scan.rows d.users).find? fun u => p u.id ∧ u.deletedAt = none with
    | none => (d, .error (.badRequest "Invalid refresh token"))
    | some user =>
      match user.hashedRefreshToken.filter (· ≠ "") with
      | none => (d, .error (.badRequest "Invalid refresh token"))
      | some hashedRefreshToken =>
        if lib.compare refreshToken hashedRefreshToken then
          match lib.verify .refresh x.now refreshToken with
          | none => (d, .error (.badRequest "Refresh token expired"))
          | some _ => generateTokens lib x user.id user.role d fun auth d => (d, .ok (.auth auth))
        else
          let d := d.updateUser user.id fun u => { u with hashedRefreshToken := none }
          (d.log user.id "TOKEN_REUSE_DETECTED"
            [("reason", "Refresh token reuse detected - all tokens revoked")],
            .error (.unauthorized
              "Token reuse detected. All sessions revoked. Please log in again."))

end AuthService

/-! ### The users service -/

namespace UsersService

variable (lib : Libraries) (x : Chance)

def normalizeEmail (email : Option String) : Option String :=
  email.map fun e => lib.toLowerCase (lib.trim e)

def normalizePhone (phone : Option String) : Option String := phone.map lib.trim

def newUser (dto : CreateUserDto) : User where
  id := x.userId
  displayName := dto.displayName
  email := dto.email
  emailNormalized := normalizeEmail lib dto.email
  metadata := dto.metadata.getD []
  phoneE164 := normalizePhone lib dto.phoneE164
  referralCode := some x.referralCode
  role := dto.role.getD .CONSUMER
  status := dto.status.getD .ACTIVE

def create (dto : CreateUserDto) (d : Server) : Outcome :=
  if dto.email = none ∧ dto.phoneE164 = none then
    (d, .error (.badRequest "Either email or phoneE164 is required"))
  else
    let user := newUser lib x dto
    if d.free user then (d.createUser user, .ok (.user user)) else (d, .error .uniqueConstraint)

/-- `user.update` of one row. -/
def updateRow (id : String) (data : User → User) (d : Server) : Outcome :=
  match d.findUser id with
  | none => (d, .error .recordNotFound)
  | some user => (d.updateUser id data, .ok (.user (data user)))

def updated (dto : UpdateUserDto) (u : User) : User :=
  { u with
    displayName := dto.displayName <|> u.displayName
    email := dto.email <|> u.email
    emailNormalized := normalizeEmail lib dto.email <|> u.emailNormalized
    metadata := dto.metadata.getD u.metadata
    phoneE164 := normalizePhone lib dto.phoneE164 <|> u.phoneE164
    role := dto.role.getD u.role
    status := dto.status.getD u.status }

def update (id : String) (dto : UpdateUserDto) (d : Server) : Outcome :=
  if d.taken User.emailNormalized id (normalizeEmail lib dto.email) ∨
      d.taken User.phoneE164 id (normalizePhone lib dto.phoneE164) then
    (d, .error .uniqueConstraint)
  else updateRow id (updated lib dto) d

def suspend (id : String) : Server → Outcome :=
  updateRow id fun u => { u with status := .SUSPENDED }

def activate (id : String) : Server → Outcome :=
  updateRow id fun u => { u with status := .ACTIVE }

def softDelete (id : String) (d : Server) : Outcome :=
  match updateRow id (fun u => { u with deletedAt := some x.now, status := .DELETED }) d with
  | (d, .ok a) => (d.log id "USER_ACCOUNT_DELETED" [("deletedAt", toString x.now)], .ok a)
  | failed => failed

def erased (u : User) : User :=
  { u with
    deletedAt := some x.now
    status := .DELETED
    email := none
    emailNormalized := none
    phoneE164 := none
    displayName := some "Deleted User" }

def deleteAccount (userId : String) (d : Server) : Outcome :=
  match updateRow userId (erased x) d with
  | (d, .ok _) =>
    let d := d.updateWallets (fun w => w.userId = userId) fun w => { w with status := .REVOKED }
    (d.log userId "USER_ACCOUNT_DELETED" [("selfDeleted", "true")], .ok .deleted)
  | failed => failed

end UsersService

/-! ### Requests -/

/-- The requests; those to the users controller bear an access token. -/
inductive UserRequest where
  | mockLogin
  | walletChallenge (dto : WalletChallengeDto)
  | walletLogin (dto : WalletLoginDto)
  | refresh (refreshToken : String)
  | deleteAccount (bearer : String)
  | create (bearer : String) (dto : CreateUserDto)
  | update (bearer : String) (id : String) (dto : UpdateUserDto)
  | activate (bearer : String) (id : String)
  | suspend (bearer : String) (id : String)
  | softDelete (bearer : String) (id : String)

def UserRequest.bearer : UserRequest → Option String
  | .deleteAccount bearer | .create bearer _ | .update bearer _ _ | .activate bearer _
  | .suspend bearer _ | .softDelete bearer _ => some bearer
  | _ => none

section Serve

variable (lib : Libraries) (x : Chance)

/-- `JwtStrategy` on the token that a request bears. -/
def principal (r : UserRequest) : Option Principal :=
  (r.bearer.bind (lib.verify .access x.now)).map fun payload =>
    { id := payload.sub, role := payload.role }

/-- `JwtAuthGuard`. -/
def authenticated (r : UserRequest) (d : Server) (next : Principal → Outcome) : Outcome :=
  match principal lib x r with
  | some user => next user
  | none => (d, .error (.unauthorized "Unauthorized"))

/-- `RolesGuard` with `@Roles(UserRole.ADMIN)`. -/
def adminOnly (r : UserRequest) (d : Server) (next : Outcome) : Outcome :=
  authenticated lib x r d fun user =>
    if user.role = .ADMIN then next
    else (d, .error (.forbidden "Insufficient role for this operation"))

def serve (r : UserRequest) (d : Server) : Outcome :=
  match r with
  | .mockLogin => AuthService.mockLogin d
  | .walletChallenge dto => AuthService.issueWalletChallenge x dto d
  | .walletLogin dto => AuthService.walletLogin lib x dto d
  | .refresh refreshToken => AuthService.refreshToken lib x refreshToken d
  | .deleteAccount _ => authenticated lib x r d fun user => UsersService.deleteAccount x user.id d
  | .create _ dto => adminOnly lib x r d (UsersService.create lib x dto d)
  | .update _ id dto => adminOnly lib x r d (UsersService.update lib id dto d)
  | .activate _ id => adminOnly lib x r d (UsersService.activate id d)
  | .suspend _ id => adminOnly lib x r d (UsersService.suspend id d)
  | .softDelete _ id => adminOnly lib x r d (UsersService.softDelete x id d)

end Serve

end PayEra.Api.Accounts
