import PayEra.Api.Accounts
import PayEra.Lib.Script

/-!
# Wallet logins, call by call

`issueWalletChallenge` and `walletLogin` of `apps/api/src/auth/auth.service.ts` as sessions that
interleave at their calls: to the cache of nonces, to the database and to the libraries. The cache may
drop entries early, never late, and nobody else writes to it.
-/

namespace PayEra.Api.Logins

open Accounts
open Async (Program Event Journal Setting)
open Async.Program

/-! ### Calls -/

structure NewUser where
  displayName : Option String
  referralCode : String
  role : UserRole
  status : UserStatus
  deriving DecidableEq

structure NewWallet where
  address : String
  addressNormalized : String
  isPrimary : Bool
  lastUsedAt : ℕ
  network : WalletNetwork
  provider : WalletProvider
  status : WalletStatus
  verifiedAt : ℕ
  deriving DecidableEq

inductive Op where
  | now
  | createReadableId
  | createReferralCode
  | cacheGet (key : String)
  | cacheSet (key value : String) (ttl : ℕ)
  | cacheDel (key : String)
  | findWallet (network : WalletNetwork) (addressNormalized : String)
  | touchUser (id : String) (lastLoginAt : ℕ) (status : UserStatus)
  | touchWallet (id : String) (lastUsedAt : ℕ) (status : WalletStatus)
  | createUser (data : NewUser) (wallet : NewWallet)
  | findWalletOf (userId : String)
  | sign (secret : Secret) (payload : JwtPayload)
  | genSalt
  | hash (token salt : String)
  | setRefreshToken (userId hashedRefreshToken : String)
  | createLog (log : AdminLog)
  deriving DecidableEq

abbrev Op.Res : Op → Type
  | .now => ℕ
  | .createReadableId => String
  | .createReferralCode => String
  | .cacheGet _ => Option String
  | .cacheSet _ _ _ => Unit
  | .cacheDel _ => Unit
  | .findWallet _ _ => Option UserWallet
  | .touchUser _ _ _ => User
  | .touchWallet _ _ _ => UserWallet
  | .createUser _ _ => User
  | .findWalletOf _ => UserWallet
  | .sign _ _ => String
  | .genSalt => String
  | .hash _ _ => String
  | .setRefreshToken _ _ => User
  | .createLog _ => Unit

/-! ### Answers -/

/-- An entry of the cache and the time it is kept until. -/
structure Entry where
  key : String
  value : String
  expiresAt : ℕ
  deriving DecidableEq

/-- The tables, the cache, the nonces that were drawn, and the clock. -/
structure House where
  users : List User := []
  wallets : List UserWallet := []
  adminLogs : List AdminLog := []
  cache : List Entry := []
  drawn : List String := []
  clock : ℕ := 0

/-- What the outside world decides about an answer. -/
structure Oracle where
  nonce : String
  referralCode : String
  userId : String
  walletId : String
  salt : String

namespace House

/-- `cacheManager.get`. -/
def get (s : House) (key : String) : Option String :=
  (s.cache.find? fun e => e.key = key ∧ s.clock < e.expiresAt).map (·.value)

def forget (s : House) (key : String) : List Entry := s.cache.filter (·.key ≠ key)

/-- The unique columns of a new user and its wallet are free. -/
def free (o : Oracle) (data : NewUser) (wallet : NewWallet) (s : House) : Bool :=
  (s.users.all fun u => u.id ≠ o.userId ∧ u.referralCode ≠ some data.referralCode) &&
    s.wallets.all fun w => w.id ≠ o.walletId ∧
      ¬(w.network = wallet.network ∧ w.addressNormalized = wallet.addressNormalized)

def newUser (o : Oracle) (data : NewUser) : User where
  id := o.userId
  displayName := data.displayName
  referralCode := some data.referralCode
  role := data.role
  status := data.status

def newWallet (o : Oracle) (wallet : NewWallet) : UserWallet where
  id := o.walletId
  userId := o.userId
  provider := wallet.provider
  network := wallet.network
  address := wallet.address
  addressNormalized := wallet.addressNormalized
  status := wallet.status
  isPrimary := wallet.isPrimary
  verifiedAt := some wallet.verifiedAt
  lastUsedAt := some wallet.lastUsedAt

/-- The update of one row, which has to exist. -/
def touch {α : Type} (p : α → Bool) (f : α → α) (rows : List α) : Option (α × List α) :=
  (rows.find? p).map fun row => (f row, updateWhere p f rows)

def answer (lib : Libraries) (o : Oracle) : (op : Op) → House → Option (op.Res × House)
  | .now, s => some (s.clock, s)
  | .createReadableId, s =>
    -- eighty random bits
    if o.nonce ∈ s.drawn then none else some (o.nonce, { s with drawn := s.drawn ++ [o.nonce] })
  | .createReferralCode, s => some (o.referralCode, s)
  | .cacheGet key, s => some (s.get key, s)
  | .cacheSet key value ttl, s =>
    some ((), { s with cache := { key, value, expiresAt := s.clock + ttl } :: s.forget key })
  | .cacheDel key, s => some ((), { s with cache := s.forget key })
  | .findWallet network addressNormalized, s =>
    some (s.wallets.find? fun w => w.network = network ∧ w.addressNormalized = addressNormalized, s)
  | .touchUser id lastLoginAt status, s =>
    (touch (·.id = id) (fun u => { u with lastLoginAt := some lastLoginAt, status }) s.users).map
      fun row => (row.1, { s with users := row.2 })
  | .touchWallet id lastUsedAt status, s =>
    (touch (·.id = id) (fun w => { w with lastUsedAt := some lastUsedAt, status }) s.wallets).map
      fun row => (row.1, { s with wallets := row.2 })
  | .createUser data wallet, s =>
    if s.free o data wallet then
      some (newUser o data,
        { s with
          users := s.users ++ [newUser o data]
          wallets := s.wallets ++ [newWallet o wallet] })
    else none
  | .findWalletOf userId, s => (s.wallets.find? (·.userId = userId)).map fun w => (w, s)
  | .sign secret payload, s => some (lib.sign secret payload s.clock, s)
  | .genSalt, s => some (o.salt, s)
  | .hash token salt, s => some (lib.hash token salt, s)
  | .setRefreshToken userId hashedRefreshToken, s =>
    (touch (·.id = userId) (fun u => { u with hashedRefreshToken := some hashedRefreshToken })
      s.users).map fun row => (row.1, { s with users := row.2 })
  | .createLog log, s => some ((), { s with adminLogs := s.adminLogs ++ [log] })

/-- Between two calls time passes, the cache drops entries, and others use the tables. -/
structure Other (s s' : House) : Prop where
  cache : s'.cache ⊆ s.cache
  drawn : s'.drawn = s.drawn
  clock : s.clock ≤ s'.clock

/-- No nonces yet. -/
structure Fresh (s : House) : Prop where
  cache : s.cache = []
  drawn : s.drawn = []

end House

/-- A call returns what some oracle makes it answer. -/
def Returns (lib : Libraries) (op : Op) (s : House) (v : op.Res) (s' : House) : Prop :=
  ∃ o, House.answer lib o op s = some (v, s')

/-- Reading the clock does not fail. -/
def Total (op : Op) : Prop := op = .now

/-! ### The auth service -/

abbrev Service (α : Type) := Program Op Op.Res Failure α

def call (op : Op) : Service op.Res := Program.perform op

/-- What a login answers. -/
structure Login where
  auth : Tokens
  user : User
  wallet : UserWallet

namespace AuthService

variable (lib : Libraries)

/-- The key of a nonce in the cache. -/
def nonceKey (nonce : String) : String := "nonce:" ++ nonce

def issueWalletChallenge (dto : WalletChallengeDto) : Service (ℕ × String × String) := do
  let nonce : String ← call .createReadableId
  let issuedAt : ℕ ← call .now
  let expiresAt := issuedAt + 5 * 60 * 1000
  call (.cacheSet (nonceKey nonce) "issued" (5 * 60 * 1000))
  pure (expiresAt, Accounts.AuthService.messageOf dto.network dto.provider dto.address nonce, nonce)

def generateTokens (userId : String) (role : UserRole) : Service Tokens := do
  let payload : JwtPayload := { sub := userId, role }
  let accessToken : String ← call (.sign .access payload)
  let refreshToken : String ← call (.sign .refresh payload)
  let salt : String ← call .genSalt
  let hashedRefreshToken : String ← call (.hash refreshToken salt)
  let _ : User ← call (.setRefreshToken userId hashedRefreshToken)
  pure { accessToken, refreshToken }

/-- The tokens, the log and the answer, at the end of either branch. -/
def finishLogin (dto : WalletLoginDto) (user : User) (wallet : UserWallet) : Service Login := do
  let auth ← generateTokens user.id user.role
  call (.createLog
    { actorUserId := some user.id, action := "USER_LOGIN", targetType := "USER", targetId := user.id
      metadata := Accounts.AuthService.loginLog dto })
  pure { auth, user, wallet }

/-- A login with a wallet that the database knows. -/
def loginKnown (dto : WalletLoginDto) (wallet : UserWallet) : Service Login := do
  let lastLoginAt : ℕ ← call .now
  let user : User ← call (.touchUser wallet.userId lastLoginAt .ACTIVE)
  let lastUsedAt : ℕ ← call .now
  let _ : UserWallet ← call (.touchWallet wallet.id lastUsedAt .ACTIVE)
  finishLogin dto user wallet

def loginUnknown (dto : WalletLoginDto) : Service Login := do
  let referralCode : String ← call .createReferralCode
  let lastUsedAt : ℕ ← call .now
  let verifiedAt : ℕ ← call .now
  let user : User ← call (.createUser
    { displayName := dto.displayName, referralCode, role := dto.role.getD .CONSUMER
      status := .ACTIVE }
    { address := dto.address
      addressNormalized := Accounts.AuthService.normalizeWalletAddress lib dto.address
      isPrimary := true, lastUsedAt, network := dto.network, provider := dto.provider
      status := .ACTIVE, verifiedAt })
  let createdWallet : UserWallet ← call (.findWalletOf user.id)
  finishLogin dto user createdWallet

/-- What comes after the check of the signature. -/
def loginVerified (dto : WalletLoginDto) : Service Login := do
  let wallet : Option UserWallet ← call (.findWallet dto.network
    (Accounts.AuthService.normalizeWalletAddress lib dto.address))
  match wallet with
  | some wallet => loginKnown dto wallet
  | none => loginUnknown lib dto

def walletLogin (dto : WalletLoginDto) : Service Login := do
  let nonceStatus : Option String ← call (.cacheGet (nonceKey dto.nonce))
  if nonceStatus = some "issued" then
    call (.cacheDel (nonceKey dto.nonce))
    match Accounts.AuthService.isValidSignature lib dto with
    | .error message =>
      throw (.unauthorized ("Invalid signature format: " ++ message ++ " | sig length: " ++
        toString dto.signature.length))
    | .ok false =>
      let expectedMessage :=
        Accounts.AuthService.messageOf dto.network dto.provider dto.address dto.nonce
      throw (.unauthorized ("Signature verification failed. Expected msg: " ++
        expectedMessage.replace "\n" "\\n"))
    | .ok true => loginVerified lib dto
  else
    throw (.unauthorized ("Invalid or expired nonce: " ++ dto.nonce ++ ", status: " ++
      nonceStatus.getD "undefined"))

end AuthService

/-! ### Sessions -/

inductive Asked where
  | walletChallenge (dto : WalletChallengeDto)
  | walletLogin (dto : WalletLoginDto)

def Asked.program (lib : Libraries) : Asked → Service (Option Login)
  | .walletChallenge dto => do
    let _ ← AuthService.issueWalletChallenge dto
    pure none
  | .walletLogin dto => do
    let login ← AuthService.walletLogin lib dto
    pure (some login)

abbrev Happening := Event Asked Op (Except Failure (Option Login))

abbrev Happening.Res (e : Happening) : Type := Event.Res Op.Res e

abbrev Door := Journal House Asked Op Op.Res Failure (Option Login)

/-- A call that took effect. -/
abbrev Done := Async.Effect House Op

abbrev InProgress := Program Happening (Event.Res Op.Res) Failure Unit

abbrev DoorState := Async.Pool Door Happening (Event.Res Op.Res) Failure

abbrev DoorCondition :=
  Multiset InProgress → (e : Happening) → Door → Except Failure (Happening.Res e) → Prop

def anyHappening : DoorCondition := fun _ _ _ _ => True

abbrev door (lib : Libraries) (cond : DoorCondition) :=
  Async.system (Async.sessions (Returns lib) Total (fun _ => False) (Asked.program lib) House.Fresh
    House.Other cond)

abbrev Happens (lib : Libraries) (e : Happening) (w : Door) (r : Except Failure (Happening.Res e))
    (w' : Door) : Prop := Async.happens (Returns lib) Total (fun _ => False) e w r w'

end PayEra.Api.Logins
