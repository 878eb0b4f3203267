import PayEra.Api.Escalation

/-!
# Forged refresh tokens

`refreshToken` decodes a token before it verifies it, gives its `sub` to the database, and takes a token
that does not match the stored hash for a reuse: whoever names a user, or any users by a filter, can revoke
a refresh token.
-/

namespace PayEra.Api.Accounts

/-- Users that may refresh: live ones with a stored hash. -/
def Refreshable (d : Server) (id : String) : Prop :=
  ∃ u ∈ d.users, u.id = id ∧ u.deletedAt = none ∧ ∃ hashed, u.hashedRefreshToken = some hashed ∧
    hashed ≠ ""

/-- The user that `refreshToken` looks up. -/
def Server.findLive (d : Server) (scan : Scan) (p : String → Bool) : Option User :=
  (scan.rows d.users).find? fun u => p u.id ∧ u.deletedAt = none

/-- The token's `sub`, an id or a filter, selects a live user with a stored hash. -/
structure Finds (lib : Libraries) (x : Chance) (token : String) (d : Server) (user : User)
    (hashed : String) : Prop where
  selects : ∃ p, AuthService.condition lib token = .ok p ∧ d.findLive x.scan p = some user
  stored : user.hashedRefreshToken = some hashed
  nonempty : hashed ≠ ""

/-! ### The exits of a refresh -/

section Exits

variable {lib : Libraries} {x : Chance} {token hashed : String} {d : Server} {user : User}

/-- A row of a live user that is found. -/
lemma mem_of_findLive {p : String → Bool} {u : User} (h : d.findLive x.scan p = some u) :
    u ∈ d.users ∧ p u.id ∧ u.deletedAt = none := by
  have hcond := List.find?_some h
  simp only [Bool.decide_and, Bool.and_eq_true, decide_eq_true_eq] at hcond
  exact ⟨x.scan.mem_of_find? h, hcond⟩

/-- A token that carries an id is looked up by it. -/
lemma condition_of_names {id : String} {p : String → Bool} (hnames : lib.Names token id)
    (h : AuthService.condition lib token = .ok p) (k : String) : p k = decide (k = id) := by
  obtain ⟨json, hdecode, hsub⟩ := hnames
  rw [AuthService.condition, hdecode] at h
  cases json with
  | obj fields =>
    simp only [hsub, Except.toOption, Option.join_some] at h
    cases hfilter : (some (Json.str id)).filter Json.truthy with
    | none =>
      rw [hfilter] at h
      cases h
    | some sub =>
      obtain rfl := Option.some.inj (Option.filter_eq_some_iff.mp hfilter).1
      rw [hfilter] at h
      cases hwhere : lib.whereId (.str id) with
      | none =>
        simp only [hwhere, Option.elim_none] at h
        cases h
      | some q =>
        simp only [hwhere, Option.elim_some] at h
        cases h
        exact lib.whereId_str id p hwhere k
  | null | bool | num | str | arr => cases hsub

lemma Finds.mem (h : Finds lib x token d user hashed) : user ∈ d.users := by
  obtain ⟨p, -, hfind⟩ := h.selects
  exact (mem_of_findLive hfind).1

lemma Finds.id_eq {id : String} (h : Finds lib x token d user hashed) (hnames : lib.Names token id) :
    user.id = id := by
  obtain ⟨p, hcondition, hfind⟩ := h.selects
  have hp := (mem_of_findLive hfind).2.1
  rw [condition_of_names hnames hcondition] at hp
  exact of_decide_eq_true hp

lemma Finds.refreshable (h : Finds lib x token d user hashed) : Refreshable d user.id := by
  obtain ⟨p, -, hfind⟩ := h.selects
  obtain ⟨hmem, -, hlive⟩ := mem_of_findLive hfind
  exact ⟨user, hmem, rfl, hlive, hashed, h.stored, h.nonempty⟩

lemma Finds.findUser (h : Finds lib x token d user hashed) : ∃ u, d.findUser user.id = some u :=
  Option.isSome_iff_exists.mp (List.find?_isSome.mpr ⟨user, h.mem, by simp⟩)

/-- What the service reads of the token and of the user. -/
lemma Finds.reads (h : Finds lib x token d user hashed) :
    ∃ p, AuthService.condition lib token = .ok p ∧
      (x.scan.rows d.users).find? (fun u => p u.id ∧ u.deletedAt = none) = some user ∧
      user.hashedRefreshToken.filter (· ≠ "") = some hashed := by
  obtain ⟨⟨p, hcondition, hfind⟩, hstored, hnonempty⟩ := h
  exact ⟨p, hcondition, hfind, by simp [hstored, Option.filter, hnonempty]⟩

/-- A token that does not match is taken for a reuse. -/
lemma Finds.mismatch (h : Finds lib x token d user hashed) (hcompare : lib.compare token hashed = false) :
    AuthService.refreshToken lib x token d =
      ((d.updateUser user.id fun u => { u with hashedRefreshToken := none }).log user.id
        "TOKEN_REUSE_DETECTED" [("reason", "Refresh token reuse detected - all tokens revoked")],
        .error (.unauthorized "Token reuse detected. All sessions revoked. Please log in again.")) := by
  obtain ⟨p, hdecoded, hfind, hfilter⟩ := h.reads
  simp only [AuthService.refreshToken, hdecoded, hfind, hfilter, hcompare, Bool.false_eq_true, if_false]

lemma Finds.expired (h : Finds lib x token d user hashed) (hcompare : lib.compare token hashed = true)
    (hverify : lib.verify .refresh x.now token = none) :
    AuthService.refreshToken lib x token d = (d, .error (.badRequest "Refresh token expired")) := by
  obtain ⟨p, hdecoded, hfind, hfilter⟩ := h.reads
  simp only [AuthService.refreshToken, hdecoded, hfind, hfilter, hcompare, if_true, hverify]

lemma Finds.accepted (h : Finds lib x token d user hashed) (hcompare : lib.compare token hashed = true)
    (hverifies : (lib.verify .refresh x.now token).isSome) :
    AuthService.refreshToken lib x token d =
      AuthService.generateTokens lib x user.id user.role d fun auth d => (d, .ok (.auth auth)) := by
  obtain ⟨p, hdecoded, hfind, hfilter⟩ := h.reads
  obtain ⟨payload, hverify⟩ := Option.isSome_iff_exists.mp hverifies
  simp only [AuthService.refreshToken, hdecoded, hfind, hfilter, hcompare, if_true, hverify]

/-- Unless a user is found, nothing happens. -/
lemma refreshToken_cases (lib : Libraries) (x : Chance) (token : String) (d : Server) :
    (∃ e, AuthService.refreshToken lib x token d = (d, .error e)) ∨
      ∃ user hashed, Finds lib x token d user hashed ∧
        (lib.compare token hashed = false ∨
          lib.compare token hashed = true ∧ (lib.verify .refresh x.now token).isSome) := by
  rw [AuthService.refreshToken]
  split
  · exact .inl ⟨_, rfl⟩
  · rename_i p hcondition
    split
    · exact .inl ⟨_, rfl⟩
    · rename_i user huser
      split
      · exact .inl ⟨_, rfl⟩
      · rename_i hashed hhashed
        obtain ⟨hstored, hnonempty⟩ := Option.filter_eq_some_iff.mp hhashed
        have hfinds : Finds lib x token d user hashed :=
          ⟨⟨p, hcondition, huser⟩, hstored, by simpa using hnonempty⟩
        cases hcompare : lib.compare token hashed with
        | false => exact .inr ⟨user, hashed, hfinds, .inl hcompare⟩
        | true =>
          rw [if_pos rfl]
          cases hverify : lib.verify .refresh x.now token with
          | none => exact .inl ⟨_, rfl⟩
          | some payload => exact .inr ⟨user, hashed, hfinds, .inr ⟨hcompare, rfl⟩⟩

end Exits

/-! ### Forging -/

section Forgery

variable (lib : Libraries)

/-- A token that verifies with the refresh secret was signed by the server. -/
def Unforgeable (d : Server) : Prop :=
  ∀ now token payload, lib.verify .refresh now token = some payload →
    ∃ i ∈ d.issued, i.secret = .refresh ∧ i.token = token

/-- The token is not one of those that the server signed with its refresh secret. -/
def Forged (d : Server) (token : String) : Prop :=
  ∀ i ∈ d.issued, i.secret = .refresh → i.token ≠ token

/-- The refresh fails, and leaves every row of a user, and who may refresh. -/
structure Inert (x : Chance) (token : String) (d : Server) : Prop where
  fails : ∃ e, (AuthService.refreshToken lib x token d).2 = .error e
  rows : (AuthService.refreshToken lib x token d).1.users = d.users
  refreshable : ∀ id, Refreshable (AuthService.refreshToken lib x token d).1 id ↔ Refreshable d id

/-- The token's `sub` selects a live user with a stored hash, which the token does not match. -/
def Mismatches (x : Chance) (token : String) (d : Server) : Prop :=
  ∃ user hashed, Finds lib x token d user hashed ∧ lib.compare token hashed = false

variable {lib} {x : Chance} {token : String} {d : Server}

lemma inert_of_rows (hfails : ∃ e, (AuthService.refreshToken lib x token d).2 = .error e)
    (hrows : (AuthService.refreshToken lib x token d).1.users = d.users) : Inert lib x token d := by
  refine ⟨hfails, hrows, fun id => ?_⟩
  rw [Refreshable, Refreshable, hrows]

lemma not_inert_of_mismatches (h : Mismatches lib x token d) : ¬Inert lib x token d := by
  obtain ⟨user, hashed, hfinds, hcompare⟩ := h
  intro hinert
  have hrows := hinert.rows
  rw [hfinds.mismatch hcompare] at hrows
  obtain ⟨i, hi⟩ := List.getElem?_of_mem hfinds.mem
  have hrow := congrArg (fun l => l[i]?) hrows
  simp only [Server.log, Server.updateUser, updateWhere, List.getElem?_map, hi, Option.map_some,
    decide_true, if_true, Option.some.injEq] at hrow
  have hstored := hfinds.stored
  rw [← hrow] at hstored
  cases hstored

/-- Takes a string for an id, and `{ not: s }` for every other one. -/
def whereNot : Json → Option (String → Bool)
  | .obj [("not", .str s)] => some fun id => id ≠ s
  | json => whereString json

lemma whereNot_str (s : String) (p : String → Bool) (h : whereNot (.str s) = some p) (id : String) :
    p id = decide (id = s) := whereString_str s p h id

/-- One token names the user, the other everybody but somebody else. -/
def decodeForged (token : String) : Except String Json :=
  if token = "shopper.forged" then .ok (.obj [("sub", .str "shopper")])
  else if token = "anyone.forged" then .ok (.obj [("sub", .obj [("not", .str "nobody")])])
  else .ok .null

/-- Nothing verifies. -/
def forgingLibraries : Libraries where
  sign s payload _ := payload.sub ++ (match s with | .access => ".access" | .refresh => ".refresh")
  decode := decodeForged
  verify := verifyNone
  decode_of_verify := decode_of_verifyNone
  whereId := whereNot
  whereId_str := whereNot_str
  hash token _ := token
  compare token hashed := token = hashed
  verifySignature _ _ _ := .ok false
  sha256 bytes := bytes
  base64 _ := []
  trim s := s
  toLowerCase s := s

/-- A user who has logged in. -/
def loggedInServer : Server where
  users := [{ id := "shopper", status := .ACTIVE, hashedRefreshToken := some "shopper.refresh" }]
  issued := [⟨.refresh, ⟨"shopper", .CONSUMER⟩, "shopper.refresh"⟩]

end Forgery

end PayEra.Api.Accounts
