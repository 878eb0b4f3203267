import PayEra.Api.StoredHashes
import PayEra.Lib.Base64

/-!
# Rotation of refresh tokens

The tokens are compact JSON web tokens, and bcrypt hashes the first 72 bytes of what it is given. All
refresh tokens of one user begin alike for longer than that, so a stored hash matches every one of
them: a token that was used is accepted as long as the user can refresh at all.
-/

namespace PayEra.Api.Accounts

open Transition Base64

/-! ### The tokens -/

/-- The canonical form of a UUID, as the database makes them. -/
def isUuid (id : String) : Bool :=
  id.toList.length = 36 && id.toList.all fun c => (Hex.digit c).isSome || c = '-'

def roleName : UserRole → String
  | .CONSUMER => "CONSUMER"
  | .MERCHANT_OPERATOR => "MERCHANT_OPERATOR"
  | .BRAND_OPERATOR => "BRAND_OPERATOR"
  | .ADMIN => "ADMIN"

def joseHeader : String := Json.opening ++ "\"alg\":\"HS256\",\"typ\":\"JWT\"" ++ Json.closing

/-- What the claims begin with. -/
def subjectStart (id : String) : String := Json.opening ++ "\"sub\":\"" ++ id

/-- `JSON.stringify({ sub, role, iat, exp })`, where `sub` needs no escapes. -/
def claimsJson (payload : JwtPayload) (iat exp : ℕ) : String :=
  subjectStart payload.sub ++ ("\",\"role\":\"" ++ roleName payload.role ++ "\",\"iat\":" ++
    toString iat ++ ",\"exp\":" ++ toString exp ++ Json.closing)

def signingInput (payload : JwtPayload) (iat exp : ℕ) : List Char :=
  encode (bytes joseHeader) ++ '.' :: encode (bytes (claimsJson payload iat exp))

section Assumptions

variable (lib : Libraries)

/-- `sign` makes compact tokens; `mac` is the encoded HMAC, and a token lives for some seconds. -/
def Compact : Prop :=
  ∃ (mac : Secret → List Char → List Char) (lifetime : Secret → ℕ), ∀ s payload now,
    lib.sign s payload now =
      let input := signingInput payload (now / 1000) (now / 1000 + lifetime s)
      String.ofList (input ++ '.' :: mac s input)

/-- bcrypt hashes and compares the first 72 bytes. -/
def Truncates : Prop :=
  ∀ password other salt, lib.compare password (lib.hash other salt) =
    decide ((bytes password).take 72 = (bytes other).take 72)

end Assumptions

/-- What the tokens of a user begin with: the header, and 27 bytes of the payload. -/
def tokenStart (id : String) : List Char :=
  encode (bytes joseHeader) ++ '.' :: encode ((bytes (subjectStart id)).take 27)

lemma length_bytes_subject {id : String} (h : isUuid id = true) :
    27 ≤ (bytes (subjectStart id)).length := by
  simp only [isUuid, Bool.and_eq_true, decide_eq_true_eq] at h
  have hstart : (bytes (Json.opening ++ "\"sub\":\"")).length = 8 := by decide
  have hid := length_le_bytes id
  rw [subjectStart, bytes_append, List.length_append, hstart]
  omega

lemma length_tokenStart {id : String} (h : isUuid id = true) : 72 ≤ (tokenStart id).length := by
  have hheader : (encode (bytes joseHeader)).length = 36 := by decide
  have htake : ((bytes (subjectStart id)).take 27).length = 27 := by
    rw [List.length_take]
    exact Nat.min_eq_left (length_bytes_subject h)
  have hsubject : (encode ((bytes (subjectStart id)).take 27)).length = 36 := by
    rw [length_encode _ (by rw [htake]), htake]
  rw [tokenStart, List.length_append, List.length_cons, hheader, hsubject]
  omega

/-- Every compact token of the user starts so. -/
lemma tokenStart_prefix {p : JwtPayload} (h : isUuid p.sub = true) (iat exp : ℕ) :
    ∃ rest, signingInput p iat exp = tokenStart p.sub ++ rest := by
  have htake : ((bytes (subjectStart p.sub)).take 27).length % 3 = 0 := by
    rw [List.length_take, Nat.min_eq_left (length_bytes_subject h)]
  obtain ⟨text, htext⟩ : ∃ text, claimsJson p iat exp = subjectStart p.sub ++ text := ⟨_, rfl⟩
  have hbytes : bytes (claimsJson p iat exp) = (bytes (subjectStart p.sub)).take 27 ++
      ((bytes (subjectStart p.sub)).drop 27 ++ bytes text) := by
    rw [htext, bytes_append, ← List.append_assoc, List.take_append_drop]
  rw [signingInput, tokenStart, hbytes, encode_append _ _ htake]
  exact ⟨_, by rw [List.append_assoc, List.cons_append]⟩

/-- Whatever begins like a token of the user agrees with every other token of the user as far as
bcrypt looks. -/
lemma take_bytes_sign {lib : Libraries} (hcompact : Compact lib) {id : String} (h : isUuid id = true)
    (s : Secret) (role : UserRole) (now : ℕ) :
    (bytes (lib.sign s ⟨id, role⟩ now)).take 72 =
      (bytes (String.ofList (tokenStart id))).take 72 := by
  obtain ⟨mac, lifetime, hsign⟩ := hcompact
  obtain ⟨rest, hrest⟩ := tokenStart_prefix (p := ⟨id, role⟩) h (now / 1000)
    (now / 1000 + lifetime s)
  have hlength : 72 ≤ (bytes (String.ofList (tokenStart id))).length :=
    (length_tokenStart h).trans (by simpa using length_le_bytes (String.ofList (tokenStart id)))
  rw [hsign]
  simp only [hrest, List.append_assoc, bytes_ofList_append]
  exact List.take_append_of_le_length hlength

/-- **All tokens match.** What matches the hash of one refresh token of a user matches the hash of each
of them. -/
theorem compare_all {lib : Libraries} (hcompact : Compact lib) (htruncates : Truncates lib)
    {id token salt salt' : String} (h : isUuid id = true) {role role' : UserRole} {now now' : ℕ}
    (hmatch : lib.compare token (lib.hash (lib.sign .refresh ⟨id, role⟩ now) salt) = true) :
    lib.compare token (lib.hash (lib.sign .refresh ⟨id, role'⟩ now') salt') = true := by
  rw [htruncates, take_bytes_sign hcompact h] at hmatch ⊢
  exact hmatch

/-! ### Reuse -/

section Moves

variable (lib : Libraries) (production : Bool)

def Presents (m : AccountMove) (token : String) : Prop := m.label.1 = .account (.refresh token)

/-- The refresh succeeds. -/
def Refreshed (m : AccountMove) (token : String) : Prop :=
  Presents m token ∧
    ∃ auth, (handle lib m.label.2 production m.label.1 m.pre).2 = .ok (.auth auth)

/-- A login is answered by tokens of the user. -/
def LoggedIn (m : AccountMove) (id : String) : Prop :=
  (∃ auth user wallet, (handle lib m.label.2 production m.label.1 m.pre).2 =
    .ok (.login auth user wallet) ∧ user.id = id) ∨
  ∃ auth user, (handle lib m.label.2 production m.label.1 m.pre).2 =
    .ok (.mockLogin auth user) ∧ user.id = id

/-- The token is refreshed, and presented again by `m`, after `between`. -/
def Reused (tr : List AccountMove) (token : String) (between : List AccountMove) (m : AccountMove)
    (after : List AccountMove) : Prop :=
  ∃ tr₁ m₁, tr = tr₁ ++ m₁ :: (between ++ m :: after) ∧ Refreshed lib production m₁ token ∧
    Presents m token

/-- Rotation: a token is refreshed once, and the first reuse leaves its user without a refresh token
that could succeed until the next login. -/
structure Rotates (tr : List AccountMove) : Prop where
  once : ∀ token between m after, Reused lib production tr token between m after →
    ¬Refreshed lib production m token
  revokes : ∀ token between m after id, Reused lib production tr token between m after →
    (∀ k ∈ between, ¬Presents k token) → lib.Names token id →
      ¬Refreshable m.post id ∧ ∀ until_ k rest token', after = until_ ++ k :: rest →
        (∀ k' ∈ until_, ¬LoggedIn lib production k' id) → lib.Names token' id →
          ¬Refreshed lib production k token'

/-- A reused token finds its user without a stored hash, or deleted; or it has expired, and this is not
its first reuse. -/
def Lapses (tr : List AccountMove) : Prop :=
  ∀ token between m after id, Reused lib production tr token between m after →
    lib.Names token id → ¬Refreshable m.pre id ∨
      (∃ k ∈ between, Presents k token) ∧ lib.verify .refresh m.label.2.now token = none

end Moves

/-- The rows of users: unique ids, which are UUIDs, and hashes of the users' own refresh tokens. -/
structure Keyed (lib : Libraries) (d : Server) : Prop where
  nodup : (d.users.map User.id).Nodup
  uuid : ∀ u ∈ d.users, isUuid u.id = true
  stored : ∀ u ∈ d.users, ∀ hashed, u.hashedRefreshToken = some hashed →
    ∃ role now salt, hashed = lib.hash (lib.sign .refresh ⟨u.id, role⟩ now) salt

/-- Requests one after the other; the database's ids are UUIDs. -/
def rotations (lib : Libraries) (production : Bool) : System Server (AccountRequest × Chance) where
  Init := Keyed lib
  Step d l d' := isUuid l.2.userId = true ∧ d' = (handle lib l.2 production l.1 d).1

section Lemmas

variable {lib : Libraries} {production : Bool} {d₀ d d' : Server} {tr : List AccountMove}
  {l : AccountRequest × Chance} {id token : String} {x : Chance} {m : AccountMove}

/-- The invariant of the rows. -/
lemma Keyed.step (h : Keyed lib d) (hstep : (rotations lib production).Step d l d') : Keyed lib d' := by
  obtain ⟨huuid, rfl⟩ := hstep
  cases handle_userEffect lib l.2 production l.1 d with
  | rows f husers hf =>
    have hids : (handle lib l.2 production l.1 d).1.users.map User.id = d.users.map User.id := by
      rw [husers, List.map_map]
      exact List.map_congr_left fun u hu => (hf u hu).id
    refine ⟨by rw [hids]; exact h.nodup, fun v hv => ?_, fun v hv hashed hhashed => ?_⟩
    · rw [husers] at hv
      obtain ⟨u, hu, rfl⟩ := List.mem_map.mp hv
      rw [(hf u hu).id]
      exact h.uuid u hu
    · rw [husers] at hv
      obtain ⟨u, hu, rfl⟩ := List.mem_map.mp hv
      rw [(hf u hu).id]
      rcases (hf u hu).hash with hsame | hnone | ⟨-, role, hfresh⟩
      · exact h.stored u hu hashed (hsame.symm.trans hhashed)
      · rw [hnone] at hhashed
        cases hhashed
      · exact ⟨role, _, _, Option.some.inj (hhashed.symm.trans hfresh)⟩
  | created u husers hid hnew hhash =>
    refine ⟨?_, fun v hv => ?_, fun v hv hashed hhashed => ?_⟩
    · rw [husers, List.map_append, List.map_singleton, List.nodup_append_comm, List.singleton_append,
        List.nodup_cons]
      refine ⟨fun hmem => ?_, h.nodup⟩
      obtain ⟨v, hv, hvid⟩ := List.mem_map.mp hmem
      exact hnew v hv hvid
    · rw [husers] at hv
      rcases List.mem_append.mp hv with hv | hv
      · exact h.uuid v hv
      · obtain rfl := List.mem_singleton.mp hv
        rw [hid]
        exact huuid
    · rw [husers] at hv
      rcases List.mem_append.mp hv with hv | hv
      · exact h.stored v hv hashed hhashed
      · obtain rfl := List.mem_singleton.mp hv
        rcases hhash with hnone | ⟨-, role, hfresh⟩
        · rw [hnone] at hhashed
          cases hhashed
        · exact ⟨role, _, _, Option.some.inj (hhashed.symm.trans hfresh)⟩

lemma keyed_of_run (h₀ : Keyed lib d₀) (h : (rotations lib production).Run d₀ tr d) : Keyed lib d := by
  induction h with
  | nil => exact h₀
  | snoc _ hstep ih => exact ih.step hstep

/-! ### One refresh -/

/-- Whoever may refresh is found by the lookup. -/
lemma finds_of_refreshable (h : Keyed lib d) {p : String → Bool} (hnames : lib.Names token id)
    (hcondition : AuthService.condition lib token = .ok p) (hid : Refreshable d id) :
    ∃ user hashed, Finds lib x token d user hashed := by
  have hp := condition_of_names hnames hcondition
  obtain ⟨u, hu, huid, hlive, hashed, hstored, hnonempty⟩ := hid
  obtain ⟨v, hv⟩ := Option.isSome_iff_exists.mp
    (List.find?_isSome.mpr ⟨u, (x.scan.perm d.users).mem_iff.mpr hu, by simp [hp, huid, hlive]⟩ :
      (d.findLive x.scan p).isSome)
  obtain ⟨hmem, hvid, -⟩ := mem_of_findLive hv
  rw [hp, decide_eq_true_eq] at hvid
  obtain rfl : v = u := List.inj_on_of_nodup_map h.nodup hmem hu (hvid.trans huid.symm)
  exact ⟨v, hashed, ⟨p, hcondition, hv⟩, hstored, hnonempty⟩

/-- A refresh that succeeds has found a user whose hash the token matches. -/
lemma finds_of_refreshed {auth : Tokens}
    (h : (AuthService.refreshToken lib x token d).2 = .ok (.auth auth)) : ∃ user hashed,
      Finds lib x token d user hashed ∧ lib.compare token hashed = true ∧
        (lib.verify .refresh x.now token).isSome := by
  rcases refreshToken_cases lib x token d with
    ⟨e, hcase⟩ | ⟨user, hashed, hfinds, hcompare | ⟨hcompare, hverifies⟩⟩
  · rw [hcase] at h
    cases h
  · rw [hfinds.mismatch hcompare] at h
    cases h
  · exact ⟨user, hashed, hfinds, hcompare, hverifies⟩

/-- A user who may not refresh is left as it is. -/
lemma refreshToken_of_not_refreshable (hnames : lib.Names token id) (h : ¬Refreshable d id) :
    (AuthService.refreshToken lib x token d).1 = d := by
  rcases refreshToken_cases lib x token d with ⟨e, hcase⟩ | ⟨user, hashed, hfinds, -⟩
  · rw [hcase]
  · exact absurd (hfinds.id_eq hnames ▸ hfinds.refreshable) h

/-- A token that matches: the refresh succeeds, or the token has expired and nothing happens. -/
lemma refreshToken_of_matching {user : User} {hashed : String}
    (hfinds : Finds lib x token d user hashed) (hcompare : lib.compare token hashed = true) :
    (lib.verify .refresh x.now token = none ∧ (AuthService.refreshToken lib x token d).1 = d) ∨
      ∃ auth, (AuthService.refreshToken lib x token d).2 = .ok (.auth auth) := by
  cases hverify : lib.verify .refresh x.now token with
  | none =>
    rw [hfinds.expired hcompare hverify]
    exact .inl ⟨rfl, rfl⟩
  | some payload =>
    obtain ⟨u, hu⟩ := hfinds.findUser
    rw [hfinds.accepted hcompare (by rw [hverify]; rfl)]
    simp only [AuthService.generateTokens, hu]
    exact .inr ⟨_, rfl⟩

/-! ### Until the next login -/

/-- Nobody but a login lets a user refresh who may not. -/
lemma not_refreshable_step (hstep : (rotations lib production).Step d l d') (h : ¬Refreshable d id)
    (hlogin : ¬LoggedIn lib production ⟨d, l, d'⟩ id) : ¬Refreshable d' id := by
  obtain ⟨-, rfl⟩ := hstep
  have hgives : ¬Gives l.1 d (handle lib l.2 production l.1 d).2 id := by
    intro hgives
    cases hgives with
    | login auth user wallet hanswer hid => exact hlogin (.inl ⟨auth, user, wallet, hanswer, hid⟩)
    | demo auth user hanswer hid => exact hlogin (.inr ⟨auth, user, hanswer, hid⟩)
    | refresh token hr hrefreshable => exact h hrefreshable
  rintro ⟨v, hv, hvid, hlive, hashed, hhashed, hnonempty⟩
  cases handle_userEffect lib l.2 production l.1 d with
  | rows f husers hf =>
    rw [husers] at hv
    obtain ⟨u, hu, rfl⟩ := List.mem_map.mp hv
    have huid : u.id = id := (hf u hu).id.symm.trans hvid
    rcases (hf u hu).hash with hsame | hnone | ⟨hg, -⟩
    · exact h ⟨u, hu, huid, (hf u hu).deletedAt hlive, hashed, hsame.symm.trans hhashed, hnonempty⟩
    · rw [hnone] at hhashed
      cases hhashed
    · exact hgives (huid ▸ hg)
  | created u husers _ _ hhash =>
    rw [husers] at hv
    rcases List.mem_append.mp hv with hv | hv
    · exact h ⟨v, hv, hvid, hlive, hashed, hhashed, hnonempty⟩
    · obtain rfl := List.mem_singleton.mp hv
      rcases hhash with hnone | ⟨hg, -⟩
      · rw [hnone] at hhashed
        cases hhashed
      · exact hgives (hvid ▸ hg)

lemma not_refreshable_of_run (h : (rotations lib production).Run d tr d') (hd : ¬Refreshable d id)
    (hlogin : ∀ k ∈ tr, ¬LoggedIn lib production k id) : ¬Refreshable d' id := by
  induction h with
  | nil => exact hd
  | snoc hrun hstep ih =>
    refine not_refreshable_step hstep (ih fun k hk => hlogin k (List.mem_append_left _ hk)) ?_
    exact hlogin _ (List.mem_append_right _ (List.mem_singleton_self _))

/-! ### Runs -/

lemma handle_refresh (x : Chance) (token : String) (d : Server) :
    handle lib x production (.account (.refresh token)) d = AuthService.refreshToken lib x token d := rfl

/-- A token that verifies carries an id. -/
lemma names_of_verifies {s : Secret} {now : ℕ} (h : (lib.verify s now token).isSome) :
    ∃ k, lib.Names token k := by
  obtain ⟨p, hp⟩ := Option.isSome_iff_exists.mp h
  exact ⟨p.sub, lib.decode_of_verify s now token p hp⟩

/-- A token that was refreshed once matches whatever hash its user has. -/
lemma compare_of_refreshed (hcompact : Compact lib) (htruncates : Truncates lib) {m : AccountMove}
    (hm : Keyed lib m.pre) (hrefreshed : Refreshed lib production m token) (hd : Keyed lib d)
    {user : User} {hashed : String} (hfinds : Finds lib x token d user hashed) :
    lib.compare token hashed = true := by
  obtain ⟨hr, auth, hanswer⟩ := hrefreshed
  rw [hr, handle_refresh] at hanswer
  obtain ⟨user₁, hashed₁, hfinds₁, hcompare, hverifies⟩ := finds_of_refreshed hanswer
  obtain ⟨k, hnames⟩ := names_of_verifies hverifies
  have hid : user.id = user₁.id := (hfinds.id_eq hnames).trans (hfinds₁.id_eq hnames).symm
  obtain ⟨role₁, now₁, salt₁, rfl⟩ := hm.stored user₁ hfinds₁.mem hashed₁ hfinds₁.stored
  obtain ⟨role, now, salt, rfl⟩ := hd.stored user hfinds.mem hashed hfinds.stored
  rw [hid]
  exact compare_all hcompact htruncates (hm.uuid user₁ hfinds₁.mem) hcompare

/-- A refresh that succeeds is by a user who may. -/
lemma refreshable_of_refreshed (h : Refreshed lib production m token) (hnames : lib.Names token id) :
    Refreshable m.pre id ∧ (lib.verify .refresh m.label.2.now token).isSome := by
  obtain ⟨hr, auth, hanswer⟩ := h
  rw [hr, handle_refresh] at hanswer
  obtain ⟨user, hashed, hfinds, -, hverifies⟩ := finds_of_refreshed hanswer
  exact ⟨hfinds.id_eq hnames ▸ hfinds.refreshable, hverifies⟩

/-- A reuse that fails, and after which the user may not refresh if it is the first, lapses. -/
lemma lapses_of_rotates (hcompact : Compact lib) (htruncates : Truncates lib) (h₀ : Keyed lib d₀)
    (h : (rotations lib production).Run d₀ tr d) (hrotates : Rotates lib production tr) :
    Lapses lib production tr := by
  intro token between m after sub hreused hnames
  by_cases hrefreshable : Refreshable m.pre sub
  · have hfails := hrotates.once token between m after hreused
    obtain ⟨tr₁, m₁, rfl, hrefreshed, hr⟩ := id hreused
    have hm₁ := keyed_of_run h₀ (h.split tr₁ m₁ _).1
    rw [← List.cons_append, ← List.append_assoc] at h
    obtain ⟨hrun, -, hpost⟩ := h.split _ m after
    have hm := keyed_of_run h₀ hrun
    -- what the token was looked up by does not depend on the rows
    have hcondition : ∃ p, AuthService.condition lib token = .ok p := by
      obtain ⟨hr₁, auth, hanswer⟩ := hrefreshed
      rw [hr₁, handle_refresh] at hanswer
      obtain ⟨user, hashed, hfinds, -⟩ := finds_of_refreshed hanswer
      obtain ⟨p, hp, -⟩ := hfinds.selects
      exact ⟨p, hp⟩
    obtain ⟨p, hp⟩ := hcondition
    obtain ⟨user, hashed, hfinds⟩ := finds_of_refreshable hm hnames hp hrefreshable
    have hcompare := compare_of_refreshed hcompact htruncates hm₁ hrefreshed hm hfinds
    rw [hr, handle_refresh] at hpost
    rcases refreshToken_of_matching (x := m.label.2) hfinds hcompare with ⟨hverify, hsame⟩ | hok
    · refine .inr ⟨?_, hverify⟩
      by_contra hfirst
      push Not at hfirst
      have hrevoked := (hrotates.revokes token between m after sub hreused hfirst hnames).1
      rw [hpost, hsame] at hrevoked
      exact hrevoked hrefreshable
    · refine absurd ⟨hr, ?_⟩ hfails
      rw [hr]
      exact hok
  · exact .inl hrefreshable

lemma rotates_of_lapses (h : (rotations lib production).Run d₀ tr d)
    (hlapses : Lapses lib production tr) : Rotates lib production tr := by
  have hfails : ∀ token between m after, Reused lib production tr token between m after →
      ¬Refreshed lib production m token := by
    intro token between m after hreused hrefreshed
    obtain ⟨hr, auth, hanswer⟩ := id hrefreshed
    rw [hr, handle_refresh] at hanswer
    obtain ⟨user, hashed, hfinds, -, hverifies⟩ := finds_of_refreshed hanswer
    obtain ⟨sub, hnames⟩ := names_of_verifies hverifies
    obtain ⟨hrefreshable, -⟩ := refreshable_of_refreshed hrefreshed hnames
    rcases hlapses token between m after sub hreused hnames with hno | ⟨-, hexpired⟩
    · exact hno hrefreshable
    · rw [hexpired] at hverifies
      cases hverifies
  refine ⟨hfails, fun token between m after sub hreused hfirst hnames => ?_⟩
  have hno : ¬Refreshable m.pre sub := by
    rcases hlapses token between m after sub hreused hnames with hno | ⟨⟨k, hk, hpresents⟩, -⟩
    · exact hno
    · exact absurd hpresents (hfirst k hk)
  obtain ⟨tr₁, m₁, rfl, -, hr⟩ := hreused
  rw [← List.cons_append, ← List.append_assoc] at h
  obtain ⟨-, -, hpost⟩ := h.split _ m after
  have hrevoked : ¬Refreshable m.post sub := by
    rw [hpost, hr, handle_refresh, refreshToken_of_not_refreshable hnames hno]
    exact hno
  refine ⟨hrevoked, ?_⟩
  rintro until_ k rest token' rfl hlogin hnames' hrefreshed
  have hafter := (h.after _ m _).split until_ k rest
  refine not_refreshable_of_run hafter.1 hrevoked hlogin ?_
  exact (refreshable_of_refreshed hrefreshed hnames').1

/-- **Rotation.** Along a run a refresh token is accepted once, and its first reuse keeps its user from
refreshing until the next login, exactly if a used token is presented again only while its user is
deleted or has no stored hash, or once more after it has expired. -/
theorem refresh_rotation_iff (lib : Libraries) (production : Bool) (d₀ d : Server)
    (tr : List AccountMove) (hcompact : Compact lib) (htruncates : Truncates lib)
    (h₀ : (rotations lib production).Init d₀) (h : (rotations lib production).Run d₀ tr d) :
    Rotates lib production tr ↔ Lapses lib production tr :=
  ⟨lapses_of_rotates hcompact htruncates h₀ h, rotates_of_lapses h⟩

end Lemmas

/-! ### A token that is used twice -/

def shopperClaims : JwtPayload := ⟨"00000000-0000-4000-8000-00000000000a", .CONSUMER⟩

/-- Stands for the signature. -/
def compactMac : Secret → List Char
  | .access => "access".toList
  | .refresh => "refresh".toList

@[irreducible] def compactSign (s : Secret) (payload : JwtPayload) (now : ℕ) : String :=
  let input := signingInput payload (now / 1000) (now / 1000 + 2592000)
  String.ofList (input ++ '.' :: compactMac s)

/-- The token that the user was given at its login. -/
def usedToken : String := compactSign .refresh shopperClaims 1000

def verifyUsed (s : Secret) (now : ℕ) (token : String) : Option JwtPayload :=
  if s = .refresh ∧ token = usedToken ∧ now / 1000 < 1 + 2592000 then some shopperClaims else none

def decodeUsed (token : String) : Except String Json :=
  .ok (if token = usedToken then
    .obj [("sub", .str shopperClaims.sub), ("role", .str (roleName shopperClaims.role))] else .null)

lemma decode_of_verifyUsed (s : Secret) (now : ℕ) (token : String) (p : JwtPayload)
    (h : verifyUsed s now token = some p) :
    ∃ json, decodeUsed token = .ok json ∧ json.get "sub" = .ok (some (.str p.sub)) := by
  rw [verifyUsed] at h
  split_ifs at h with hused
  obtain rfl := Option.some.inj h
  exact ⟨_, by rw [decodeUsed, if_pos hused.2.1], rfl⟩

/-- Libraries that know one token for 30 days, and compare 72 bytes. -/
def compactLibraries : Libraries where
  sign := compactSign
  decode := decodeUsed
  verify := verifyUsed
  decode_of_verify := decode_of_verifyUsed
  whereId := whereString
  whereId_str := whereString_str
  hash password _ := password
  compare password hashed := decide ((bytes password).take 72 = (bytes hashed).take 72)
  verifySignature _ _ _ := .ok false
  sha256 bytes := bytes
  base64 _ := []
  trim s := s
  toLowerCase s := s

lemma compact_compactLibraries : Compact compactLibraries := by
  refine ⟨fun s _ => compactMac s, fun _ => 2592000, fun s payload now => ?_⟩
  unfold compactLibraries compactSign
  rfl

lemma truncates_compactLibraries : Truncates compactLibraries := fun _ _ _ => rfl

/-- The user, with the hash of its refresh token. -/
def userWith (hashed : String) : User where
  id := shopperClaims.sub
  status := .ACTIVE
  hashedRefreshToken := some hashed

/-- The user has logged in. -/
def loggedInWith : Server where
  users := [userWith usedToken]
  issued := [⟨.refresh, shopperClaims, usedToken⟩]

def chanceAt (now : ℕ) : Chance where
  now := now
  nonce := "NONCE"
  userId := "00000000-0000-4000-8000-00000000000b"
  walletId := "wallet"
  referralCode := "CODE"
  salt := "salt"

lemma keyed_loggedInWith : Keyed compactLibraries loggedInWith := by
  refine ⟨List.nodup_singleton _, fun u hu => ?_, fun u hu hashed hstored => ?_⟩
  · obtain rfl := List.mem_singleton.mp hu
    decide
  · obtain rfl := List.mem_singleton.mp hu
    cases hstored
    exact ⟨.CONSUMER, 1000, "salt", rfl⟩

/-- As long as the user has the hash of any of its tokens, the used one is accepted. -/
lemma used_accepted {d : Server} {now : ℕ} (k : ℕ) (hnow : now / 1000 < 1 + 2592000)
    (husers : d.users = [userWith (compactSign .refresh shopperClaims k)]) :
    AuthService.refreshToken compactLibraries (chanceAt now) usedToken d =
      ({ d with
          users := [userWith (compactSign .refresh shopperClaims now)]
          issued := d.issued ++ tokensOf compactLibraries (chanceAt now) shopperClaims },
        .ok (.auth ⟨compactSign .access shopperClaims now, compactSign .refresh shopperClaims now⟩)) := by
  have hcondition : AuthService.condition compactLibraries usedToken =
      .ok fun id => decide (id = shopperClaims.sub) := by
    have hdecode : compactLibraries.decode usedToken = .ok (.obj [("sub", .str shopperClaims.sub),
        ("role", .str (roleName shopperClaims.role))]) := by
      show decodeUsed usedToken = _
      rw [decodeUsed, if_pos rfl]
    rw [AuthService.condition, hdecode]
    rfl
  have hfind : d.findLive (chanceAt now).scan (fun id => decide (id = shopperClaims.sub)) =
      some (userWith (compactSign .refresh shopperClaims k)) := by
    rw [Server.findLive, husers]
    rfl
  have hnonempty : compactSign .refresh shopperClaims k ≠ "" := by
    intro heq
    have hlength := congrArg (fun s => s.toList.length) heq
    simp [compactSign] at hlength
  have hfinds : Finds compactLibraries (chanceAt now) usedToken d
      (userWith (compactSign .refresh shopperClaims k)) (compactSign .refresh shopperClaims k) :=
    ⟨⟨_, hcondition, hfind⟩, rfl, hnonempty⟩
  have hself : compactLibraries.compare usedToken
      (compactLibraries.hash (compactLibraries.sign .refresh shopperClaims 1000) "salt") = true :=
    decide_eq_true rfl
  have hcompare : compactLibraries.compare usedToken
      (compactLibraries.hash (compactLibraries.sign .refresh shopperClaims k) "salt") = true :=
    compare_all compact_compactLibraries truncates_compactLibraries (by decide) hself
  have hverify : compactLibraries.verify .refresh (chanceAt now).now usedToken = some shopperClaims :=
    if_pos ⟨rfl, rfl, hnow⟩
  rw [hfinds.accepted hcompare (by rw [hverify]; rfl)]
  have hfound : d.findUser shopperClaims.sub =
      some (userWith (compactSign .refresh shopperClaims k)) := by
    rw [Server.findUser, husers]
    rfl
  have hfound' : d.findUser (userWith (compactSign .refresh shopperClaims k)).id =
      some (userWith (compactSign .refresh shopperClaims k)) := hfound
  simp only [AuthService.generateTokens, hfound', Server.updateUser, husers]
  rfl

def sampleRefresh (now : ℕ) : AccountRequest × Chance :=
  (.account (.refresh usedToken), chanceAt now)

/-- The server after the token was used for the first time. -/
def rotatedOnce : Server where
  users := [userWith (compactSign .refresh shopperClaims 2000)]
  issued := loggedInWith.issued ++ tokensOf compactLibraries (chanceAt 2000) shopperClaims

lemma handle_used :
    handle compactLibraries (chanceAt 2000) true (.account (.refresh usedToken)) loggedInWith =
      (rotatedOnce, .ok (.auth ⟨compactSign .access shopperClaims 2000,
        compactSign .refresh shopperClaims 2000⟩)) :=
  used_accepted 1000 (by decide) (by unfold loggedInWith usedToken; rfl)

lemma step_used : (rotations compactLibraries true).Step loggedInWith (sampleRefresh 2000) rotatedOnce :=
  ⟨by decide, (congrArg Prod.fst handle_used).symm⟩

lemma refreshed_used :
    Refreshed compactLibraries true ⟨loggedInWith, sampleRefresh 2000, rotatedOnce⟩ usedToken :=
  ⟨rfl, _, congrArg Prod.snd handle_used⟩

/-- The server after it was used again. -/
def rotatedTwice : Server where
  users := [userWith (compactSign .refresh shopperClaims 3000)]
  issued := rotatedOnce.issued ++ tokensOf compactLibraries (chanceAt 3000) shopperClaims

lemma handle_used_again :
    handle compactLibraries (chanceAt 3000) true (.account (.refresh usedToken)) rotatedOnce =
      (rotatedTwice, .ok (.auth ⟨compactSign .access shopperClaims 3000,
        compactSign .refresh shopperClaims 3000⟩)) :=
  used_accepted 2000 (by decide) (by unfold rotatedOnce; rfl)

lemma step_used_again :
    (rotations compactLibraries true).Step rotatedOnce (sampleRefresh 3000) rotatedTwice :=
  ⟨by decide, (congrArg Prod.fst handle_used_again).symm⟩

lemma refreshed_used_again :
    Refreshed compactLibraries true ⟨rotatedOnce, sampleRefresh 3000, rotatedTwice⟩ usedToken :=
  ⟨rfl, _, congrArg Prod.snd handle_used_again⟩

/-- The token is refreshed, and a second later it is refreshed again. -/
theorem used_token_refreshes : ∃ lib d₀ tr d, Compact lib ∧ Truncates lib ∧
    (rotations lib true).Init d₀ ∧ (rotations lib true).Run d₀ tr d ∧ ¬Rotates lib true tr := by
  have hrun := (Transition.System.Run.single step_used).snoc step_used_again
  refine ⟨compactLibraries, loggedInWith, _, _, compact_compactLibraries, truncates_compactLibraries,
    keyed_loggedInWith, hrun, fun hrotates => ?_⟩
  refine hrotates.once usedToken [] _ [] ⟨[], _, ?_, refreshed_used, refreshed_used_again.1⟩
    refreshed_used_again
  simp only [List.nil_append, List.singleton_append]

/-- The token is refreshed once. -/
theorem refresh_rotation_iff_of_single : ∃ tr d, (rotations compactLibraries true).Run loggedInWith tr d ∧
    (∃ m ∈ tr, Refreshed compactLibraries true m usedToken) ∧ Rotates compactLibraries true tr := by
  have hrun := Transition.System.Run.single step_used
  refine ⟨_, _, hrun, ⟨_, List.mem_singleton_self _, refreshed_used⟩, ?_⟩
  refine (refresh_rotation_iff compactLibraries true _ _ _ compact_compactLibraries
    truncates_compactLibraries keyed_loggedInWith hrun).mpr ?_
  rintro token between m after p ⟨tr₁, m₁, heq, -⟩ -
  have hlength := congrArg List.length heq
  simp only [List.length_append, List.length_cons, List.length_nil] at hlength
  omega

end PayEra.Api.Accounts
