import PayEra.Api.Suspension

/-!
# Whose a verified wallet is

A wallet gets the time of its verification when its row is created: by a login that creates its user
and has verified a signature, or by a user who connects it and has signed nothing.
-/

namespace PayEra.Api.Accounts

open Transition

section Moves

variable (lib : Libraries) (production : Bool)

/-- The message that a login has to sign is one that the server issued, for the address of the
login. -/
def Challenged (tr : List AccountMove) (dto : WalletLoginDto) : Prop :=
  ∃ c ∈ tr, ∃ ch : WalletChallengeDto, c.label.1 = .account (.walletChallenge ch) ∧
    ch.address = dto.address ∧
    AuthService.messageOf ch.network ch.provider ch.address c.label.2.nonce =
      AuthService.messageOf dto.network dto.provider dto.address dto.nonce

/-- The request is a login, and it is answered by tokens of the user `id`. -/
def LogsIn (m : AccountMove) (dto : WalletLoginDto) (id : String) : Prop :=
  m.label.1 = .account (.walletLogin dto) ∧ ∃ auth user wallet,
    (handle lib m.label.2 production m.label.1 m.pre).2 = .ok (.login auth user wallet) ∧ user.id = id

/-- The user has shown a signature of the address over a challenge that names it. -/
def Proven (tr : List AccountMove) (id address : String) : Prop :=
  ∃ tr₁ m tr₂ dto, tr = tr₁ ++ m :: tr₂ ∧ LogsIn lib production m dto id ∧ dto.address = address ∧
    AuthService.isValidSignature lib dto = .ok true ∧ Challenged tr₁ dto

/-- The verified active wallets belong to users who have proven their addresses. -/
def Verified (tr : List AccountMove) (d : Server) : Prop :=
  ∀ w ∈ d.wallets, w.verifiedAt ≠ none → w.status = .ACTIVE → Proven lib production tr w.userId w.address

/-- A wallet is connected only by a user who has logged in with its address, and a login that creates
its user signs a challenge for its own address. -/
structure Vouched (tr : List AccountMove) (m : AccountMove) : Prop where
  connected : ∀ owner dto, Connects lib m.label.2 m.label.1 m.pre owner dto →
    Proven lib production tr owner.id dto.address
  registered : ∀ dto, m.label.1 = .account (.walletLogin dto) → Registers lib m.label.2 dto m.pre →
    Challenged tr dto

end Moves

section Lemmas

variable {lib : Libraries} {x : Chance} {production : Bool} {d₀ d d' : Server}
  {tr tr' : List AccountMove} {m : AccountMove} {r : AccountRequest} {id address : String}

lemma Proven.append (h : Proven lib production tr id address) (tr' : List AccountMove) :
    Proven lib production (tr ++ tr') id address := by
  obtain ⟨tr₁, m, tr₂, dto, rfl, h⟩ := h
  exact ⟨tr₁, m, tr₂ ++ tr', dto, by simp, h⟩

/-- A proof is the last move, or older. -/
lemma proven_snoc (h : Proven lib production (tr ++ [m]) id address) :
    (∃ dto, LogsIn lib production m dto id ∧ dto.address = address ∧ Challenged tr dto) ∨
      Proven lib production tr id address := by
  obtain ⟨tr₁, m', tr₂, dto, heq, hlogin, haddress, hsigned, hchallenged⟩ := h
  cases tr₂ using List.reverseRecOn with
  | nil =>
    obtain ⟨rfl, hm⟩ := List.append_inj' heq rfl
    obtain rfl := List.singleton_inj.mp hm
    exact .inl ⟨dto, hlogin, haddress, hchallenged⟩
  | append_singleton tr₂ m'' _ =>
    rw [← List.cons_append, ← List.append_assoc] at heq
    exact .inr ⟨tr₁, m', tr₂, dto, (List.append_inj' heq rfl).1, hlogin, haddress, hsigned,
      hchallenged⟩

/-! ### New wallets -/

lemma newWallet_mem_of_connects {owner : Principal} {dto : CreateWalletDto}
    (h : Connects lib x r d owner dto) :
    WalletsService.newWallet lib x owner dto ∈ (handle lib x production r d).1.wallets := by
  obtain ⟨bearer, rfl⟩ := h.request
  simp only [handle, signedIn, h.signedIn, WalletsService.create, if_pos h.free, if_pos h.user]
  exact List.mem_append_right _ (List.mem_singleton_self _)

/-- A login that creates its user answers with tokens of that user. -/
lemma registers_login {dto : WalletLoginDto} (h : Registers lib x dto d) : ∃ auth,
    (serve lib x (.walletLogin dto) d).2 =
      .ok (.login auth (AuthService.newUser x dto) (AuthService.newWallet lib x dto)) ∧
    AuthService.newWallet lib x dto ∈ (serve lib x (.walletLogin dto) d).1.wallets := by
  have hfree : (d.consume dto.nonce).free (AuthService.newUser x dto) = true := h.free
  have hfind : ((((d.consume dto.nonce).createUser (AuthService.newUser x dto)).createWallet
      (AuthService.newWallet lib x dto)).findUser (AuthService.newUser x dto).id) =
      some (AuthService.newUser x dto) := findUser_createUser hfree
  rw [serve, walletLogin_of_registers h, AuthService.loginUnknown, if_pos hfree]
  simp only [AuthService.generateTokens, hfind]
  exact ⟨_, rfl, List.mem_append_right _ (List.mem_singleton_self _)⟩

/-- The user that logs in is in the table afterwards. -/
lemma found_of_login {dto : WalletLoginDto} {auth : Tokens} {user : User} {wallet : UserWallet}
    (h : (serve lib x (.walletLogin dto) d).2 = .ok (.login auth user wallet)) :
    ((serve lib x (.walletLogin dto) d).1.findUser user.id).isSome := by
  by_cases hreg : Registers lib x dto d
  · obtain ⟨auth', hanswer, -⟩ := registers_login hreg
    have hfree : (d.consume dto.nonce).free (AuthService.newUser x dto) = true := hreg.free
    rw [hanswer] at h
    cases h
    rw [serve, walletLogin_of_registers hreg, AuthService.loginUnknown, if_pos hfree]
    refine found_generateTokens (found_of_users (d := (d.consume dto.nonce).createUser _) rfl ?_)
      fun _ _ => rfl
    rw [findUser_createUser hfree]
    rfl
  · suffices hbefore : (d.findUser user.id).isSome from
      isSome_findUser.mpr (mem_roles_serve (isSome_findUser.mp hbefore))
    simp only [serve, AuthService.walletLogin] at h
    split_ifs at h with hholds
    cases hsigned : AuthService.isValidSignature lib dto with
    | error message => simp [hsigned] at h
    | ok valid =>
      cases valid with
      | false => simp [hsigned] at h
      | true =>
        simp only [hsigned] at h
        split at h
        · rename_i w hw
          rw [AuthService.loginKnown] at h
          split at h
          · cases h
          · rename_i before hbefore
            simp only [AuthService.generateTokens] at h
            split at h
            · cases h
            · cases h
              show (d.findUser before.id).isSome
              rw [id_of_findUser hbefore]
              exact Option.isSome_of_eq_some hbefore
        · rename_i hw
          have hfree : ¬(d.consume dto.nonce).free (AuthService.newUser x dto) = true :=
            fun hfree => hreg ⟨hholds, hsigned, hw, hfree⟩
          rw [AuthService.loginUnknown, if_neg hfree] at h
          cases h

/-! ### Runs -/

/-- Whoever has proven an address is a user. -/
lemma Proven.found (h : Proven lib production tr id address)
    (hrun : (accounts lib production).Run d₀ tr d) : (d.findUser id).isSome := by
  induction hrun with
  | nil =>
    obtain ⟨tr₁, m, tr₂, dto, heq, -⟩ := h
    simp at heq
  | @snoc d d' tr l hrun hstep ih =>
    obtain ⟨-, rfl⟩ := hstep
    rcases proven_snoc h with ⟨dto, ⟨hr, auth, user, wallet, hanswer, rfl⟩, -⟩ | h
    · obtain ⟨r, x⟩ := l
      obtain rfl : r = .account (.walletLogin dto) := hr
      exact found_of_login hanswer
    · exact found_handle (ih h)

/-- **The run lemma.** Verified wallets, active or not, are proven. -/
theorem verified_of_run (hclean : ∀ w ∈ d₀.wallets, w.verifiedAt = none)
    (h : (accounts lib production).Run d₀ tr d)
    (hvouched : ∀ tr₁ m tr₂, tr = tr₁ ++ m :: tr₂ → Vouched lib production tr₁ m) :
    ∀ t ∈ d.titles, t.2.2.2 ≠ none → Proven lib production tr t.2.1 t.2.2.1 := by
  induction h with
  | nil =>
    intro t ht hverified
    obtain ⟨w, hw, rfl⟩ := List.mem_map.mp ht
    exact absurd (hclean w hw) hverified
  | @snoc d d' tr l hrun hstep ih =>
    obtain ⟨-, rfl⟩ := hstep
    have hold : ∀ t ∈ d.titles, t.2.2.2 ≠ none →
        Proven lib production (tr ++ [⟨d, l, (handle lib l.2 production l.1 d).1⟩]) t.2.1 t.2.2.1 := by
      intro t ht hverified
      refine (ih (fun tr₁ m tr₂ heq => ?_) t ht hverified).append _
      exact hvouched tr₁ m (tr₂ ++ [_]) (by rw [heq, List.append_assoc, List.cons_append])
    have hlast := hvouched tr _ [] rfl
    cases handle_walletEffect lib l.2 production l.1 d with
    | same htitles =>
      rw [htitles]
      exact hold
    | registered dto hr hreg htitles =>
      rw [htitles]
      intro t ht hverified
      rcases List.mem_append.mp ht with ht | ht
      · exact hold t ht hverified
      · obtain rfl := List.mem_singleton.mp ht
        obtain ⟨r, x⟩ := l
        obtain rfl : r = .account (.walletLogin dto) := hr
        obtain ⟨auth, hanswer, -⟩ := registers_login hreg
        exact ⟨tr, _, [], dto, rfl, ⟨rfl, auth, _, _, hanswer, rfl⟩, rfl, hreg.signed,
          hlast.registered dto rfl hreg⟩
    | connected owner dto hconnects htitles =>
      rw [htitles]
      intro t ht hverified
      rcases List.mem_append.mp ht with ht | ht
      · exact hold t ht hverified
      · obtain rfl := List.mem_singleton.mp ht
        exact (hlast.connected owner dto hconnects).append _

/-- What the rows that a move creates demand of it. -/
lemma vouched_of_verified (hrun : (accounts lib production).Run d₀ tr m.pre)
    (hstep : (accounts lib production).Step m.pre m.label m.post)
    (h : Verified lib production (tr ++ [m]) m.post) : Vouched lib production tr m := by
  obtain ⟨-, hpost⟩ := hstep
  rw [hpost] at h
  constructor
  · intro owner dto hconnects
    have hproven := h _ (newWallet_mem_of_connects hconnects) (Option.some_ne_none _) rfl
    rcases proven_snoc hproven with ⟨dto', ⟨hr, -⟩, -⟩ | hproven
    · obtain ⟨bearer, hr'⟩ := hconnects.request
      rw [hr'] at hr
      cases hr
    · exact hproven
  · intro dto hr hreg
    obtain ⟨auth, -, hmem⟩ := registers_login hreg
    have hproven := h (AuthService.newWallet lib m.label.2 dto) (by rw [hr]; exact hmem)
      (Option.some_ne_none _) rfl
    rcases proven_snoc hproven with ⟨dto', ⟨hr', -⟩, -, hchallenged⟩ | hproven
    · rw [hr] at hr'
      cases hr'
      exact hchallenged
    · have hfound := hproven.found hrun
      exact absurd rfl (ne_of_free hfound hreg.free)

/-- **Verified wallets.** Throughout a run every verified active wallet belongs to a user who has proven
its address, exactly if a wallet is connected only by users who have logged in with its address before,
and every login that creates its user signs a challenge that was issued for its own address. -/
theorem verified_wallets_proven_iff (lib : Libraries) (production : Bool) (d₀ d : Server)
    (tr : List AccountMove) (hclean : ∀ w ∈ d₀.wallets, w.verifiedAt = none)
    (h : (accounts lib production).Run d₀ tr d) :
    (∀ tr' d', tr' <+: tr → (accounts lib production).Run d₀ tr' d' →
      Verified lib production tr' d') ↔
    ∀ tr₁ m tr₂, tr = tr₁ ++ m :: tr₂ → Vouched lib production tr₁ m := by
  constructor
  · rintro hall tr₁ m tr₂ rfl
    obtain ⟨hrun, hstep⟩ := h.split tr₁ m tr₂
    refine vouched_of_verified hrun hstep (hall _ _ ⟨tr₂, by simp⟩ (hrun.snoc hstep))
  · rintro hvouched tr' d' ⟨tr₂', rfl⟩ hrun w hw hverified -
    refine verified_of_run hclean hrun (fun tr₁ m tr₂ heq => ?_) w.title (List.mem_map_of_mem hw)
      hverified
    exact hvouched tr₁ m (tr₂ ++ tr₂') (by rw [heq]; simp)

end Lemmas

/-! ### A wallet that nobody has proven -/

def sampleUsers : Server where
  users := [{ id := "root", role := .ADMIN }]

/-- A user connects an address by naming it. -/
theorem unproven_wallet_verified : ∃ lib d₀ tr d, (∀ w ∈ d₀.wallets, w.verifiedAt = none) ∧
    (accounts lib true).Run d₀ tr d ∧
      ¬∀ tr' d', tr' <+: tr → (accounts lib true).Run d₀ tr' d' → Verified lib true tr' d' := by
  have h := Transition.System.Run.nil (M := accounts sampleLibraries true) sampleUsers
  have h := run_account h (.createWallet "access root" ⟨.FREIGHTER, .STELLAR, "GVICTIM", none, none,
    none, none⟩) (sampleChance "1") List.not_mem_nil
  refine ⟨sampleLibraries, sampleUsers, _, _, by simp [sampleUsers], h, fun hall => ?_⟩
  have hverified := hall _ _ (List.prefix_refl _) h
  have hproven := hverified _ (List.mem_singleton_self _) (Option.some_ne_none _) rfl
  rcases proven_snoc hproven with ⟨dto, ⟨hr, -⟩, -⟩ | ⟨tr₁, m, tr₂, dto, heq, -⟩
  · cases hr
  · simp at heq

/-- A user logs in with a new wallet, over the challenge for it. -/
theorem verified_wallets_proven_iff_of_login : ∃ tr d,
    (accounts sampleLibraries true).Run sampleUsers tr d ∧ d.wallets ≠ [] ∧
      Verified sampleLibraries true tr d := by
  have h := Transition.System.Run.nil (M := accounts sampleLibraries true) sampleUsers
  have h := run_account h (.account (.walletChallenge ⟨.FREIGHTER, .STELLAR, "GNEW"⟩))
    (sampleChance "new") List.not_mem_nil
  have h := run_account h (.account (.walletLogin (sampleLogin "GNEW" "NONCE_new" none)))
    (sampleChance "new") List.not_mem_nil
  refine ⟨_, _, h, by decide, ?_⟩
  refine (verified_wallets_proven_iff sampleLibraries true _ _ _ (by simp [sampleUsers]) h).mpr ?_ _ _
    (List.prefix_refl _) h
  intro tr₁ m tr₂ heq
  cases tr₂ using List.reverseRecOn with
  | nil =>
    obtain ⟨rfl, hm⟩ := List.append_inj' heq rfl
    obtain rfl := List.singleton_inj.mp hm
    constructor
    · rintro owner dto ⟨⟨bearer, hr⟩, -, -⟩
      cases hr
    · intro dto hr _
      cases hr
      exact ⟨_, List.mem_singleton_self _, _, rfl, rfl, rfl⟩
  | append_singleton tr₂ m' _ =>
    rw [← List.cons_append, ← List.append_assoc] at heq
    obtain ⟨heq, -⟩ := List.append_inj' heq rfl
    have hm : m ∈ tr₁ ++ m :: tr₂ := by simp
    rw [← heq, List.nil_append] at hm
    obtain rfl := List.mem_singleton.mp hm
    constructor
    · rintro owner dto ⟨⟨bearer, hr⟩, -, -⟩
      cases hr
    · intro dto hr _
      cases hr

end PayEra.Api.Accounts
