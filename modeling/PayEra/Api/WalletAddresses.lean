import Mathlib.Data.Nat.Digits.Defs
import PayEra.Api.Suspension
import PayEra.Lib.Ascii

/-!
# The addresses of wallets

`normalizeWalletAddress` of `apps/api/src/common/utils/normalizers.ts`, on which `walletLogin` and
`WalletsService.create` rely for telling wallets apart: it drops the case of the letters, which
means nothing in an address of Stellar or Ethereum, but is a part of the base58 ones.
-/

namespace PayEra.Api.Accounts

open Transition (System)

/-! ### The encodings of the networks -/

def base32 : String := "ABCDEFGHIJKLMNOPQRSTUVWXYZ234567"

def base58 : String := "123456789ABCDEFGHJKLMNPQRSTUVWXYZabcdefghijkmnopqrstuvwxyz"

def base16 : String := "0123456789abcdef"

/-- The digits of a numeral, the first one first. -/
def digits (symbols : String) (s : List Char) : Option (List ℕ) :=
  s.mapM fun c => symbols.toList.idxOf? c

/-- A base58 numeral as bytes, with one zero for each leading zero of the numeral. -/
def base58Bytes (s : List Char) : Option (List ℕ) :=
  (digits base58 s).map fun ds =>
    ds.takeWhile (· = 0) ++ (Nat.digits 256 (Nat.ofDigits 58 ds.reverse)).reverse

/-- The account of an address, if it is one of the network: a public key of Stellar, an Ethereum
address in any case, a public key of Solana, or a hash with its version and checksum on Bitcoin. That
the checksums are right is left out: it only makes fewer strings addresses. -/
def account (network : WalletNetwork) (address : String) : Option (List ℕ) :=
  match network, address.toList with
  | .STELLAR, 'G' :: s => (digits base32 ('G' :: s)).filter (·.length = 56)
  | .ETHEREUM, '0' :: 'x' :: s => (digits base16 (s.map Char.toLower)).filter (·.length = 40)
  | .BITCOIN, s => (base58Bytes s).filter (·.length = 25)
  | .SOLANA, s => (base58Bytes s).filter (·.length = 32)
  | _, _ => none

/-- An address but for the case of its letters. -/
def fold (address : String) : List Char := address.toList.map Char.toLower

/-- Two addresses of one network, as far as it tells them apart: the case of an Ethereum address means
nothing. -/
def Distinct (network : WalletNetwork) (a b : String) : Prop :=
  if network = .ETHEREUM then account network a ≠ account network b else a ≠ b

/-- `trim` and `toLowerCase` on ASCII letters and digits. -/
structure Plain (lib : Libraries) : Prop where
  trim (s : String) (h : ∀ c ∈ s.toList, c.isAlphanum) : lib.trim s = s
  toLowerCase (s : String) (h : ∀ c ∈ s.toList, c.isAlphanum) :
    lib.toLowerCase s = String.ofList (fold s)

/-! ### The wallets that are told apart -/

/-- The wallets are stored by their normalized addresses. -/
def Filed (lib : Libraries) (d : Server) : Prop :=
  ∀ w ∈ d.wallets, w.addressNormalized = AuthService.normalizeWalletAddress lib w.address

/-- All requests, one after the other. -/
def filing (lib : Libraries) (production : Bool) : System Server (AccountRequest × Chance) where
  Init := Filed lib
  Step := (accounts lib production).Step

/-- The lookup of a login with the address `b` never takes a wallet with the address `a` for it. -/
def Discerns (lib : Libraries) (production : Bool) (network : WalletNetwork) (a b : String) : Prop :=
  ∀ d, (filing lib production).Reachable d → ∀ w,
    d.findWallet network (AuthService.normalizeWalletAddress lib b) = some w → w.address ≠ a

/-- A wallet with the address `b` that is refused as a duplicate would also be refused without the
wallet with the address `a`. -/
def Spares (lib : Libraries) (production : Bool) (network : WalletNetwork) (a b : String) : Prop :=
  ∀ d, (filing lib production).Reachable d → ∀ w ∈ d.wallets, w.network = network → w.address = a →
    ∀ x owner dto, x.walletId ∉ d.wallets.map UserWallet.id → dto.network = network → dto.address = b →
      (WalletsService.create lib x owner dto d).2 = .error .uniqueConstraint →
        (WalletsService.create lib x owner dto { d with wallets := d.wallets.filter (· ≠ w) }).2 =
          .error .uniqueConstraint

section Addresses

variable {lib : Libraries} {production : Bool} {network : WalletNetwork} {a b : String} {p q : List ℕ}

/-! ### The case of the letters -/

lemma mem_of_digits {symbols : String} {s : List Char} {ds : List ℕ} (h : digits symbols s = some ds) :
    ∀ c ∈ s, c ∈ symbols.toList := by
  induction s generalizing ds with
  | nil => simp
  | cons c s ih =>
    simp only [digits, List.mapM_cons, Option.bind_eq_bind, Option.bind_eq_some_iff] at h
    obtain ⟨n, hn, ns, hns, -⟩ := h
    intro c' hc'
    rcases List.mem_cons.mp hc' with rfl | hmem
    · by_contra hno
      simp [List.idxOf?_eq_none_iff.mpr hno] at hn
    · exact ih hns c' hmem

lemma isAlphanum_base32 : ∀ c ∈ base32.toList, c.isAlphanum := List.all_eq_true.mp rfl

lemma isAlphanum_base58 : ∀ c ∈ base58.toList, c.isAlphanum := List.all_eq_true.mp rfl

lemma isAlphanum_base16 : ∀ c ∈ base16.toList, c.isAlphanum := List.all_eq_true.mp rfl

lemma isAlphanum_of_base58Bytes {s : List Char} (h : base58Bytes s = some p) :
    ∀ c ∈ s, c.isAlphanum := by
  simp only [base58Bytes, Option.map_eq_some_iff] at h
  obtain ⟨ds, hds, -⟩ := h
  intro c hc
  exact isAlphanum_base58 c (mem_of_digits hds c hc)

lemma account_stellar (h : account .STELLAR a = some p) :
    ∃ s, a.toList = 'G' :: s ∧ digits base32 a.toList = some p := by
  unfold account at h
  split at h <;> simp_all

lemma account_ethereum (h : account .ETHEREUM a = some p) :
    ∃ s, a.toList = '0' :: 'x' :: s ∧ digits base16 (s.map Char.toLower) = some p := by
  unfold account at h
  split at h <;> simp_all

/-- An address has no characters but letters and digits. -/
lemma isAlphanum_of_account (h : account network a = some p) : ∀ c ∈ a.toList, c.isAlphanum := by
  intro c hc
  cases network with
  | STELLAR =>
    obtain ⟨s, -, hdigits⟩ := account_stellar h
    exact isAlphanum_base32 c (mem_of_digits hdigits c hc)
  | ETHEREUM =>
    obtain ⟨s, heq, hdigits⟩ := account_ethereum h
    rw [heq] at hc
    rcases List.mem_cons.mp hc with rfl | hc
    · rfl
    rcases List.mem_cons.mp hc with rfl | hc
    · rfl
    have hlower := mem_of_digits hdigits c.toLower (List.mem_map_of_mem hc)
    exact Ascii.isAlphanum_of_toLower (isAlphanum_base16 _ hlower)
  | BITCOIN => exact isAlphanum_of_base58Bytes (Option.filter_eq_some_iff.mp h).1 c hc
  | SOLANA => exact isAlphanum_of_base58Bytes (Option.filter_eq_some_iff.mp h).1 c hc

lemma toUpper_toLower_base32 : ∀ c ∈ base32.toList, c.toLower.toUpper = c := by
  have hall : base32.toList.all (fun c => c.toLower.toUpper == c) = true := rfl
  exact fun c hc => beq_iff_eq.mp (List.all_eq_true.mp hall c hc)

lemma toLower_inj_base32 :
    ∀ c ∈ base32.toList, ∀ c' ∈ base32.toList, c.toLower = c'.toLower → c = c' := by
  intro c hc c' hc' h
  rw [← toUpper_toLower_base32 c hc, ← toUpper_toLower_base32 c' hc', h]

/-- Words without small letters are equal if they are equal but for the case. -/
lemma eq_of_map_toLower {s t : List Char} (hs : ∀ c ∈ s, c ∈ base32.toList)
    (ht : ∀ c ∈ t, c ∈ base32.toList) (h : s.map Char.toLower = t.map Char.toLower) : s = t := by
  induction s generalizing t with
  | nil => simpa using h
  | cons c s ih =>
    cases t with
    | nil => simp at h
    | cons c' t =>
      simp only [List.map_cons, List.cons.injEq] at h
      simp only [List.mem_cons, forall_eq_or_imp] at hs ht
      rw [toLower_inj_base32 c hs.1 c' ht.1 h.1, ih hs.2 ht.2 h.2]

lemma Plain.normalize (hlib : Plain lib) (ha : account network a = some p) :
    AuthService.normalizeWalletAddress lib a = String.ofList (fold a) := by
  have hchars := isAlphanum_of_account ha
  rw [AuthService.normalizeWalletAddress, hlib.trim a hchars, hlib.toLowerCase a hchars]

/-- Only the case is lost. -/
lemma Plain.normalize_eq_iff (hlib : Plain lib) (ha : account network a = some p)
    (hb : account network b = some q) :
    AuthService.normalizeWalletAddress lib a = AuthService.normalizeWalletAddress lib b ↔
      fold a = fold b := by
  rw [hlib.normalize ha, hlib.normalize hb, String.ofList_inj]

/-- The case tells no addresses apart that are distinct on Stellar or Ethereum. -/
lemma fold_ne (ha : account network a = some p) (hb : account network b = some q)
    (hab : Distinct network a b) (hn : ¬(network = .SOLANA ∨ network = .BITCOIN)) : fold a ≠ fold b := by
  intro hfold
  cases network with
  | STELLAR =>
    obtain ⟨s, -, hs⟩ := account_stellar ha
    obtain ⟨t, -, ht⟩ := account_stellar hb
    have heq : a.toList = b.toList := eq_of_map_toLower (mem_of_digits hs) (mem_of_digits ht) hfold
    exact hab (String.toList_inj.mp heq)
  | ETHEREUM =>
    obtain ⟨s, hs, hdigits⟩ := account_ethereum ha
    obtain ⟨t, ht, hdigits'⟩ := account_ethereum hb
    have heq : s.map Char.toLower = t.map Char.toLower := by
      simpa [fold, hs, ht] using hfold
    rw [heq, hdigits'] at hdigits
    rw [Distinct, if_pos rfl, ha, hb, hdigits] at hab
    exact hab rfl
  | BITCOIN => exact hn (.inr rfl)
  | SOLANA => exact hn (.inl rfl)

lemma normalize_ne_iff (hlib : Plain lib) (ha : account network a = some p)
    (hb : account network b = some q) (hab : Distinct network a b) :
    AuthService.normalizeWalletAddress lib a ≠ AuthService.normalizeWalletAddress lib b ↔
      (network = .SOLANA ∨ network = .BITCOIN → fold a ≠ fold b) := by
  rw [Ne, hlib.normalize_eq_iff ha hb]
  constructor
  · intro h _
    exact h
  · intro h
    by_cases hn : network = .SOLANA ∨ network = .BITCOIN
    · exact h hn
    · exact fold_ne ha hb hab hn

/-! ### The stored keys -/

variable {d d' : Server} {w : UserWallet}

lemma filed_of_key {f : UserWallet → UserWallet} (hkey : (f w).key = w.key)
    (h : w.addressNormalized = AuthService.normalizeWalletAddress lib w.address) :
    (f w).addressNormalized = AuthService.normalizeWalletAddress lib (f w).address := by
  simp only [UserWallet.key, Prod.mk.injEq] at hkey
  rw [hkey.2.1, hkey.2.2, h]

lemma Filed.updateWhere (h : Filed lib d) {p : UserWallet → Bool} {f : UserWallet → UserWallet}
    (hkey : ∀ w, (f w).key = w.key) (hd' : d'.wallets = updateWhere p f d.wallets) : Filed lib d' := by
  intro w' hw'
  rw [hd'] at hw'
  obtain ⟨w, hw, rfl⟩ := List.mem_map.mp hw'
  show (if p w = true then f w else w).addressNormalized = _
  split_ifs with hp
  · simpa [hp] using filed_of_key (hkey w) (h w hw)
  · simpa [hp] using h w hw

lemma Filed.demote (h : Filed lib d) (isPrimary : Option Bool) (k : String) :
    Filed lib (WalletsService.demote isPrimary k d) := by
  rw [WalletsService.demote]
  split_ifs
  · exact h.updateWhere (f := fun w => { w with isPrimary := false }) (fun _ => rfl) rfl
  · exact h

lemma Filed.append (h : Filed lib d) {new : UserWallet}
    (hnew : new.addressNormalized = AuthService.normalizeWalletAddress lib new.address)
    (hd' : d'.wallets = d.wallets ++ [new]) : Filed lib d' := by
  intro w hw
  rw [hd', List.mem_append, List.mem_singleton] at hw
  rcases hw with hw | rfl
  · exact h w hw
  · exact hnew

lemma filed_step {label : AccountRequest × Chance} (hstep : (filing lib production).Step d label d')
    (h : Filed lib d) : Filed lib d' := by
  obtain ⟨-, rfl⟩ := hstep
  cases handle_walletChange lib label.2 production label.1 d with
  | same hsame =>
    intro w hw
    rw [hsame] at hw
    exact h w hw
  | touched p f hd' htitle hkey => exact h.updateWhere hkey hd'
  | registered dto hr hreg hd' => exact h.append rfl hd'
  | connected owner dto hconnects hd' => exact (h.demote dto.isPrimary owner.id).append rfl hd'
  | updated bearer owner wallet dto hr haccess hd' =>
    exact (h.demote dto.isPrimary wallet.userId).updateWhere (f := WalletsService.updated dto)
      (fun _ => rfl) hd'
  | disconnected bearer owner wallet hr haccess hd' =>
    exact h.updateWhere (f := WalletsService.disconnected) (fun _ => rfl) hd'

lemma filed_reachable (h : (filing lib production).Reachable d) : Filed lib d :=
  h.invariant (fun _ hinit => hinit) fun _ _ _ _ hfiled hstep => filed_step hstep hfiled

/-! ### Lookups and refusals -/

/-- A wallet of nobody. -/
def stored (lib : Libraries) (network : WalletNetwork) (address : String) : UserWallet where
  id := ""
  userId := ""
  provider := .FREIGHTER
  network := network
  address := address
  addressNormalized := AuthService.normalizeWalletAddress lib address

lemma reachable_stored (network : WalletNetwork) (a : String) :
    (filing lib production).Reachable { wallets := [stored lib network a] : Server } := by
  apply System.Reachable.init
  intro w hw
  obtain rfl := List.mem_singleton.mp hw
  rfl

lemma key_of_findWallet {k : String} (h : d.findWallet network k = some w) :
    w ∈ d.wallets ∧ w.network = network ∧ w.addressNormalized = k := by
  refine ⟨List.mem_of_find?_eq_some h, ?_⟩
  simpa using List.find?_some h

lemma discerns_iff : Discerns lib production network a b ↔
    AuthService.normalizeWalletAddress lib a ≠ AuthService.normalizeWalletAddress lib b := by
  constructor
  · intro h heq
    refine h _ (reachable_stored network a) (stored lib network a) ?_ rfl
    simp [Server.findWallet, stored, heq]
  · intro hne d hd w hfound hw
    obtain ⟨hmem, -, hkey⟩ := key_of_findWallet hfound
    have hfiled := filed_reachable hd w hmem
    rw [hkey, hw] at hfiled
    exact hne hfiled.symm

/-- A wallet is refused as a duplicate exactly if its row is not free. -/
lemma create_refused_iff {x : Chance} {owner : Principal} {dto : CreateWalletDto} :
    (WalletsService.create lib x owner dto d).2 = .error .uniqueConstraint ↔
      d.freeWallet (WalletsService.newWallet lib x owner dto) = false := by
  simp only [WalletsService.create]
  by_cases hfree : d.freeWallet (WalletsService.newWallet lib x owner dto) = true
  · simp only [hfree, if_true]
    split_ifs <;> simp
  · simp [hfree]

/-- A row with a fresh id is not free exactly if there is one of its network with its key. -/
lemma not_freeWallet_iff (hfresh : w.id ∉ d.wallets.map UserWallet.id) :
    d.freeWallet w = false ↔
      ∃ v ∈ d.wallets, v.network = w.network ∧ v.addressNormalized = w.addressNormalized := by
  have hids : ∀ v ∈ d.wallets, v.id ≠ w.id := fun v hv heq => hfresh (heq ▸ List.mem_map_of_mem hv)
  rw [Server.freeWallet, List.all_eq_false]
  constructor
  · rintro ⟨v, hv, hblocks⟩
    exact ⟨v, hv, by simpa [hids v hv] using hblocks⟩
  · rintro ⟨v, hv, hblocks⟩
    exact ⟨v, hv, by simp [hblocks]⟩

lemma spares_iff : Spares lib production network a b ↔
    AuthService.normalizeWalletAddress lib a ≠ AuthService.normalizeWalletAddress lib b := by
  constructor
  · intro h heq
    have hrefused := h _ (reachable_stored network a) (stored lib network a)
      (List.mem_singleton_self _) rfl rfl
      { now := 0, nonce := "", userId := "", walletId := "new", referralCode := "", salt := "" }
      { id := "", role := .CONSUMER } { provider := .FREIGHTER, network := network, address := b }
      (by simp [stored]) rfl rfl
    simp only [create_refused_iff] at hrefused
    have hfree := hrefused (by simp [stored, Server.freeWallet, WalletsService.newWallet, heq])
    simp [Server.freeWallet] at hfree
  · rintro hne d hd w hmem hnetwork rfl x owner dto hfresh hdto rfl hrefused
    have hfresh' : (WalletsService.newWallet lib x owner dto).id ∉
        (d.wallets.filter (· ≠ w)).map UserWallet.id := by
      intro hin
      obtain ⟨v, hv, hid⟩ := List.mem_map.mp hin
      exact hfresh (List.mem_map.mpr ⟨v, List.mem_of_mem_filter hv, hid⟩)
    rw [create_refused_iff, not_freeWallet_iff hfresh] at hrefused
    obtain ⟨v, hv, hnet, hkey⟩ := hrefused
    rw [create_refused_iff, not_freeWallet_iff hfresh']
    refine ⟨v, List.mem_filter.mpr ⟨hv, ?_⟩, hnet, hkey⟩
    simp only [ne_eq, decide_not, Bool.not_eq_eq_eq_not, Bool.not_true, decide_eq_false_iff_not]
    rintro rfl
    rw [filed_reachable hd v hv] at hkey
    exact hne hkey

end Addresses

/-- **Identity of wallets.** Two distinct addresses of a network have different keys, their lookups
find different wallets, and neither of them is refused because of the other, exactly if the network
is Stellar or Ethereum or they differ in more than the case of their letters. -/
theorem wallet_identity_iff {lib : Libraries} (hlib : Plain lib) (production : Bool)
    {network : WalletNetwork} {a b : String} {p q : List ℕ} (ha : account network a = some p)
    (hb : account network b = some q) (hab : Distinct network a b) :
    (AuthService.normalizeWalletAddress lib a ≠ AuthService.normalizeWalletAddress lib b ↔
      (network = .SOLANA ∨ network = .BITCOIN → fold a ≠ fold b)) ∧
    (Discerns lib production network a b ↔
      (network = .SOLANA ∨ network = .BITCOIN → fold a ≠ fold b)) ∧
    (Spares lib production network a b ↔
      (network = .SOLANA ∨ network = .BITCOIN → fold a ≠ fold b)) := by
  have hkeys := normalize_ne_iff hlib ha hb hab
  exact ⟨hkeys, discerns_iff.trans hkeys, spares_iff.trans hkeys⟩

/-! ### Two accounts of Solana -/

/-- Libraries that lower the case of ASCII letters. -/
def loweringLibraries : Libraries :=
  { sampleLibraries with toLowerCase := fun s => String.ofList (fold s) }

lemma plain_loweringLibraries : Plain loweringLibraries :=
  ⟨fun _ _ => rfl, fun _ _ => rfl⟩

def voteProgram : String := "Vote111111111111111111111111111111111111111"

def tokenProgram : String := "TokenkegQfeZyiNwAJbNbGKPFXCWuBvf9Ss623VQ5DA"

/-- Another account, whose address has a small letter at the beginning. -/
def notTokenProgram : String := "tokenkegQfeZyiNwAJbNbGKPFXCWuBvf9Ss623VQ5DA"

lemma isSome_tokenProgram : (account .SOLANA tokenProgram).isSome := by decide +kernel

/-- The accounts of two programs are told apart. -/
theorem wallet_identity_iff_of_programs :
    AuthService.normalizeWalletAddress loweringLibraries voteProgram ≠
      AuthService.normalizeWalletAddress loweringLibraries tokenProgram := by
  have hvote : (account .SOLANA voteProgram).isSome := by decide +kernel
  obtain ⟨p, hp⟩ := Option.isSome_iff_exists.mp hvote
  obtain ⟨q, hq⟩ := Option.isSome_iff_exists.mp isSome_tokenProgram
  have hdistinct : Distinct .SOLANA voteProgram tokenProgram := by
    rw [Distinct]
    decide
  refine (wallet_identity_iff plain_loweringLibraries true hp hq hdistinct).1.mpr fun _ => ?_
  decide

/-- Whoever has the other account passes for the program, or is refused because of it. -/
theorem base58_addresses_collide : ¬∀ lib, Plain lib → ∀ production network a b p q,
    account network a = some p → account network b = some q → Distinct network a b →
      AuthService.normalizeWalletAddress lib a ≠ AuthService.normalizeWalletAddress lib b ∧
      Discerns lib production network a b ∧ Spares lib production network a b := by
  intro h
  have hother : (account .SOLANA notTokenProgram).isSome := by decide +kernel
  obtain ⟨p, hp⟩ := Option.isSome_iff_exists.mp isSome_tokenProgram
  obtain ⟨q, hq⟩ := Option.isSome_iff_exists.mp hother
  have hdistinct : Distinct .SOLANA tokenProgram notTokenProgram := by
    rw [Distinct]
    decide
  apply (h loweringLibraries plain_loweringLibraries true .SOLANA _ _ p q hp hq hdistinct).1
  decide

end PayEra.Api.Accounts
