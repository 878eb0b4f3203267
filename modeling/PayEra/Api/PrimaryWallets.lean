import PayEra.Api.Suspension

/-!
# The primary wallet

A user has at most one primary wallet, whatever the statuses of its wallets: a wallet becomes primary
only with a new user, or after all other wallets of its user have been demoted.
-/

namespace PayEra.Api.Accounts

open Transition (System)

/-! ### Primary wallets -/

/-- The primary wallets of a user. -/
def Server.primaries (d : Server) (userId : String) : List UserWallet :=
  d.wallets.filter fun w => decide (w.userId = userId) && w.isPrimary

/-- The rows of the unique index `wallets_one_primary_per_user_idx`, and the ones that the transaction
processor looks for. -/
def Server.indexed (d : Server) (userId : String) : List UserWallet :=
  (d.primaries userId).filter (·.status = .ACTIVE)

/-- The constraints of the table, and no user with two primary wallets. -/
structure Custody (d : Server) : Prop where
  ids : (d.wallets.map UserWallet.id).Nodup
  owners : ∀ w ∈ d.wallets, (d.findUser w.userId).isSome
  one : ∀ w ∈ d.wallets, ∀ w' ∈ d.wallets, w.isPrimary → w'.isPrimary → w.userId = w'.userId → w = w'

/-- The requests of users and admins, one after the other. -/
def custody (lib : Libraries) (production : Bool) : System Server (AccountRequest × Chance) where
  Init := Custody
  Step := (accounts lib production).Step

/-- The request is about the wallets of the user: the caller's own, or, for an admin, the ones of the
owner of a wallet. -/
inductive Concerns (lib : Libraries) (x : Chance) (r : AccountRequest) (d : Server) : String → Prop where
  | connects (owner : Principal) (dto : CreateWalletDto) (h : Connects lib x r d owner dto) :
      Concerns lib x r d owner.id
  | updates (bearer : String) (owner : Principal) (wallet : UserWallet) (dto : UpdateWalletDto)
      (hr : r = .updateWallet bearer wallet.id dto) (h : Accesses lib x r d owner wallet) :
      Concerns lib x r d wallet.userId
  | disconnects (bearer : String) (owner : Principal) (wallet : UserWallet)
      (hr : r = .disconnectWallet bearer wallet.id) (h : Accesses lib x r d owner wallet) :
      Concerns lib x r d wallet.userId

section Primaries

variable {lib : Libraries} {x : Chance} {production : Bool} {d d' : Server} {r : AccountRequest}
  {w w' : UserWallet} {l : List UserWallet} {k : String}

/-! ### One wallet at most -/

lemma Custody.eq_of_id (h : Custody d) (hw : w ∈ d.wallets) (hw' : w' ∈ d.wallets)
    (hid : w.id = w'.id) : w = w' :=
  List.inj_on_of_nodup_map h.ids hw hw' hid

/-- A list without repetitions whose elements are equal. -/
lemma length_le_one_of_eq (hnodup : l.Nodup) (h : ∀ w ∈ l, ∀ w' ∈ l, w = w') : l.length ≤ 1 := by
  cases l with
  | nil => exact Nat.zero_le 1
  | cons w l =>
    cases l with
    | nil => exact le_rfl
    | cons w' l =>
      have heq := h w (List.mem_cons_self ..) w' (List.mem_cons_of_mem _ (List.mem_cons_self ..))
      rw [heq] at hnodup
      exact absurd (List.mem_cons_self ..) (List.nodup_cons.mp hnodup).1

lemma Custody.primaries_le_one (h : Custody d) (k : String) : (d.primaries k).length ≤ 1 := by
  have hnodup : d.wallets.Nodup := List.Nodup.of_map _ h.ids
  refine length_le_one_of_eq (hnodup.filter _) fun w hw w' hw' => ?_
  obtain ⟨hmem, hprimary⟩ := List.mem_filter.mp hw
  obtain ⟨hmem', hprimary'⟩ := List.mem_filter.mp hw'
  rw [Bool.and_eq_true, decide_eq_true_eq] at hprimary hprimary'
  exact h.one w hmem w' hmem' hprimary.2 hprimary'.2 (hprimary.1.trans hprimary'.1.symm)

lemma indexed_le_primaries : (d.indexed k).length ≤ (d.primaries k).length :=
  List.length_filter_le _ _

/-- The lookup of the processor takes the one that there is. -/
lemma take_indexed (h : (d.indexed k).length ≤ 1) (hw : w ∈ d.indexed k) :
    (d.indexed k).take 1 = [w] := by
  obtain ⟨w', hw'⟩ := List.length_eq_one_iff.mp
    (le_antisymm h (List.length_pos_of_mem hw))
  rw [hw'] at hw ⊢
  obtain rfl := List.mem_singleton.mp hw
  rfl

/-! ### What becomes of the primary wallets -/

/-- The wallet was there, with the same user, and it was primary if it is. -/
def Old (d : Server) (w' : UserWallet) : Prop :=
  ∃ w ∈ d.wallets, w.id = w'.id ∧ w.userId = w'.userId ∧ (w'.isPrimary → w.isPrimary)

/-- All primary wallets are old ones, but for those of one user, which are one wallet. -/
def Promotes (k id : String) (d d' : Server) : Prop :=
  ∀ w' ∈ d'.wallets, w'.isPrimary → w'.userId = k ∧ w'.id = id ∨ w'.userId ≠ k ∧ Old d w'

/-- An old wallet after `demote`. -/
lemma mem_demote {isPrimary : Option Bool} (h : w' ∈ (WalletsService.demote isPrimary k d).wallets) :
    ∃ w ∈ d.wallets, w.id = w'.id ∧ w.userId = w'.userId ∧ (w'.isPrimary → w.isPrimary) ∧
      (isPrimary = some true → w.userId = k → w'.isPrimary = false) ∧ (w.userId ≠ k → w' = w) := by
  rw [demote_wallets] at h
  obtain ⟨w, hw, rfl⟩ := List.mem_map.mp h
  refine ⟨w, hw, ?_⟩
  split_ifs with hdemoted
  · refine ⟨rfl, rfl, fun hno => ?_, fun _ _ => rfl, fun hne => absurd hdemoted.2 hne⟩
    cases hno
  · exact ⟨rfl, rfl, id, fun hsome hk => absurd ⟨hsome, hk⟩ hdemoted, fun _ => rfl⟩

lemma old_of_demote {isPrimary : Option Bool}
    (h : w' ∈ (WalletsService.demote isPrimary k d).wallets) : Old d w' := by
  obtain ⟨w, hw, hid, huser, hold, -⟩ := mem_demote h
  exact ⟨w, hw, hid, huser, hold⟩

/-- A wallet that is primary after a promotion belongs to somebody else. -/
lemma ne_of_demote {isPrimary : Option Bool} (hp : isPrimary = some true)
    (h : w' ∈ (WalletsService.demote isPrimary k d).wallets) (hprimary : w'.isPrimary) :
    w'.userId ≠ k := by
  intro hk
  obtain ⟨w, -, -, huser, -, hdemoted, -⟩ := mem_demote h
  rw [hdemoted hp (huser.trans hk)] at hprimary
  cases hprimary

/-- A request that promotes no wallet leaves its mark as it is. -/
lemma isPrimary_of_getD {isPrimary : Option Bool} {b : Bool} (hp : isPrimary ≠ some true)
    (h : isPrimary.getD b = true) : b = true := by
  cases isPrimary with
  | none => exact h
  | some b' => exact absurd (congrArg some h) hp

/-- A row after an update. -/
lemma mem_updateWhere {p : UserWallet → Bool} {f : UserWallet → UserWallet}
    (h : w' ∈ updateWhere p f l) : ∃ w ∈ l, p w = true ∧ w' = f w ∨ p w = false ∧ w' = w := by
  obtain ⟨w, hw, rfl⟩ := List.mem_map.mp h
  refine ⟨w, hw, ?_⟩
  cases p w with
  | true => exact .inl ⟨rfl, rfl⟩
  | false => exact .inr ⟨rfl, rfl⟩

lemma old_of_title {f : UserWallet → UserWallet} (hw : w ∈ d.wallets) (htitle : (f w).title = w.title)
    (hprimary : (f w).isPrimary → w.isPrimary) : Old d (f w) := by
  obtain ⟨hid, huser, -⟩ := UserWallet.title_eq_iff.mp htitle
  exact ⟨w, hw, hid.symm, huser.symm, hprimary⟩

/-- What connecting a wallet makes primary. -/
lemma promotes_of_connected {owner : Principal} {dto : CreateWalletDto}
    (h : d'.wallets = (WalletsService.demote dto.isPrimary owner.id d).wallets ++
      [WalletsService.newWallet lib x owner dto]) :
    (∀ w' ∈ d'.wallets, w'.isPrimary → Old d w') ∨ ∃ k id, Promotes k id d d' := by
  by_cases hp : dto.isPrimary = some true
  · right
    refine ⟨owner.id, x.walletId, fun w' hw' hprimary => ?_⟩
    rw [h] at hw'
    rcases List.mem_append.mp hw' with hw | hw
    · exact .inr ⟨ne_of_demote hp hw hprimary, old_of_demote hw⟩
    · obtain rfl := List.mem_singleton.mp hw
      exact .inl ⟨rfl, rfl⟩
  · left
    intro w' hw' hprimary
    rw [h] at hw'
    rcases List.mem_append.mp hw' with hw | hw
    · exact old_of_demote hw
    · obtain rfl := List.mem_singleton.mp hw
      exact absurd (isPrimary_of_getD hp hprimary) Bool.false_ne_true

/-- What updating a wallet makes primary. -/
lemma promotes_of_updated {wallet : UserWallet} {dto : UpdateWalletDto} (hcustody : Custody d)
    (hwallet : wallet ∈ d.wallets)
    (h : d'.wallets = updateWhere (fun w => w.id = wallet.id) (WalletsService.updated dto)
      (WalletsService.demote dto.isPrimary wallet.userId d).wallets) :
    (∀ w' ∈ d'.wallets, w'.isPrimary → Old d w') ∨ ∃ k id, Promotes k id d d' := by
  by_cases hp : dto.isPrimary = some true
  · right
    refine ⟨wallet.userId, wallet.id, fun w' hw' hprimary => ?_⟩
    rw [h] at hw'
    obtain ⟨w₁, hw₁, ⟨hthis, rfl⟩ | ⟨-, rfl⟩⟩ := mem_updateWhere hw'
    · left
      have hid₁ : w₁.id = wallet.id := of_decide_eq_true hthis
      obtain ⟨w, hw, hid, huser, -⟩ := mem_demote hw₁
      rw [hcustody.eq_of_id hw hwallet (hid.trans hid₁)] at huser
      exact ⟨huser.symm, hid₁⟩
    · exact .inr ⟨ne_of_demote hp hw₁ hprimary, old_of_demote hw₁⟩
  · left
    intro w' hw' hprimary
    rw [h] at hw'
    obtain ⟨w₁, hw₁, ⟨-, rfl⟩ | ⟨-, rfl⟩⟩ := mem_updateWhere hw'
    · obtain ⟨w, hw, hid, huser, hold⟩ := old_of_demote hw₁
      exact ⟨w, hw, hid, huser, fun hgiven => hold (isPrimary_of_getD hp hgiven)⟩
    · exact old_of_demote hw₁

/-- A wallet becomes primary alone, or none does. -/
lemma WalletChange.promotes (h : WalletChange lib x r d d') (hcustody : Custody d) :
    (∀ w' ∈ d'.wallets, w'.isPrimary → Old d w') ∨ ∃ k id, Promotes k id d d' := by
  cases h with
  | same h =>
    left
    intro w' hw' _
    rw [h] at hw'
    exact ⟨w', hw', rfl, rfl, id⟩
  | touched p f h htitle hkey hprimary =>
    left
    intro w' hw' _
    rw [h] at hw'
    obtain ⟨w, hw, ⟨-, rfl⟩ | ⟨-, rfl⟩⟩ := mem_updateWhere hw'
    · exact old_of_title hw (htitle w) fun hf => by rwa [hprimary w] at hf
    · exact ⟨w', hw, rfl, rfl, id⟩
  | registered dto hr hreg h =>
    right
    refine ⟨x.userId, x.walletId, fun w' hw' _ => ?_⟩
    rw [h] at hw'
    rcases List.mem_append.mp hw' with hw | hw
    · right
      refine ⟨fun hk => ?_, w', hw, rfl, rfl, id⟩
      -- the user of an old wallet is there, and the new user is not
      obtain ⟨role, hmem⟩ := isSome_findUser.mp (hcustody.owners w' hw)
      rw [hk] at hmem
      exact not_mem_roles_of_free hreg.free role hmem
    · obtain rfl := List.mem_singleton.mp hw
      exact .inl ⟨rfl, rfl⟩
  | connected owner dto hconnects h => exact promotes_of_connected h
  | updated bearer owner wallet dto hr haccess h => exact promotes_of_updated hcustody haccess.mem h
  | disconnected bearer owner wallet hr haccess h =>
    left
    intro w' hw' hprimary
    rw [h] at hw'
    obtain ⟨w, hw, ⟨-, rfl⟩ | ⟨-, rfl⟩⟩ := mem_updateWhere hw'
    · cases hprimary
    · exact ⟨w', hw, rfl, rfl, id⟩

/-- The rows stay one primary wallet for each user. -/
lemma one_of_promotes (hcustody : Custody d) (hids : (d'.wallets.map UserWallet.id).Nodup)
    (h : (∀ w' ∈ d'.wallets, w'.isPrimary → Old d w') ∨ ∃ k id, Promotes k id d d')
    (hw : w ∈ d'.wallets) (hw' : w' ∈ d'.wallets) (hp : w.isPrimary) (hp' : w'.isPrimary)
    (huser : w.userId = w'.userId) : w = w' := by
  have hold (hw₁ : Old d w) (hw₂ : Old d w') : w.id = w'.id := by
    obtain ⟨w₁, hmem₁, hid₁, huser₁, hprimary₁⟩ := hw₁
    obtain ⟨w₂, hmem₂, hid₂, huser₂, hprimary₂⟩ := hw₂
    rw [← hid₁, ← hid₂, hcustody.one w₁ hmem₁ w₂ hmem₂ (hprimary₁ hp) (hprimary₂ hp')
      (huser₁.trans (huser.trans huser₂.symm))]
  refine List.inj_on_of_nodup_map hids hw hw' ?_
  rcases h with hall | ⟨k, id, hpromotes⟩
  · exact hold (hall w hw hp) (hall w' hw' hp')
  · rcases hpromotes w hw hp with ⟨hk, hid⟩ | ⟨hk, hw₁⟩
    · rcases hpromotes w' hw' hp' with ⟨-, hid'⟩ | ⟨hk', -⟩
      · exact hid.trans hid'.symm
      · exact absurd (huser.symm.trans hk) hk'
    · rcases hpromotes w' hw' hp' with ⟨hk', -⟩ | ⟨-, hw₂⟩
      · exact absurd (huser.trans hk') hk
      · exact hold hw₁ hw₂

/-! ### Users of wallets -/

lemma exists_title (htitle : w.title ∈ d.titles) : ∃ w₀ ∈ d.wallets, w₀.userId = w.userId := by
  obtain ⟨w₀, hw₀, heq⟩ := List.mem_map.mp htitle
  exact ⟨w₀, hw₀, (UserWallet.title_eq_iff.mp heq).2.1⟩

/-- Every wallet has a user, also after a request. -/
lemma owner_of_mem (hcustody : Custody d) (hw : w ∈ (handle lib x production r d).1.wallets) :
    ((handle lib x production r d).1.findUser w.userId).isSome := by
  have htitle : w.title ∈ (handle lib x production r d).1.titles := List.mem_map_of_mem hw
  have hfound (hold : w.title ∈ d.titles) :
      ((handle lib x production r d).1.findUser w.userId).isSome := by
    obtain ⟨w₀, hw₀, huser⟩ := exists_title hold
    rw [← huser]
    exact found_handle (hcustody.owners w₀ hw₀)
  cases handle_walletEffect lib x production r d with
  | same h =>
    rw [h] at htitle
    exact hfound htitle
  | registered dto hr hreg h =>
    rw [h, List.mem_append, List.mem_singleton] at htitle
    rcases htitle with htitle | htitle
    · exact hfound htitle
    · rw [(UserWallet.title_eq_iff.mp htitle).2.1, hr, isSome_findUser]
      refine ⟨dto.role.getD .CONSUMER, ?_⟩
      show (x.userId, _) ∈ (AuthService.walletLogin lib x dto d).1.roles
      have hfree : (d.consume dto.nonce).free (AuthService.newUser x dto) = true := hreg.free
      rw [walletLogin_of_registers hreg, (loginUnknown_of_free hfree).1]
      exact List.mem_append_right _ (List.mem_singleton_self _)
  | connected owner dto hconnects h =>
    rw [h, List.mem_append, List.mem_singleton] at htitle
    rcases htitle with htitle | htitle
    · exact hfound htitle
    · rw [(UserWallet.title_eq_iff.mp htitle).2.1]
      exact found_handle hconnects.user

lemma custody_step {label : AccountRequest × Chance} (hstep : (custody lib production).Step d label d')
    (h : Custody d) : Custody d' := by
  have hids := nodup_step hstep h.ids
  obtain ⟨-, rfl⟩ := hstep
  have hchange := handle_walletChange lib label.2 production label.1 d
  refine ⟨hids, fun w hw => owner_of_mem h hw, fun w hw w' hw' hp hp' huser => ?_⟩
  exact one_of_promotes h hids (hchange.promotes h) hw hw' hp hp' huser

lemma custody_reachable (h : (custody lib production).Reachable d) : Custody d :=
  h.invariant (fun _ hinit => hinit) fun _ _ _ _ hcustody hstep => custody_step hstep hcustody

/-- The first statement of the transactions that make a wallet primary. -/
lemma Custody.demote (h : Custody d) (isPrimary : Option Bool) (k : String) :
    Custody (WalletsService.demote isPrimary k d) := by
  have hids : ((WalletsService.demote isPrimary k d).wallets.map UserWallet.id).Nodup := by
    rw [ids_of_titles, demote_titles, ← ids_of_titles]
    exact h.ids
  have hold : ∀ w' ∈ (WalletsService.demote isPrimary k d).wallets, w'.isPrimary → Old d w' := by
    intro w' hw' _
    exact old_of_demote hw'
  refine ⟨hids, fun w' hw' => ?_, fun w hw w' hw' hp hp' huser => ?_⟩
  · obtain ⟨w, hw, -, huser, -⟩ := mem_demote hw'
    rw [← huser]
    exact found_of_users (demote_users _ _) (h.owners w hw)
  · exact one_of_promotes h hids (.inl hold) hw hw' hp hp' huser

/-! ### Whose wallets change -/

/-- A wallet that is primary no longer, or now, is one of a user whom the request concerns. -/
lemma WalletChange.concerns (h : WalletChange lib x r d d') (hcustody : Custody d)
    (hfresh : x.walletId ∉ d.wallets.map UserWallet.id) (hw : w ∈ d.wallets) (hw' : w' ∈ d'.wallets)
    (hid : w'.id = w.id) (hchanged : w'.isPrimary ≠ w.isPrimary) : Concerns lib x r d w.userId := by
  have hsame (hold : w' ∈ d.wallets) : False :=
    hchanged (congrArg UserWallet.isPrimary (hcustody.eq_of_id hold hw hid))
  have hnew (hnew : w'.id = x.walletId) : False := by
    rw [← hnew, hid] at hfresh
    exact hfresh (List.mem_map_of_mem hw)
  cases h with
  | same h =>
    rw [h] at hw'
    exact (hsame hw').elim
  | touched p f h htitle hkey hprimary =>
    rw [h] at hw'
    obtain ⟨w₀, hw₀, ⟨-, rfl⟩ | ⟨-, rfl⟩⟩ := mem_updateWhere hw'
    · have hid₀ := (UserWallet.title_eq_iff.mp (htitle w₀)).1
      obtain rfl := hcustody.eq_of_id hw₀ hw (hid₀.symm.trans hid)
      exact absurd (hprimary w₀) hchanged
    · exact (hsame hw₀).elim
  | registered dto hr hreg h =>
    rw [h] at hw'
    rcases List.mem_append.mp hw' with hold | hlast
    · exact (hsame hold).elim
    · obtain rfl := List.mem_singleton.mp hlast
      exact (hnew rfl).elim
  | connected owner dto hconnects h =>
    rw [h] at hw'
    rcases List.mem_append.mp hw' with hold | hlast
    · obtain ⟨w₀, hw₀, hid₀, -, -, -, hkept⟩ := mem_demote hold
      obtain rfl := hcustody.eq_of_id hw₀ hw (hid₀.trans hid)
      by_cases hk : w₀.userId = owner.id
      · rw [hk]
        exact .connects owner dto hconnects
      · rw [hkept hk] at hchanged
        exact absurd rfl hchanged
    · obtain rfl := List.mem_singleton.mp hlast
      exact (hnew rfl).elim
  | updated bearer owner wallet dto hr haccess h =>
    rw [h] at hw'
    obtain ⟨w₁, hw₁, hcase⟩ := mem_updateWhere hw'
    obtain ⟨w₀, hw₀, hid₀, -, -, -, hkept⟩ := mem_demote hw₁
    suffices hk : w.userId = wallet.userId by
      rw [hk]
      exact .updates bearer owner wallet dto hr haccess
    rcases hcase with ⟨hthis, rfl⟩ | ⟨-, rfl⟩
    · have hid₁ : w₁.id = wallet.id := of_decide_eq_true hthis
      rw [hcustody.eq_of_id hw haccess.mem (hid.symm.trans hid₁)]
    · obtain rfl := hcustody.eq_of_id hw₀ hw (hid₀.trans hid)
      by_contra hk
      rw [hkept hk] at hchanged
      exact hchanged rfl
  | disconnected bearer owner wallet hr haccess h =>
    rw [h] at hw'
    obtain ⟨w₀, hw₀, ⟨hthis, rfl⟩ | ⟨-, rfl⟩⟩ := mem_updateWhere hw'
    · have hid₀ : w₀.id = wallet.id := of_decide_eq_true hthis
      rw [hcustody.eq_of_id hw haccess.mem (hid.symm.trans hid₀)]
      exact .disconnects bearer owner wallet hr haccess
    · exact (hsame hw₀).elim

end Primaries

/-- In every reachable state a user has one primary wallet at most, whatever its status. So the unique
index holds, also between the two statements of a transaction, and the processor's lookup has one
answer. And a request changes which wallets are primary only for the user whom it concerns. -/
theorem one_primary_wallet {lib : Libraries} {production : Bool} {d : Server}
    (h : (custody lib production).Reachable d) :
    (∀ k, (d.primaries k).length ≤ 1) ∧ (∀ k, (d.indexed k).length ≤ 1) ∧
    (∀ isPrimary k k', ((WalletsService.demote isPrimary k d).indexed k').length ≤ 1) ∧
    (∀ k, ∀ w ∈ d.indexed k, (d.indexed k).take 1 = [w]) ∧
    ∀ label d', (custody lib production).Step d label d' → ∀ w ∈ d.wallets, ∀ w' ∈ d'.wallets,
      w'.id = w.id → w'.isPrimary ≠ w.isPrimary → Concerns lib label.2 label.1 d w.userId := by
  have hcustody := custody_reachable h
  have hindexed (k : String) : (d.indexed k).length ≤ 1 :=
    indexed_le_primaries.trans (hcustody.primaries_le_one k)
  refine ⟨hcustody.primaries_le_one, hindexed, fun isPrimary k k' => ?_,
    fun k w hw => take_indexed (hindexed k) hw, ?_⟩
  · exact indexed_le_primaries.trans ((hcustody.demote isPrimary k).primaries_le_one k')
  · rintro label d' ⟨hfresh, rfl⟩ w hw w' hw' hid hchanged
    exact (handle_walletChange lib label.2 production label.1 d).concerns hcustody hfresh hw hw' hid
      hchanged

/-! ### A second wallet -/

/-- The admin has disconnected the primary wallet, which stays the primary one. -/
def sampleCustody : Server :=
  { sampleServer with wallets := sampleServer.wallets.map fun w =>
      { w with isPrimary := true, status := .DISCONNECTED } }

lemma custody_sample : Custody sampleCustody := by
  refine ⟨by decide, by decide, fun w hw w' hw' _ _ _ => ?_⟩
  obtain rfl := List.mem_singleton.mp hw
  obtain rfl := List.mem_singleton.mp hw'
  rfl

/-- The wallet that is connected. -/
def sampleConnection : AccountRequest × Chance :=
  (.createWallet "access root"
    { provider := .FREIGHTER, network := .STELLAR, address := "GNEW", isPrimary := some true },
    sampleChance "new")

/-- The new wallet is the primary one, in place of the other. -/
theorem one_primary_wallet_of_second : ∃ d, (custody sampleLibraries true).Reachable d ∧
    (d.primaries "root").map UserWallet.id = ["wallet of new"] ∧
    (d.primaries "root").length ≤ 1 := by
  have hreach : (custody sampleLibraries true).Reachable
      (handle sampleLibraries sampleConnection.2 true sampleConnection.1 sampleCustody).1 :=
    (Transition.System.Reachable.init custody_sample).step ⟨by decide, rfl⟩
  exact ⟨_, hreach, by decide, (one_primary_wallet hreach).1 _⟩

end PayEra.Api.Accounts
