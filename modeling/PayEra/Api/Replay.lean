import PayEra.Api.Logins

/-!
# One login for each challenge

A login checks its nonce by one call and deletes it by another, so two logins may both find it. At
most one of them issues tokens, and before the nonce expires, if none with a valid signature finds the
nonce between another's two calls, and none is still on its way when the nonce expires.
-/

namespace PayEra.Api.Logins

open Accounts AuthService
open Async (Program Event Script upon)
open Async.Program Async.Script

variable {lib : Libraries}

/-! ### Logins with one nonce -/

/-- The signature verifies. -/
def Valid (lib : Libraries) (dto : WalletLoginDto) : Prop :=
  Accounts.AuthService.isValidSignature lib dto = .ok true

/-- The session has issued tokens. -/
def Issues (n : ℕ) (w : Door) : Prop := ∃ secret payload s, w.Took n (.sign secret payload) s

/-- The session has issued the nonce, and it expires at this time. -/
def Expires (nonce : String) (time : ℕ) (w : Door) : Prop :=
  ∃ m dto s, w.Begun m (.walletChallenge dto) ∧
    w.Took m (.cacheSet (nonceKey nonce) "issued" (5 * 60 * 1000)) s ∧
      time = s.clock + 5 * 60 * 1000

/-- At most one of the logins with a nonce issues tokens, and before the nonce expires. -/
structure OneLogin (w : Door) : Prop where
  once : ∀ n m dto dto', w.Begun n (.walletLogin dto) → w.Begun m (.walletLogin dto') →
    dto.nonce = dto'.nonce → Issues n w → Issues m w → n = m
  timely : ∀ n dto secret payload s, w.Begun n (.walletLogin dto) →
    w.Took n (.sign secret payload) s → ∃ time, Expires dto.nonce time w ∧ s.clock < time

/-- A login with a valid signature has found its nonce, and has not tried to delete it yet. -/
def Holds (lib : Libraries) (m : ℕ) (key : String) (w : Door) : Prop :=
  ∃ dto, w.Begun m (.walletLogin dto) ∧ Valid lib dto ∧ nonceKey dto.nonce = key ∧
    w.Answered m (.cacheGet key) (.ok (some "issued")) ∧ ∀ r, ¬w.Answered m (.cacheDel key) r

/-- No login with a valid signature finds a nonce that another one holds, and none issues tokens
after the entry that it has found has expired. -/
def singular (lib : Libraries) : DoorCondition := fun _ e w r => match e, r with
  | .call n (.cacheGet key), r => r = .ok (some "issued") →
      ∀ dto, w.Begun n (.walletLogin dto) → Valid lib dto → ∀ m ≠ n, ¬Holds lib m key w
  | .call n (.sign _ _), _ => ∀ key s, w.Took n (.cacheGet key) s → ∀ e ∈ s.cache, e.key = key →
      s.clock < e.expiresAt → w.state.clock < e.expiresAt
  | _, _ => True

/-! ### The script -/

inductive Place where
  /-- A challenge. -/
  | clear
  | drew (nonce : String)
  | asked (dto : WalletLoginDto)
  | got (dto : WalletLoginDto)
  | cleared (dto : WalletLoginDto)
  | ended

def Place.find : Place → Place
  | .asked dto => .got dto
  | κ => κ

def Place.delete : Place → Place
  | .got dto => .cleared dto
  | κ => κ

def script (lib : Libraries) : Script Asked Op Op.Res Failure Place where
  start
    | .walletChallenge _ => .clear
    | .walletLogin dto => .asked dto
  may κ
    | .createReadableId => κ = .clear
    | .cacheSet key value ttl => ∃ nonce, κ = .drew nonce ∧ key = nonceKey nonce ∧
        value = "issued" ∧ ttl = 5 * 60 * 1000
    | .cacheGet key => ∃ dto, κ = .asked dto ∧ key = nonceKey dto.nonce
    | .cacheDel key => ∃ dto, κ = .got dto ∧ key = nonceKey dto.nonce
    | .sign _ _ => ∃ dto, κ = .cleared dto ∧ Valid lib dto
    | _ => True
  leads κ
    | .createReadableId, .ok nonce, κ' => κ' = .drew nonce
    | .cacheSet _ _ _, _, κ' => κ' = .clear
    | .cacheGet _, .ok status, κ' => κ' = if status = some "issued" then κ.find else κ
    | .cacheDel _, .ok _, κ' => κ' = κ.delete
    | .cacheDel _, .error _, κ' => κ' = .ended
    | _, _, κ' => κ' = κ

section Admits

variable {α : Type} {κ : Place} {dto : WalletLoginDto}

/-- What a login with a valid signature may call after its nonce is deleted. -/
def Op.late : Op → Bool
  | .createReadableId | .cacheSet _ _ _ | .cacheGet _ | .cacheDel _ => false
  | _ => true

lemma late_generateTokens (userId : String) (role : UserRole) :
    (generateTokens userId role).All fun op => op.late :=
  all_bind (all_perform rfl) fun _ => all_bind (all_perform rfl) fun _ =>
    all_bind (all_perform rfl) fun _ => all_bind (all_perform rfl) fun _ =>
      all_bind (all_perform rfl) fun _ => all_pure _

lemma late_finishLogin (user : User) (wallet : UserWallet) :
    (finishLogin dto user wallet).All fun op => op.late :=
  all_bind (late_generateTokens ..) fun _ => all_bind (all_perform rfl) fun _ => all_pure _

lemma late_loginVerified : (loginVerified lib dto).All fun op => op.late := by
  refine all_bind (all_perform rfl) fun found => ?_
  cases found with
  | some wallet =>
    exact all_bind (all_perform rfl) fun _ => all_bind (all_perform rfl) fun _ =>
      all_bind (all_perform rfl) fun _ => all_bind (all_perform rfl) fun _ => late_finishLogin ..
  | none =>
    exact all_bind (all_perform rfl) fun _ => all_bind (all_perform rfl) fun _ =>
      all_bind (all_perform rfl) fun _ => all_bind (all_perform rfl) fun _ =>
        all_bind (all_perform rfl) fun _ => late_finishLogin ..

lemma admits_walletLogin : (script lib).Admits (walletLogin lib dto) (.asked dto)
    (upon (fun _ _ => True) fun _ => True) := by
  refine admits_call ⟨dto, rfl, rfl⟩ (fun _ _ _ => trivial) fun status κ hleads => ?_
  simp only
  split_ifs with hstatus
  · obtain rfl : κ = .got dto := by
      rw [hleads, if_pos hstatus]
      rfl
    refine admits_call ⟨dto, rfl, rfl⟩ (fun _ _ _ => trivial) ?_
    rintro _ κ rfl
    cases hvalid : Accounts.AuthService.isValidSignature lib dto with
    | error message => trivial
    | ok valid =>
      cases valid with
      | false => trivial
      | true =>
        refine admits_all late_loginVerified (fun r => ?_) fun op hop => ?_
        · exact upon_true r _
        · cases op with
          | createReadableId | cacheSet | cacheGet | cacheDel => cases hop
          | sign => exact ⟨⟨dto, rfl, hvalid⟩, fun r κ' h => h⟩
          | _ => exact ⟨trivial, fun r κ' h => h⟩
  · trivial

lemma admits_issueWalletChallenge {dto : WalletChallengeDto} :
    (script lib).Admits (issueWalletChallenge dto) .clear
      (upon (fun _ _ => True) fun _ => True) := by
  refine admits_call rfl (fun _ _ _ => trivial) ?_
  rintro nonce κ rfl
  refine admits_call trivial (fun _ _ _ => trivial) ?_
  rintro date κ rfl
  exact admits_call ⟨nonce, rfl, rfl, rfl, rfl⟩ (fun _ _ _ => trivial) fun _ κ _ => trivial

theorem admits_program (q : Asked) :
    (script lib).Admits (q.program lib) ((script lib).start q) fun _ _ => True := by
  cases q with
  | walletChallenge dto =>
    have h : (script lib).Admits (Asked.program lib (.walletChallenge dto)) .clear
        (upon (fun _ _ => True) fun _ => True) :=
      admits_bind admits_issueWalletChallenge fun _ _ _ => trivial
    exact h.mono fun _ _ _ => trivial
  | walletLogin dto =>
    have h : (script lib).Admits (Asked.program lib (.walletLogin dto)) (.asked dto)
        (upon (fun _ _ => True) fun _ => True) :=
      admits_bind admits_walletLogin fun _ _ _ => trivial
    exact h.mono fun _ _ _ => trivial

end Admits

/-! ### The invariant -/

lemma nonceKey_injective {nonce nonce' : String} (h : nonceKey nonce = nonceKey nonce') :
    nonce = nonce' := by
  have hlist := congrArg String.toList h
  simp only [nonceKey, String.toList_append] at hlist
  exact String.toList_inj.mp (List.append_cancel_left hlist)

/-- The nonce was drawn, and nobody is about to put it into the cache. -/
def Published (nonce : String) (s : House) (f : Multiset (Option (ℕ × Place))) : Prop :=
  nonce ∈ s.drawn ∧ ∀ n, some (n, .drew nonce) ∉ f

/-- A login with a valid signature has deleted its nonce. -/
def Passed (lib : Libraries) (n : ℕ) (dto : WalletLoginDto) (w : Door) : Prop :=
  w.Begun n (.walletLogin dto) ∧ Valid lib dto ∧
    w.Answered n (.cacheDel (nonceKey dto.nonce)) (.ok ())

/-- What the sessions share. -/
structure Guarded (lib : Libraries) (w : Door) (f : Multiset (Option (ℕ × Place))) : Prop where
  drawn : ∀ n nonce, some (n, .drew nonce) ∈ f → nonce ∈ w.state.drawn
  drewOnce : ∀ n m nonce, some (n, .drew nonce) ∈ f → some (m, .drew nonce) ∈ f → n = m
  cached : ∀ e ∈ w.state.cache, ∃ nonce, e.key = nonceKey nonce ∧ Published nonce w.state f ∧
    Expires nonce e.expiresAt w
  held : ∀ n dto, some (n, .got dto) ∈ f → Published dto.nonce w.state f
  single : ∀ n m dto dto', some (n, .got dto) ∈ f → some (m, .got dto') ∈ f → Valid lib dto →
    Valid lib dto' → dto.nonce = dto'.nonce → n = m
  passed : ∀ n dto, Passed lib n dto w → Published dto.nonce w.state f ∧
    (∀ e ∈ w.state.cache, e.key ≠ nonceKey dto.nonce) ∧
      ∀ m dto', some (m, .got dto') ∈ f → Valid lib dto' → dto'.nonce ≠ dto.nonce
  passedOnce : ∀ n m dto dto', Passed lib n dto w → Passed lib m dto' w → dto.nonce = dto'.nonce →
    n = m
  looked : ∀ n nonce s, w.Took n (.cacheGet (nonceKey nonce)) s → ∀ e ∈ s.cache,
    e.key = nonceKey nonce → Expires nonce e.expiresAt w
  signed : ∀ n secret payload s, w.Took n (.sign secret payload) s → ∃ dto, Passed lib n dto w ∧
    ∃ time, Expires dto.nonce time w ∧ s.clock < time

/-- The session has found its nonce in the cache. -/
def Found (n : ℕ) (dto : WalletLoginDto) (w : Door) : Prop :=
  ∃ s, w.Took n (.cacheGet (nonceKey dto.nonce)) s ∧
    ∃ e ∈ s.cache, e.key = nonceKey dto.nonce ∧ s.clock < e.expiresAt

/-- What the place says about the session's own events. -/
def Mine (n : ℕ) (κ : Place) (w : Door) : Prop :=
  match κ with
  | .clear | .drew _ => ∃ dto, w.Begun n (.walletChallenge dto)
  | .asked dto => w.Begun n (.walletLogin dto) ∧ ∀ key r, ¬w.Answered n (.cacheDel key) r
  | .got dto => w.Begun n (.walletLogin dto) ∧ (∀ key r, ¬w.Answered n (.cacheDel key) r) ∧
      w.Answered n (.cacheGet (nonceKey dto.nonce)) (.ok (some "issued")) ∧ Found n dto w
  | .cleared dto => w.Begun n (.walletLogin dto) ∧
      w.Answered n (.cacheDel (nonceKey dto.nonce)) (.ok ()) ∧ Found n dto w
  | .ended => True

section Invariant

variable {w w' : Door} {f f' : Multiset (Option (ℕ × Place))} {n m : ℕ} {κ κ' : Place}
  {nonce : String} {time : ℕ} {dto : WalletLoginDto}

/-- The journal goes on. -/
structure Grows (w w' : Door) : Prop where
  entries : w.entries ⊆ w'.entries
  effects : w.effects ⊆ w'.effects

lemma grows_happens {e : Happening} {r : Except Failure (Happening.Res e)}
    (h : Happens lib e w r w') : Grows w w' where
  entries := by
    rw [Async.happens_entries h]
    exact List.subset_append_left ..
  effects := Async.happens_effects h

lemma Expires.grows (h : Expires nonce time w) (hgrows : Grows w w') : Expires nonce time w' := by
  obtain ⟨m, dto, s, hbegun, htook, htime⟩ := h
  exact ⟨m, dto, s, hgrows.entries hbegun, hgrows.effects htook, htime⟩

lemma Found.grows (h : Found n dto w) (hgrows : Grows w w') : Found n dto w' := by
  obtain ⟨s, htook, he⟩ := h
  exact ⟨s, hgrows.effects htook, he⟩

lemma Passed.grows (h : Passed lib n dto w) (hgrows : Grows w w') : Passed lib n dto w' :=
  ⟨hgrows.entries h.1, h.2.1, hgrows.entries h.2.2⟩

/-- The journal goes on, and no login passes. A new look is at the state before, and who issues new
tokens has passed in time. -/
structure Calm (lib : Libraries) (w w' : Door) : Prop extends Grows w w' where
  passed : ∀ n dto, Passed lib n dto w' → Passed lib n dto w
  looked : ∀ n key s, w'.Took n (.cacheGet key) s → w.Took n (.cacheGet key) s ∨ s = w.state
  signed : ∀ n secret payload s, w'.Took n (.sign secret payload) s →
    w.Took n (.sign secret payload) s ∨ ∃ dto, Passed lib n dto w ∧
      ∃ time, Expires dto.nonce time w ∧ s.clock < time

/-- Entries other than answers say nothing about who passes. -/
lemma calm_of_eq (hentries : w.entries ⊆ w'.entries) (heffects : w'.effects = w.effects)
    (hpassed : ∀ n dto, Passed lib n dto w' → Passed lib n dto w) : Calm lib w w' where
  entries := hentries
  effects := by
    rw [heffects]
    exact List.Subset.refl _
  passed := hpassed
  looked n key s h := by
    rw [Async.Journal.Took, heffects] at h
    exact .inl h
  signed n secret payload s h := by
    rw [Async.Journal.Took, heffects] at h
    exact .inl h

lemma calm_refl (w : Door) : Calm lib w w :=
  calm_of_eq (List.Subset.refl _) rfl fun _ _ h => h

/-- A step in which no login finds a nonce or passes, and what is new in the cache. -/
lemma Guarded.quiet (h : Guarded lib w f) (hcalm : Calm lib w w')
    (hpublished : ∀ nonce, Published nonce w.state f → Published nonce w'.state f')
    (hdrawn : ∀ n nonce, some (n, .drew nonce) ∈ f' → nonce ∈ w'.state.drawn)
    (hdrewOnce : ∀ n m nonce, some (n, .drew nonce) ∈ f' → some (m, .drew nonce) ∈ f' → n = m)
    (hcache : ∀ e ∈ w'.state.cache, e ∈ w.state.cache ∨ ∃ nonce, e.key = nonceKey nonce ∧
      Published nonce w'.state f' ∧ Expires nonce e.expiresAt w' ∧ ¬Published nonce w.state f)
    (hgot : ∀ n dto, some (n, .got dto) ∈ f' → some (n, .got dto) ∈ f) : Guarded lib w' f' where
  drawn := hdrawn
  drewOnce := hdrewOnce
  cached e he := by
    rcases hcache e he with he | ⟨nonce, hkey, hpub, hexpires, -⟩
    · obtain ⟨nonce, hkey, hpub, hexpires⟩ := h.cached e he
      exact ⟨nonce, hkey, hpublished nonce hpub, hexpires.grows hcalm.toGrows⟩
    · exact ⟨nonce, hkey, hpub, hexpires⟩
  held n dto hn := hpublished _ (h.held n dto (hgot n dto hn))
  single n m dto dto' hn hm := h.single n m dto dto' (hgot n dto hn) (hgot m dto' hm)
  passed n dto hn := by
    obtain ⟨hpub, hnone, hothers⟩ := h.passed n dto (hcalm.passed n dto hn)
    refine ⟨hpublished _ hpub, fun e he hkey => ?_,
      fun m dto' hm => hothers m dto' (hgot m dto' hm)⟩
    rcases hcache e he with he | ⟨nonce, hkey', -, -, hnew⟩
    · exact hnone e he hkey
    · obtain rfl := nonceKey_injective (hkey'.symm.trans hkey)
      exact hnew hpub
  passedOnce n m dto dto' hn hm :=
    h.passedOnce n m dto dto' (hcalm.passed n dto hn) (hcalm.passed m dto' hm)
  looked n nonce s hn e he hkey := by
    rcases hcalm.looked n _ s hn with hold | rfl
    · exact (h.looked n nonce s hold e he hkey).grows hcalm.toGrows
    · obtain ⟨nonce', hkey', -, hexpires⟩ := h.cached e he
      obtain rfl := nonceKey_injective (hkey.symm.trans hkey')
      exact hexpires.grows hcalm.toGrows
  signed n secret payload s hn := by
    rcases hcalm.signed n secret payload s hn with hold | ⟨dto, hdto, time, hexpires, htime⟩
    · obtain ⟨dto, hdto, time, hexpires, htime⟩ := h.signed n secret payload s hold
      exact ⟨dto, hdto.grows hcalm.toGrows, time, hexpires.grows hcalm.toGrows, htime⟩
    · exact ⟨dto, hdto.grows hcalm.toGrows, time, hexpires.grows hcalm.toGrows, htime⟩

/-- The place of a session that is about to publish a nonce, or has found one. -/
def Place.holds : Place → Bool
  | .drew _ | .got _ => true
  | _ => false

/-- A step after which the cache and the places have no more than before. -/
lemma Guarded.ease (h : Guarded lib w f) (hcalm : Calm lib w w')
    (hcache : w'.state.cache ⊆ w.state.cache) (hdrawn : w'.state.drawn = w.state.drawn)
    (hplaces : ∀ n κ, κ.holds → some (n, κ) ∈ f' → some (n, κ) ∈ f) : Guarded lib w' f' := by
  apply h.quiet hcalm
  · intro nonce hpub
    rw [Published, hdrawn]
    exact ⟨hpub.1, fun m hm => hpub.2 m (hplaces m _ rfl hm)⟩
  · intro m nonce hm
    rw [hdrawn]
    exact h.drawn m nonce (hplaces m _ rfl hm)
  · exact fun m m' nonce hm hm' => h.drewOnce m m' nonce (hplaces m _ rfl hm) (hplaces m' _ rfl hm')
  · exact fun e he => .inl (hcache he)
  · exact fun m dto hm => hplaces m _ rfl hm

lemma mem_rest {κ' : Place} (h : some (m, κ') ∈ some (n, κ) ::ₘ f) (hne : κ' ≠ κ) :
    some (m, κ') ∈ f := by
  rcases Multiset.mem_cons.mp h with heq | h
  · cases heq
    exact absurd rfl hne
  · exact h

/-- A login finds its nonce in the cache, and no other one with a valid signature holds it. -/
lemma Guarded.finds (h : Guarded lib w (some (n, .asked dto) ::ₘ f)) {e : Entry}
    (he : e ∈ w.state.cache) (hkey : e.key = nonceKey dto.nonce)
    (hothers : Valid lib dto → ∀ m dto', some (m, .got dto') ∈ f → Valid lib dto' →
      dto.nonce ≠ dto'.nonce) : Guarded lib w (some (n, .got dto) ::ₘ f) := by
  have hdrew (m nonce) (hm : some (m, Place.drew nonce) ∈ some (n, .got dto) ::ₘ f) :
      some (m, .drew nonce) ∈ some (n, Place.asked dto) ::ₘ f := by
    rcases Multiset.mem_cons.mp hm with heq | hm
    · cases heq
    · exact Multiset.mem_cons_of_mem hm
  have hpublished (nonce) (hpub : Published nonce w.state (some (n, .asked dto) ::ₘ f)) :
      Published nonce w.state (some (n, .got dto) ::ₘ f) :=
    ⟨hpub.1, fun m hm => hpub.2 m (hdrew m nonce hm)⟩
  have hpub : Published dto.nonce w.state (some (n, .asked dto) ::ₘ f) := by
    obtain ⟨nonce, hkey', hpub, -⟩ := h.cached e he
    obtain rfl := nonceKey_injective (hkey.symm.trans hkey')
    exact hpub
  constructor
  · exact fun m nonce hm => h.drawn m nonce (hdrew m nonce hm)
  · exact fun m m' nonce hm hm' => h.drewOnce m m' nonce (hdrew m nonce hm) (hdrew m' nonce hm')
  · intro e he
    obtain ⟨nonce, hkey, hpub, hexpires⟩ := h.cached e he
    exact ⟨nonce, hkey, hpublished nonce hpub, hexpires⟩
  · intro m dto' hm
    rcases Multiset.mem_cons.mp hm with heq | hm
    · cases heq
      exact hpublished _ hpub
    · exact hpublished _ (h.held m dto' (Multiset.mem_cons_of_mem hm))
  · intro m m' dto₁ dto₂ hm hm' hvalid hvalid' hnonce
    rcases Multiset.mem_cons.mp hm with heq | hm
    · cases heq
      rcases Multiset.mem_cons.mp hm' with heq' | hm'
      · cases heq'
        rfl
      · exact absurd hnonce (hothers hvalid m' dto₂ hm' hvalid')
    · rcases Multiset.mem_cons.mp hm' with heq' | hm'
      · cases heq'
        exact absurd hnonce.symm (hothers hvalid' m dto₁ hm hvalid)
      · exact h.single m m' dto₁ dto₂ (Multiset.mem_cons_of_mem hm) (Multiset.mem_cons_of_mem hm')
          hvalid hvalid' hnonce
  · intro m dto' hm
    obtain ⟨hpub', hnone, hrest⟩ := h.passed m dto' hm
    refine ⟨hpublished _ hpub', hnone, fun m' dto₂ hm' hvalid => ?_⟩
    rcases Multiset.mem_cons.mp hm' with heq | hm'
    · cases heq
      intro hnonce
      exact hnone e he (by rw [hkey, hnonce])
    · exact hrest m' dto₂ (Multiset.mem_cons_of_mem hm') hvalid
  · exact h.passedOnce
  · exact h.looked
  · exact h.signed

/-- A login deletes its nonce. -/
lemma Guarded.passes (h : Guarded lib w (some (n, .got dto) ::ₘ f)) (hgrows : Grows w w')
    (hn : ∀ κ, some (n, κ) ∉ f)
    (hcache : ∀ e ∈ w'.state.cache, e ∈ w.state.cache ∧ e.key ≠ nonceKey dto.nonce)
    (hdrawn : w'.state.drawn = w.state.drawn)
    (hpassed : ∀ m dto', Passed lib m dto' w' → Passed lib m dto' w ∨ m = n ∧ dto' = dto)
    (heffects : ∀ m op s, (∀ key, op ≠ .cacheDel key) → w'.Took m op s → w.Took m op s) :
    Guarded lib w' (some (n, .cleared dto) ::ₘ f) := by
  have hpublished (nonce) (hpub : Published nonce w.state (some (n, .got dto) ::ₘ f)) :
      Published nonce w'.state (some (n, .cleared dto) ::ₘ f) := by
    rw [Published, hdrawn]
    refine ⟨hpub.1, fun m hm => hpub.2 m ?_⟩
    exact Multiset.mem_cons_of_mem (mem_rest hm fun h => by cases h)
  have hself : some (n, Place.got dto) ∈ some (n, Place.got dto) ::ₘ f := Multiset.mem_cons_self ..
  constructor
  · intro m nonce hm
    rw [hdrawn]
    exact h.drawn m nonce (Multiset.mem_cons_of_mem (mem_rest hm fun h => by cases h))
  · intro m m' nonce hm hm'
    exact h.drewOnce m m' nonce (Multiset.mem_cons_of_mem (mem_rest hm fun h => by cases h))
      (Multiset.mem_cons_of_mem (mem_rest hm' fun h => by cases h))
  · intro e he
    obtain ⟨nonce, hkey, hpub, hexpires⟩ := h.cached e (hcache e he).1
    exact ⟨nonce, hkey, hpublished nonce hpub, hexpires.grows hgrows⟩
  · intro m dto' hm
    exact hpublished _ (h.held m dto' (Multiset.mem_cons_of_mem (mem_rest hm fun h => by cases h)))
  · intro m m' dto₁ dto₂ hm hm'
    exact h.single m m' dto₁ dto₂ (Multiset.mem_cons_of_mem (mem_rest hm fun h => by cases h))
      (Multiset.mem_cons_of_mem (mem_rest hm' fun h => by cases h))
  · intro m dto' hm
    rcases hpassed m dto' hm with hm | ⟨rfl, rfl⟩
    · obtain ⟨hpub, hnone, hrest⟩ := h.passed m dto' hm
      refine ⟨hpublished _ hpub, fun e he => hnone e (hcache e he).1, fun m' dto₂ hm' => ?_⟩
      exact hrest m' dto₂ (Multiset.mem_cons_of_mem (mem_rest hm' fun h => by cases h))
    · refine ⟨hpublished _ (h.held _ _ hself), fun e he => (hcache e he).2, ?_⟩
      intro m' dto₂ hm' hvalid hnonce
      have hmem := mem_rest hm' fun h => by cases h
      obtain rfl := h.single _ m' _ dto₂ hself (Multiset.mem_cons_of_mem hmem) hm.2.1 hvalid
        hnonce.symm
      exact hn _ hmem
  · intro m m' dto₁ dto₂ hm hm' hnonce
    rcases hpassed m dto₁ hm with hold | ⟨rfl, rfl⟩
    · rcases hpassed m' dto₂ hm' with hold' | ⟨rfl, rfl⟩
      · exact h.passedOnce m m' dto₁ dto₂ hold hold' hnonce
      · exact absurd hnonce.symm ((h.passed m dto₁ hold).2.2 _ _ hself hm'.2.1)
    · rcases hpassed m' dto₂ hm' with hold' | ⟨rfl, rfl⟩
      · exact absurd hnonce ((h.passed m' dto₂ hold').2.2 _ _ hself hm.2.1)
      · rfl
  · intro m nonce s hm e he hkey
    exact (h.looked m nonce s (heffects m _ s (fun _ h => by cases h) hm) e he hkey).grows hgrows
  · intro m secret payload s hm
    obtain ⟨dto', hdto', time, hexpires, htime⟩ :=
      h.signed m secret payload s (heffects m _ s (fun _ h => by cases h) hm)
    exact ⟨dto', hdto'.grows hgrows, time, hexpires.grows hgrows, htime⟩

end Invariant

/-! ### The script keeps the invariant -/

abbrev singularAnswer (lib : Libraries) (e : Happening) (w : Door)
    (r : Except Failure (Happening.Res e)) : Prop := singular lib 0 e w r

abbrev replay (lib : Libraries) :=
  (script lib).protocol (β := Option Login) (singularAnswer lib) (Guarded lib) Mine

section Keeps

variable {w w' : Door} {f : Multiset (Option (ℕ × Place))} {n m : ℕ} {κ : Place} {op : Op}
  {r : Except Failure op.Res} {dto : WalletLoginDto}

lemma Mine.agrees (h : Mine n κ w) (hagrees : w.Agrees n w') : Mine n κ w' := by
  have hanswered {op : Op} {r : Except Failure op.Res} : w'.Answered n op r ↔ w.Answered n op r :=
    hagrees.entry rfl
  have hfound {dto : WalletLoginDto} (h : Found n dto w) : Found n dto w' := by
    obtain ⟨s, htook, he⟩ := h
    exact ⟨s, (hagrees.effect rfl).mpr htook, he⟩
  cases κ with
  | clear =>
    obtain ⟨dto, hbegun⟩ := h
    exact ⟨dto, hagrees.begun.mpr hbegun⟩
  | drew nonce =>
    obtain ⟨dto, hbegun⟩ := h
    exact ⟨dto, hagrees.begun.mpr hbegun⟩
  | asked dto =>
    obtain ⟨hbegun, hnone⟩ := h
    exact ⟨hagrees.begun.mpr hbegun, fun key r hr => hnone key r (hanswered.mp hr)⟩
  | got dto =>
    obtain ⟨hbegun, hnone, hget, hfind⟩ := h
    exact ⟨hagrees.begun.mpr hbegun, fun key r hr => hnone key r (hanswered.mp hr),
      hanswered.mpr hget, hfound hfind⟩
  | cleared dto =>
    obtain ⟨hbegun, hdel, hfind⟩ := h
    exact ⟨hagrees.begun.mpr hbegun, hanswered.mpr hdel, hfound hfind⟩
  | ended => trivial

/-- A call of the session that does not delete a nonce. -/
lemma Mine.goes (h : Mine n κ w) (hhappens : Happens lib (.call n op) w r w')
    (hop : ∀ key, op ≠ .cacheDel key) : Mine n κ w' := by
  have hgrows := grows_happens hhappens
  have hnone (hnone : ∀ key r, ¬w.Answered n (.cacheDel key) r) (key : String)
      (r : Except Failure Unit) : ¬w'.Answered n (.cacheDel key) r := by
    intro hanswered
    rcases Async.answered_happens hhappens hanswered with hanswered | heq
    · exact hnone key r hanswered
    · cases heq
      exact hop key rfl
  cases κ with
  | clear =>
    obtain ⟨dto, hbegun⟩ := h
    exact ⟨dto, hgrows.entries hbegun⟩
  | drew nonce =>
    obtain ⟨dto, hbegun⟩ := h
    exact ⟨dto, hgrows.entries hbegun⟩
  | asked dto => exact ⟨hgrows.entries h.1, hnone h.2⟩
  | got dto => exact ⟨hgrows.entries h.1, hnone h.2.1, hgrows.entries h.2.2.1, h.2.2.2.grows hgrows⟩
  | cleared dto => exact ⟨hgrows.entries h.1, hgrows.entries h.2.1, h.2.2.grows hgrows⟩
  | ended => trivial

/-- To pass takes the answer to a deletion. -/
lemma Passed.back (h : Passed lib m dto w') (hhappens : Happens lib (.call n op) w r w') :
    Passed lib m dto w ∨
      w.Begun m (.walletLogin dto) ∧ m = n ∧ (∃ key, op = .cacheDel key) ∧ ∃ v, r = .ok v := by
  obtain ⟨hbegun, hvalid, hanswered⟩ := h
  have hbegun : w.Begun m (.walletLogin dto) := by
    rcases (Async.begun_happens hhappens).mp hbegun with hbegun | heq
    · exact hbegun
    · cases heq
  rcases Async.answered_happens hhappens hanswered with hanswered | heq
  · exact .inl ⟨hbegun, hvalid, hanswered⟩
  · right
    generalize nonceKey dto.nonce = key at heq
    cases heq
    exact ⟨hbegun, rfl, ⟨key, rfl⟩, (), rfl⟩

lemma Passed.old (h : Passed lib m dto w') (hhappens : Happens lib (.call n op) w r w')
    (hop : ∀ key, op ≠ .cacheDel key) : Passed lib m dto w := by
  rcases h.back hhappens with h | ⟨-, -, ⟨key, heq⟩, -⟩
  · exact h
  · exact absurd heq (hop key)

/-- Calls that have nothing to do with nonces. -/
lemma returns_late {s s' : House} {v : op.Res} (h : Returns lib op s v s') (hop : op.late) :
    s'.cache = s.cache ∧ s'.drawn = s.drawn := by
  obtain ⟨o, h⟩ := h
  cases op with
  | createReadableId | cacheSet | cacheGet | cacheDel => cases hop
  | touchUser | touchWallet | setRefreshToken | findWalletOf =>
    obtain ⟨row, -, heq⟩ := Option.map_eq_some_iff.mp h
    cases heq
    exact ⟨rfl, rfl⟩
  | createUser data wallet =>
    rw [House.answer] at h
    split_ifs at h
    cases h
    exact ⟨rfl, rfl⟩
  | _ =>
    cases h
    exact ⟨rfl, rfl⟩

/-- A call that is neither a deletion nor a token. -/
lemma calm_call (hhappens : Happens lib (.call n op) w r w') (hdel : ∀ key, op ≠ .cacheDel key)
    (hsign : ∀ secret payload, op ≠ .sign secret payload) : Calm lib w w' where
  toGrows := grows_happens hhappens
  passed m dto h := h.old hhappens hdel
  looked m key s h := (Async.took_happens hhappens h).imp_right And.right
  signed m secret payload s h := by
    rcases Async.took_happens hhappens h with h | ⟨heq, -⟩
    · exact .inl h
    · cases heq
      exact absurd rfl (hsign secret payload)

/-- A token that a login with a valid signature issues in time. -/
lemma calm_sign (hinv : (replay lib).Inv w (some (n, κ) ::ₘ f)) (hmine : Mine n κ w)
    {secret : Secret} {payload : JwtPayload} (hmay : (script lib).may κ (.sign secret payload))
    {r : Except Failure String} (hallowed : singular lib 0 (.call n (.sign secret payload)) w r)
    (hhappens : Happens lib (.call n (.sign secret payload)) w r w') : Calm lib w w' where
  toGrows := grows_happens hhappens
  passed m dto h := h.old hhappens fun _ heq => by cases heq
  looked m key s h := (Async.took_happens hhappens h).imp_right And.right
  signed m secret' payload' s h := by
    rcases Async.took_happens hhappens h with h | ⟨heq, rfl⟩
    · exact .inl h
    · cases heq
      obtain ⟨dto, rfl, hvalid⟩ := hmay
      obtain ⟨hbegun, hanswered, s, hfound, e, he, hkey, htime⟩ := hmine
      exact .inr ⟨dto, ⟨hbegun, hvalid, hanswered⟩, e.expiresAt,
        hinv.base.looked n dto.nonce s hfound e he hkey, hallowed _ s hfound e he hkey htime⟩

/-- A call that has nothing to do with nonces. -/
lemma late_call (hinv : (replay lib).Inv w (some (n, κ) ::ₘ f)) (hmine : Mine n κ w)
    (hmay : (script lib).may κ op) (hallowed : singular lib 0 (.call n op) w r)
    (hhappens : Happens lib (.call n op) w r w') (hop : op.late) :
    Guarded lib w' (some (n, κ) ::ₘ f) ∧ Mine n κ w' := by
  have hdel : ∀ key, op ≠ .cacheDel key := by
    rintro key rfl
    cases hop
  have hstate : w'.state.cache = w.state.cache ∧ w'.state.drawn = w.state.drawn := by
    rcases Async.happens_call hhappens with ⟨heq, -⟩ | ⟨⟨v, hreturns⟩, -⟩
    · rw [heq]
      exact ⟨rfl, rfl⟩
    · exact returns_late hreturns hop
  have hcalm : Calm lib w w' := by
    cases op with
    | sign secret payload => exact calm_sign hinv hmine hmay hallowed hhappens
    | _ => exact calm_call hhappens hdel fun _ _ heq => by cases heq
  refine ⟨hinv.base.ease hcalm ?_ hstate.2 (fun _ _ _ h => h), hmine.goes hhappens hdel⟩
  rw [hstate.1]
  exact List.Subset.refl _

/-- The other sessions in progress have other numbers. -/
lemma not_mem_rest (hinv : (replay lib).Inv w (some (n, κ) ::ₘ f)) (κ' : Place) :
    some (n, κ') ∉ f := fun hmem => hinv.number_ne rfl hmem rfl rfl

/-- A nonce is drawn, which nobody has drawn before. -/
lemma Guarded.draws {nonce : String} (h : Guarded lib w (some (n, .clear) ::ₘ f))
    (hcalm : Calm lib w w') (hnonce : nonce ∉ w.state.drawn)
    (hcache : w'.state.cache = w.state.cache) (hdrawn : w'.state.drawn = w.state.drawn ++ [nonce]) :
    Guarded lib w' (some (n, .drew nonce) ::ₘ f) := by
  have hcases {m nonce'} (hm : some (m, Place.drew nonce') ∈ some (n, .drew nonce) ::ₘ f) :
      m = n ∧ nonce' = nonce ∨
        nonce' ≠ nonce ∧ some (m, .drew nonce') ∈ some (n, Place.clear) ::ₘ f := by
    rcases Multiset.mem_cons.mp hm with heq | hm
    · cases heq
      exact .inl ⟨rfl, rfl⟩
    · have hold := Multiset.mem_cons_of_mem (b := some (n, Place.clear)) hm
      refine .inr ⟨?_, hold⟩
      rintro rfl
      exact hnonce (h.drawn m nonce' hold)
  apply h.quiet hcalm
  · intro nonce' hpub
    refine ⟨?_, fun m hm => ?_⟩
    · rw [hdrawn]
      exact List.mem_append_left _ hpub.1
    · rcases hcases hm with ⟨-, rfl⟩ | ⟨-, hm⟩
      · exact hnonce hpub.1
      · exact hpub.2 m hm
  · intro m nonce' hm
    rw [hdrawn]
    rcases hcases hm with ⟨-, rfl⟩ | ⟨-, hm⟩
    · exact List.mem_append_right _ (List.mem_singleton_self _)
    · exact List.mem_append_left _ (h.drawn m nonce' hm)
  · intro m m' nonce' hm hm'
    rcases hcases hm with ⟨rfl, rfl⟩ | ⟨hne, hm⟩
    · rcases hcases hm' with ⟨rfl, -⟩ | ⟨hne, -⟩
      · rfl
      · exact absurd rfl hne
    · rcases hcases hm' with ⟨-, rfl⟩ | ⟨-, hm'⟩
      · exact absurd rfl hne
      · exact h.drewOnce m m' nonce' hm hm'
  · intro e he
    rw [hcache] at he
    exact .inl he
  · exact fun m dto hm => Multiset.mem_cons_of_mem (mem_rest hm fun heq => by cases heq)

lemma draw_call (hinv : (replay lib).Inv w (some (n, .clear) ::ₘ f)) (hmine : Mine n .clear w)
    {r : Except Failure String} (hhappens : Happens lib (.call n .createReadableId) w r w') :
    ∃ κ', (script lib).leads .clear .createReadableId r κ' ∧ Guarded lib w' (some (n, κ') ::ₘ f) ∧
      Mine n κ' w' := by
  have hdel : ∀ key, Op.createReadableId ≠ .cacheDel key := fun _ h => by cases h
  have hmine' : Mine n .clear w' := hmine.goes hhappens hdel
  have hcalm : Calm lib w w' := calm_call hhappens hdel fun _ _ h => by cases h
  have hdraws {nonce : String} (hreturns : Returns lib .createReadableId w.state nonce w'.state) :
      Guarded lib w' (some (n, .drew nonce) ::ₘ f) := by
    obtain ⟨o, h⟩ := hreturns
    rw [House.answer] at h
    split_ifs at h with hnonce
    obtain ⟨rfl, hstate⟩ := Prod.mk.inj (Option.some.inj h)
    apply hinv.base.draws hcalm hnonce
    · rw [← hstate]
    · rw [← hstate]
  cases r with
  | ok nonce => exact ⟨.drew nonce, rfl, hdraws hhappens.2.1, hmine'⟩
  | error e =>
    refine ⟨.clear, rfl, ?_, hmine'⟩
    rcases Async.happens_call hhappens with ⟨hstate, -⟩ | ⟨⟨nonce, hreturns⟩, -⟩
    · apply hinv.base.ease hcalm
      · rw [hstate]
        exact List.Subset.refl _
      · rw [hstate]
      · exact fun _ _ _ h => h
    · -- the nonce is drawn, and nobody learns of it
      apply (hdraws hreturns).ease (calm_refl w') (List.Subset.refl _) rfl
      intro m κ hκ hm
      refine Multiset.mem_cons_of_mem (mem_rest hm ?_)
      rintro rfl
      cases hκ

/-- A nonce is put into the cache. -/
lemma set_call (hinv : (replay lib).Inv w (some (n, κ) ::ₘ f)) (hmine : Mine n κ w)
    {key value : String} {ttl : ℕ} (hmay : (script lib).may κ (.cacheSet key value ttl))
    {r : Except Failure Unit} (hhappens : Happens lib (.call n (.cacheSet key value ttl)) w r w') :
    Guarded lib w' (some (n, .clear) ::ₘ f) ∧ Mine n .clear w' := by
  obtain ⟨nonce, rfl, rfl, rfl, rfl⟩ := hmay
  have hdel : ∀ key', Op.cacheSet (nonceKey nonce) "issued" (5 * 60 * 1000) ≠ .cacheDel key' :=
    fun _ h => by cases h
  have hcalm : Calm lib w w' := calm_call hhappens hdel fun _ _ h => by cases h
  have hplaces (m κ') (hκ' : κ' ≠ Place.clear) (hm : some (m, κ') ∈ some (n, .clear) ::ₘ f) :
      some (m, κ') ∈ some (n, Place.drew nonce) ::ₘ f :=
    Multiset.mem_cons_of_mem (mem_rest hm hκ')
  refine ⟨?_, hmine.goes hhappens hdel⟩
  rcases Async.happens_call hhappens with ⟨hstate, -⟩ | ⟨⟨v, o, hreturns⟩, heffects⟩
  · apply hinv.base.ease hcalm
    · rw [hstate]
      exact List.Subset.refl _
    · rw [hstate]
    · exact fun m κ' hκ' hm => hplaces m κ' (fun h => by subst h; cases hκ') hm
  · have hself : some (n, Place.drew nonce) ∈ some (n, Place.drew nonce) ::ₘ f :=
      Multiset.mem_cons_self ..
    obtain ⟨-, hstate⟩ := Prod.mk.inj (Option.some.inj hreturns)
    have hdrawn : w'.state.drawn = w.state.drawn := by rw [← hstate]
    have hpublished (nonce') (hin : nonce' ∈ w.state.drawn)
        (hout : ∀ m, some (m, Place.drew nonce') ∉ f) :
        Published nonce' w'.state (some (n, .clear) ::ₘ f) := by
      rw [Published, hdrawn]
      exact ⟨hin, fun m hm => hout m (mem_rest hm fun h => by cases h)⟩
    apply hinv.base.quiet hcalm
    · intro nonce' hpub
      exact hpublished nonce' hpub.1 fun m hm => hpub.2 m (Multiset.mem_cons_of_mem hm)
    · intro m nonce' hm
      rw [hdrawn]
      exact hinv.base.drawn m nonce' (hplaces m _ (fun h => by cases h) hm)
    · exact fun m m' nonce' hm hm' => hinv.base.drewOnce m m' nonce'
        (hplaces m _ (fun h => by cases h) hm) (hplaces m' _ (fun h => by cases h) hm')
    · intro e he
      rw [← hstate] at he
      rcases List.mem_cons.mp he with rfl | he
      · obtain ⟨dto, hbegun⟩ := hmine
        refine .inr ⟨nonce, rfl, hpublished nonce (hinv.base.drawn n nonce hself) fun m hm => ?_,
          ⟨n, dto, w.state, hcalm.entries hbegun, ?_, rfl⟩, fun hpub => hpub.2 n hself⟩
        · obtain rfl := hinv.base.drewOnce m n nonce (Multiset.mem_cons_of_mem hm) hself
          exact not_mem_rest hinv _ hm
        · rw [Async.Journal.Took, heffects]
          exact List.mem_append_right _ (List.mem_singleton_self _)
      · exact .inl (List.mem_of_mem_filter he)
    · exact fun m dto hm => hplaces m _ (fun h => by cases h) hm

/-- A login looks for its nonce. -/
lemma get_call (hinv : (replay lib).Inv w (some (n, κ) ::ₘ f)) (hmine : Mine n κ w) {key : String}
    (hmay : (script lib).may κ (.cacheGet key)) {r : Except Failure (Option String)}
    (hallowed : singular lib 0 (.call n (.cacheGet key)) w r)
    (hhappens : Happens lib (.call n (.cacheGet key)) w r w') :
    ∃ κ', (script lib).leads κ (.cacheGet key) r κ' ∧ Guarded lib w' (some (n, κ') ::ₘ f) ∧
      Mine n κ' w' := by
  obtain ⟨dto, rfl, rfl⟩ := hmay
  have hdel : ∀ key, Op.cacheGet (nonceKey dto.nonce) ≠ .cacheDel key := fun _ h => by cases h
  have hcalm : Calm lib w w' := calm_call hhappens hdel fun _ _ h => by cases h
  have hstate : w'.state = w.state := by
    rcases Async.happens_call hhappens with ⟨hstate, -⟩ | ⟨⟨v, o, hreturns⟩, -⟩
    · exact hstate
    · exact (Prod.mk.inj (Option.some.inj hreturns)).2.symm
  have hguarded : Guarded lib w' (some (n, .asked dto) ::ₘ f) := by
    apply hinv.base.ease hcalm
    · rw [hstate]
      exact List.Subset.refl _
    · rw [hstate]
    · exact fun _ _ _ h => h
  have hmine' : Mine n (.asked dto) w' := hmine.goes hhappens hdel
  have hstay : Guarded lib w' (some (n, .asked dto) ::ₘ f) ∧ Mine n (.asked dto) w' :=
    ⟨hguarded, hmine'⟩
  cases r with
  | error e => exact ⟨.asked dto, rfl, hstay⟩
  | ok status =>
    by_cases hstatus : status = some "issued"
    · subst hstatus
      obtain ⟨hentries, ⟨o, hreturns⟩, heffects⟩ := hhappens
      have hget : w.state.get (nonceKey dto.nonce) = some "issued" :=
        (Prod.mk.inj (Option.some.inj hreturns)).1
      obtain ⟨e, hfind, -⟩ := Option.map_eq_some_iff.mp hget
      have he : e ∈ w.state.cache := List.mem_of_find?_eq_some hfind
      obtain ⟨hkey, htime⟩ : e.key = nonceKey dto.nonce ∧ w.state.clock < e.expiresAt := by
        simpa using List.find?_some hfind
      refine ⟨.got dto, rfl, hguarded.finds (by rw [hstate]; exact he) hkey ?_, hmine'.1, hmine'.2,
        ?_, w.state, ?_, e, he, hkey, htime⟩
      · intro hvalid m dto' hm hvalid' hnonce
        have hmine'' : Mine m (.got dto') w :=
          (hinv.running _ (Multiset.mem_cons_of_mem hm) m rfl).2.2 m _ rfl
        obtain ⟨hbegun, hnone, hanswered, -⟩ := hmine''
        apply hallowed rfl dto hmine.1 hvalid m (hinv.number_ne rfl hm rfl).symm
        rw [hnonce]
        exact ⟨dto', hbegun, hvalid', rfl, hanswered, hnone _⟩
      · rw [Async.Journal.Answered, hentries]
        exact List.mem_append_right _ (List.mem_singleton_self _)
      · rw [Async.Journal.Took, heffects]
        exact List.mem_append_right _ (List.mem_singleton_self _)
    · exact ⟨.asked dto, (if_neg hstatus).symm, hstay⟩

/-- A login deletes its nonce. -/
lemma del_call (hinv : (replay lib).Inv w (some (n, κ) ::ₘ f)) (hmine : Mine n κ w) {key : String}
    (hmay : (script lib).may κ (.cacheDel key)) {r : Except Failure Unit}
    (hhappens : Happens lib (.call n (.cacheDel key)) w r w') :
    ∃ κ', (script lib).leads κ (.cacheDel key) r κ' ∧ Guarded lib w' (some (n, κ') ::ₘ f) ∧
      Mine n κ' w' := by
  obtain ⟨dto, rfl, rfl⟩ := hmay
  obtain ⟨hbegun, hnone, hanswered, hfound⟩ := hmine
  have hgrows := grows_happens hhappens
  cases r with
  | ok v =>
    obtain ⟨hentries, ⟨o, hreturns⟩, heffects⟩ := id hhappens
    obtain ⟨-, hstate⟩ := Prod.mk.inj (Option.some.inj hreturns)
    refine ⟨.cleared dto, rfl, hinv.base.passes hgrows (not_mem_rest hinv) ?_ ?_ ?_ ?_,
      hgrows.entries hbegun, ?_, hfound.grows hgrows⟩
    · intro e he
      rw [← hstate] at he
      obtain ⟨he, hkey⟩ := List.mem_filter.mp he
      exact ⟨he, of_decide_eq_true hkey⟩
    · rw [← hstate]
    · intro m dto' hm
      rcases hm.back hhappens with hm | ⟨hbegun', rfl, -⟩
      · exact .inl hm
      · have hasked := hinv.asked m _ _ hbegun' hbegun
        cases hasked
        exact .inr ⟨rfl, rfl⟩
    · intro m op s hop htook
      rcases Async.took_happens hhappens htook with htook | ⟨heq, -⟩
      · exact htook
      · cases heq
        exact absurd rfl (hop _)
    · rw [Async.Journal.Answered, hentries]
      exact List.mem_append_right _ (List.mem_singleton_self _)
  | error e =>
    refine ⟨.ended, rfl, ?_, trivial⟩
    have hcalm : Calm lib w w' :=
      { toGrows := hgrows
        passed := fun m dto' hm => by
          rcases hm.back hhappens with hm | ⟨-, -, -, v, heq⟩
          · exact hm
          · cases heq
        looked := fun m key s h => (Async.took_happens hhappens h).imp_right And.right
        signed := fun m secret payload s h => by
          rcases Async.took_happens hhappens h with h | ⟨heq, -⟩
          · exact .inl h
          · cases heq }
    have hplaces (m κ') (hκ' : κ'.holds) (hm : some (m, κ') ∈ some (n, .ended) ::ₘ f) :
        some (m, κ') ∈ some (n, Place.got dto) ::ₘ f :=
      Multiset.mem_cons_of_mem (mem_rest hm fun h => by subst h; cases hκ')
    rcases Async.happens_call hhappens with ⟨hstate, -⟩ | ⟨⟨v, o, hreturns⟩, -⟩
    · apply hinv.base.ease hcalm _ _ hplaces
      · rw [hstate]
        exact List.Subset.refl _
      · rw [hstate]
    · obtain ⟨-, hstate⟩ := Prod.mk.inj (Option.some.inj hreturns)
      apply hinv.base.ease hcalm _ _ hplaces
      · rw [← hstate]
        exact List.filter_subset_self ..
      · rw [← hstate]

end Keeps

lemma replay_keeps (lib : Libraries) :
    (script lib).Keeps (Returns lib) Total (fun _ => False) (β := Option Login) (singularAnswer lib)
      (Guarded lib) Mine where
  own n κ w w' hagrees h := h.agrees hagrees
  begin n q w f r w' hbase hentries _ _ hhappens := by
    have hgrows := grows_happens hhappens
    have hbegun : w'.Begun n q := (Async.begun_happens hhappens).mpr (.inr rfl)
    have hanswered {m op r} (h : w'.Answered m op r) : w.Answered m op r := by
      rcases Async.answered_happens hhappens h with h | heq
      · exact h
      · cases heq
    have hcalm : Calm lib w w' := by
      refine calm_of_eq hgrows.entries ?_ fun m dto hm => ?_
      · obtain ⟨-, -, rfl⟩ := hhappens
        rfl
      · obtain ⟨hbegun, hvalid, hdel⟩ := hm
        refine ⟨?_, hvalid, hanswered hdel⟩
        rcases (Async.begun_happens hhappens).mp hbegun with hbegun | heq
        · exact hbegun
        · cases heq
          exact absurd rfl (hentries _ (hanswered hdel))
    have hstate : w'.state = w.state := by
      obtain ⟨-, -, rfl⟩ := hhappens
      rfl
    constructor
    · apply hbase.ease hcalm
      · rw [hstate]
        exact List.Subset.refl _
      · rw [hstate]
      · intro m κ hκ hm
        refine Multiset.mem_cons_of_mem (mem_rest hm ?_)
        rintro rfl
        cases q <;> cases hκ
    · cases q with
      | walletChallenge dto => exact ⟨dto, hbegun⟩
      | walletLogin dto => exact ⟨hbegun, fun key r hr => hentries _ (hanswered hr) rfl⟩
  finish n κ a w f r w' hinv _ _ hhappens := by
    have hcalm : Calm lib w w' := by
      refine calm_of_eq (grows_happens hhappens).entries ?_ fun m dto hm => ?_
      · obtain ⟨-, rfl⟩ := hhappens
        rfl
      · obtain ⟨hbegun, hvalid, hdel⟩ := hm
        refine ⟨?_, hvalid, ?_⟩
        · rcases (Async.begun_happens hhappens).mp hbegun with hbegun | heq
          · exact hbegun
          · cases heq
        · rcases Async.answered_happens hhappens hdel with hdel | heq
          · exact hdel
          · cases heq
    have hstate : w'.state = w.state := by
      obtain ⟨-, rfl⟩ := hhappens
      rfl
    apply hinv.base.ease hcalm
    · rw [hstate]
      exact List.Subset.refl _
    · rw [hstate]
    · intro m κ' hκ' hm
      rcases Multiset.mem_cons.mp hm with heq | hm
      · cases heq
      · exact Multiset.mem_cons_of_mem hm
  call n κ op w f r w' hmay hinv hmine hallowed hhappens := by
    cases op with
    | createReadableId =>
      obtain rfl : κ = .clear := hmay
      exact draw_call hinv hmine hhappens
    | cacheSet key value ttl => exact ⟨.clear, rfl, set_call hinv hmine hmay hhappens⟩
    | cacheGet key => exact get_call hinv hmine hmay hallowed hhappens
    | cacheDel key => exact del_call hinv hmine hmay hhappens
    | _ => exact ⟨κ, rfl, late_call hinv hmine hmay hallowed hhappens rfl⟩

theorem replay_governs (lib : Libraries) :
    Async.Governs ((replay lib).discipline (Returns lib) Total (fun _ => False))
      (Async.sessions (Returns lib) Total (fun _ => False) (Asked.program lib) House.Fresh
        House.Other (singular lib)) := by
  apply (replay_keeps lib).governs
  · intro w hfresh hentries heffects
    have hanswered {m op r} (h : w.Answered m op r) : False := by
      rw [Async.Journal.Answered, hentries] at h
      cases h
    have htook {m op s} (h : w.Took m op s) : False := by
      rw [Async.Journal.Took, heffects] at h
      cases h
    exact
      { drawn := fun m nonce h => absurd h (Multiset.notMem_zero _)
        drewOnce := fun m m' nonce h => absurd h (Multiset.notMem_zero _)
        cached := fun e he => by
          rw [hfresh.cache] at he
          cases he
        held := fun m dto h => absurd h (Multiset.notMem_zero _)
        single := fun m m' dto dto' h => absurd h (Multiset.notMem_zero _)
        passed := fun m dto h => (hanswered h.2.2).elim
        passedOnce := fun m m' dto dto' h => (hanswered h.2.2).elim
        looked := fun m nonce s h => (htook h).elim
        signed := fun m secret payload s h => (htook h).elim }
  · intro w f hbase
    apply hbase.ease (calm_refl w) (List.Subset.refl _) rfl
    intro m κ hκ hm
    rcases Multiset.mem_cons.mp hm with heq | hm
    · cases heq
    · exact hm
  · intro w w' f hentries heffects hother hbase
    have hcalm : Calm lib w w' := by
      refine calm_of_eq ?_ heffects fun m dto hm => ?_
      · rw [hentries]
        exact List.Subset.refl _
      · rw [Passed, Async.Journal.Begun, Async.Journal.Answered, hentries] at hm
        exact hm
    exact hbase.ease hcalm hother.cache hother.drawn fun _ _ _ h => h
  · exact fun rest e w r h => h
  · exact admits_program

/-- At most one login for each challenge issues tokens, and in time. -/
theorem one_login_of_singular (lib : Libraries) {s : DoorState}
    (h : (door lib (singular lib)).Reachable s) : OneLogin s.world := by
  obtain ⟨f, -, hinv⟩ := Async.reachable_sound (replay_governs lib) h
  have hpassed {n dto secret payload s'} (hbegun : s.world.Begun n (.walletLogin dto))
      (htook : s.world.Took n (.sign secret payload) s') :
      Passed lib n dto s.world ∧ ∃ time, Expires dto.nonce time s.world ∧ s'.clock < time := by
    obtain ⟨dto', hpassed, htime⟩ := hinv.base.signed n secret payload s' htook
    have hasked := hinv.asked n _ _ hbegun hpassed.1
    cases hasked
    exact ⟨hpassed, htime⟩
  constructor
  · rintro n m dto dto' hn hm hnonce ⟨secret, payload, s₁, h₁⟩ ⟨secret', payload', s₂, h₂⟩
    exact hinv.base.passedOnce n m dto dto' (hpassed hn h₁).1 (hpassed hm h₂).1 hnonce
  · exact fun n dto secret payload s' hbegun htook => (hpassed hbegun htook).2

/-! ### Two logins with one message -/

namespace TwoLogins

/-- Libraries that take every signature for good. -/
def libraries : Libraries where
  sign _ payload _ := payload.sub
  decode _ := .ok .null
  verify := verifyNone
  decode_of_verify := decode_of_verifyNone
  whereId := whereString
  whereId_str := whereString_str
  hash token _ := token
  compare token hashed := token = hashed
  verifySignature _ _ _ := .ok true
  sha256 bytes := bytes
  base64 _ := []
  trim s := s
  toLowerCase s := s

def oracle : Oracle where
  nonce := "NONCE"
  referralCode := "REF"
  userId := "user"
  walletId := "wallet"
  salt := "salt"

def replies (op : Op) (s : House) : Except Failure op.Res × House :=
  match House.answer libraries oracle op s with
  | none => (.error .recordNotFound, s)
  | some (v, s') => (.ok v, s')

lemma played_replies (op : Op) (s : House) :
    Async.Played (Returns libraries) Total op s (replies op s) := by
  rw [replies]
  cases hanswer : House.answer libraries oracle op s with
  | none =>
    rintro rfl
    cases hanswer
  | some vs => exact ⟨oracle, hanswer⟩

def challenge : Asked := .walletChallenge ⟨.FREIGHTER, .STELLAR, "GABC"⟩

def message : WalletLoginDto where
  provider := .FREIGHTER
  network := .STELLAR
  address := "GABC"
  signature := "signature"
  nonce := "NONCE"

/-- The first events of one more session. -/
def asked (n : ℕ) (q : Asked) (k : ℕ) (w : Door) : InProgress × Door :=
  (Async.session n q (q.program libraries)).runFor (Async.journalled replies) k w

def opening : Door where
  state := {}

def challenged : InProgress × Door := asked 0 challenge 10 opening

/-- A login has found the nonce. -/
def found : InProgress × Door := asked 1 (.walletLogin message) 2 challenged.2

/-- Meanwhile, another one goes through. -/
def overtaken : InProgress × Door := asked 2 (.walletLogin message) 30 found.2

/-- The first one goes on. -/
def replayed : InProgress × Door := found.1.runFor (Async.journalled replies) 30 overtaken.2

/-- A login on its own. -/
def alone : InProgress × Door := asked 1 (.walletLogin message) 30 challenged.2

lemma opening_init {cond : DoorCondition} : (door libraries cond).Init ⟨opening, 0⟩ :=
  ⟨⟨⟨rfl, rfl⟩, rfl, rfl⟩, rfl⟩

/-- A session has begun a login with the nonce. -/
def begins (n : ℕ) (nonce : String) (w : Door) : Bool := w.entries.any fun e => match e with
  | ⟨.begin m (.walletLogin dto), .ok _⟩ => m = n && dto.nonce = nonce
  | _ => false

lemma begun_of_begins {n : ℕ} {nonce : String} {w : Door} (h : begins n nonce w) :
    ∃ dto, w.Begun n (.walletLogin dto) ∧ dto.nonce = nonce := by
  obtain ⟨⟨e, r⟩, hmem, he⟩ := List.any_eq_true.mp h
  cases e with
  | begin m q =>
    cases q with
    | walletChallenge dto => cases he
    | walletLogin dto =>
      cases r with
      | error e => cases he
      | ok v =>
        rw [Bool.and_eq_true, decide_eq_true_eq, decide_eq_true_eq] at he
        obtain ⟨rfl, rfl⟩ := he
        exact ⟨dto, hmem, rfl⟩
  | call | finish => cases he

/-- The session has issued tokens. -/
def signs (n : ℕ) (w : Door) : Bool := w.effects.any fun e => e.session = n && match e.op with
  | .sign _ _ => true
  | _ => false

lemma issues_of_signs {n : ℕ} {w : Door} (h : signs n w) : Issues n w := by
  obtain ⟨⟨m, op, s⟩, hmem, he⟩ := List.any_eq_true.mp h
  rw [Bool.and_eq_true, decide_eq_true_eq] at he
  obtain ⟨rfl, hop⟩ := he
  cases op with
  | sign secret payload => exact ⟨secret, payload, s, hmem⟩
  | _ => cases hop

/-- A check that is enough for a login to be the only one that finds its nonce, and in time. -/
def lonely (w : Door) : Happening → Bool
  | .call n (.cacheGet _) => w.entries.all fun e => match e.1 with
    | .begin m (.walletLogin _) => m = n
    | _ => true
  | .call _ (.sign _ _) =>
    w.effects.all fun x => x.found.cache.all fun e => w.state.clock < e.expiresAt
  | _ => true

lemma singular_of_lonely {threads : Multiset InProgress} (e : Happening) (w : Door)
    (r : Except Failure (Happening.Res e)) (h : Async.unused e w && lonely w e) :
    Async.unused e w ∧ singular libraries threads e w r := by
  rw [Bool.and_eq_true] at h
  obtain ⟨hunused, hrest⟩ := h
  refine ⟨hunused, ?_⟩
  cases e with
  | begin n q => trivial
  | finish n a => trivial
  | call n op =>
    cases op with
    | cacheGet key =>
      rintro - - - - m hm ⟨dto, hbegun, -⟩
      exact hm (of_decide_eq_true (List.all_eq_true.mp hrest _ hbegun))
    | sign secret payload =>
      intro key s htook e he _ _
      exact of_decide_eq_true (List.all_eq_true.mp (List.all_eq_true.mp hrest _ htook) e he)
    | _ => trivial

end TwoLogins

/-- A login on its own issues its tokens. -/
theorem one_login_of_singular_alone : ∃ (lib : Libraries) (s : DoorState),
    (door lib (singular lib)).Reachable s ∧ Issues 1 s.world ∧ OneLogin s.world := by
  have hchallenged : (door TwoLogins.libraries (singular TwoLogins.libraries)).Reachable
      ⟨TwoLogins.challenged.2, TwoLogins.challenged.1 ::ₘ 0⟩ :=
    Async.reachable_journalled TwoLogins.played_replies TwoLogins.singular_of_lonely
      (by decide +kernel) (Async.reachable_start (.init TwoLogins.opening_init) ⟨0, _, rfl⟩)
  have halone : (door TwoLogins.libraries (singular TwoLogins.libraries)).Reachable
      ⟨TwoLogins.alone.2, TwoLogins.alone.1 ::ₘ TwoLogins.challenged.1 ::ₘ 0⟩ :=
    Async.reachable_journalled TwoLogins.played_replies TwoLogins.singular_of_lonely
      (by decide +kernel) (Async.reachable_start hchallenged ⟨1, _, rfl⟩)
  exact ⟨_, _, halone, TwoLogins.issues_of_signs (by decide +kernel),
    one_login_of_singular TwoLogins.libraries halone⟩

/-- Two logins with one message find the nonce before either of them deletes it, and both issue
tokens. -/
theorem replay_issues_twice : ∃ (lib : Libraries) (s : DoorState),
    (door lib anyHappening).Reachable s ∧ ¬OneLogin s.world := by
  have hunused {threads : Multiset InProgress} (e : Happening) (w : Door)
      (r : Except Failure (Happening.Res e)) (h : Async.unused e w) :
      Async.unused e w ∧ anyHappening threads e w r := ⟨h, trivial⟩
  have hchallenged : (door TwoLogins.libraries anyHappening).Reachable
      ⟨TwoLogins.challenged.2, TwoLogins.challenged.1 ::ₘ 0⟩ :=
    Async.reachable_journalled TwoLogins.played_replies hunused (by decide +kernel)
      (Async.reachable_start (.init TwoLogins.opening_init) ⟨0, _, rfl⟩)
  have hfound : (door TwoLogins.libraries anyHappening).Reachable
      ⟨TwoLogins.found.2, TwoLogins.found.1 ::ₘ TwoLogins.challenged.1 ::ₘ 0⟩ :=
    Async.reachable_journalled TwoLogins.played_replies hunused (by decide +kernel)
      (Async.reachable_start hchallenged ⟨1, _, rfl⟩)
  have hovertaken : (door TwoLogins.libraries anyHappening).Reachable
      ⟨TwoLogins.overtaken.2,
        TwoLogins.overtaken.1 ::ₘ TwoLogins.found.1 ::ₘ TwoLogins.challenged.1 ::ₘ 0⟩ :=
    Async.reachable_journalled TwoLogins.played_replies hunused (by decide +kernel)
      (Async.reachable_start hfound ⟨2, _, rfl⟩)
  rw [Multiset.cons_swap] at hovertaken
  have hreplayed : (door TwoLogins.libraries anyHappening).Reachable
      ⟨TwoLogins.replayed.2,
        TwoLogins.replayed.1 ::ₘ TwoLogins.overtaken.1 ::ₘ TwoLogins.challenged.1 ::ₘ 0⟩ :=
    Async.reachable_journalled TwoLogins.played_replies hunused (by decide +kernel) hovertaken
  refine ⟨_, _, hreplayed, fun h => ?_⟩
  have hbegins : TwoLogins.begins 1 "NONCE" TwoLogins.replayed.2 ∧
      TwoLogins.begins 2 "NONCE" TwoLogins.replayed.2 := by decide +kernel
  obtain ⟨dto, hbegun, hnonce⟩ := TwoLogins.begun_of_begins hbegins.1
  obtain ⟨dto', hbegun', hnonce'⟩ := TwoLogins.begun_of_begins hbegins.2
  have heq := h.once 1 2 dto dto' hbegun hbegun' (hnonce.trans hnonce'.symm)
    (TwoLogins.issues_of_signs (by decide +kernel)) (TwoLogins.issues_of_signs (by decide +kernel))
  cases heq

end PayEra.Api.Logins
