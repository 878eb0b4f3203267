import PayEra.Api.Rewards

/-!
# The lifecycle of a reward

Several services write the status of a reward, and none of them looks at the status that it overwrites;
the processor writes it for a list that it has fetched before its calls on chain. The lifecycle is kept
if and only if no admin mints, and no referral rewards, a row that is past being minted, and no
session of the processor writes a row on which something else was written since it has listed it.

The ghost state of a session holds the rewards that it has listed.
-/

namespace PayEra.Api.Rewards

open Async (Program Event Script upon)
open Async.Program Async.Script
open Transition (exists_split_snoc)

/-! ### What may become of rewards -/

/-- What may become of a row, given the mints on chain. -/
structure Goes (mints : List (String × String)) (r r' : Reward) : Prop where
  minted : r'.status = .MINTED → r.status = .MINTED ∨ r.status = .PENDING
  failed : r'.status = .FAILED → r.status = .FAILED ∨ r.status = .PENDING
  reversed : r.status = .REVERSED → r'.status = .REVERSED
  hash : ∀ hash, r.stellarMintHash = some hash → (r.id, hash) ∈ mints →
    r'.stellarMintHash = some hash

/-- No row disappears, and each goes on as it may. -/
def Lawful (d d' : Treasury) : Prop :=
  ∀ id r, d.reward id = some r → ∃ r', d'.reward id = some r' ∧ Goes d.mints r r'

def Lifecycle (tr : List TreasuryMove) : Prop :=
  ∀ m ∈ tr, Lawful m.pre.world.state m.post.world.state

/-- The processor's query. -/
def RewardOp.Lists : RewardOp → Prop
  | .service ⟨_, .findPendingRewards _⟩ => True
  | _ => False

/-- The call has written the status to the row. -/
def Writes (e : Done) (id : String) (status : RewardStatus) : Prop :=
  ∃ data, e.op.target e.found = some (id, data) ∧ data.status = some status

/-- The status was written to the row, and the session `n` has not listed pending rewards since. -/
abbrev Missed (n : ℕ) (id : String) (status : RewardStatus) (effects : List Done) : Prop :=
  Async.Missed (fun e => Writes e id status) RewardOp.Lists n effects

/-- The row holds the hash of a mint on chain. -/
def Stores (d : Treasury) (r : Reward) (hash : String) : Prop :=
  r.stellarMintHash = some hash ∧ (r.id, hash) ∈ d.mints

/-- The call comes at the wrong time: an admin mints, or a referral rewards, a row that has failed, was
reversed or (for the former) is minted on chain; or the processor writes a row on which it has missed
the write of another status, or which has got the hash of another mint. -/
def Misplaced (effects : List Done) (e : Done) : Prop :=
  match e.op with
  | .mint id _ => ∃ r, e.found.reward id = some r ∧
      (r.status = .FAILED ∨ r.status = .REVERSED ∨ ∃ hash, Stores e.found r hash)
  | .rewardReferral referral _ _ => ∃ r, e.found.rewardOf referral.id = some r ∧
      (r.status = .FAILED ∨ r.status = .REVERSED)
  | .service c => ∃ id data, c.op = .updateReward id data ∧
      ((∃ status, Missed e.session id status effects ∧ data.status ≠ some status) ∨
        ∃ r hash, e.found.reward id = some r ∧ Stores e.found r hash ∧
          data.stellarMintHash ≠ some (some hash))
  | _ => False

/-- Some call came at the wrong time. -/
def Disturbed (effects : List Done) : Prop :=
  ∃ l₁ e l₂, effects = l₁ ++ e :: l₂ ∧ Misplaced l₁ e

lemma disturbed_snoc {effects : List Done} {e : Done} :
    Disturbed (effects ++ [e]) ↔ Disturbed effects ∨ Misplaced effects e := by
  rw [Disturbed, exists_split_snoc, or_comm]
  rfl

/-! ### The script -/

/-- The processor mints or gives up, and says what the hash is. -/
def Final (data : RewardData) : Prop :=
  (data.status = some .MINTED ∨ data.status = some .FAILED) ∧ data.stellarMintHash.isSome

/-- The processor writes only rewards that it has listed. -/
def processing : Script Asked Request Request.Res String (List String) where
  start _ := []
  may κ
    | ⟨_, .updateReward id data⟩ => id ∈ κ ∧ Final data
    | _ => True
  leads κ
    | ⟨_, .findPendingRewards _⟩, .ok rows, κ' => κ' = rows.map fun p => p.reward.id
    | ⟨_, .findPendingRewards _⟩, .error _, κ' => κ' = []
    | _, _, κ' => κ' = κ

def rewarding : Script Task RewardOp RewardOp.Res String (List String) where
  start _ := []
  may κ
    | .service c => processing.may κ c
    | _ => True
  leads κ
    | .service c, r, κ' => processing.leads κ c r κ'
    | _, _, κ' => κ' = κ

/-- Calls that have nothing to do with pending rewards. -/
def Op.apart : Op → Bool
  | .updateReward _ _ | .findPendingRewards _ => false
  | _ => true

abbrev Apart (c : Request) : Prop := Op.apart c.op

section Admits

variable {α : Type} {κ : List String} {js : Js} {tx : Transaction}

/-- Calls that lead nowhere else: those that have nothing to do with pending rewards, and the writes of
rewards that are listed. -/
def Steady (κ : List String) (c : Request) : Prop :=
  Apart c ∨ ∃ id data, c.op = .updateReward id data ∧ id ∈ κ ∧ Final data

lemma steady_stays (c : Request) (hc : Steady κ c) :
    processing.may κ c ∧ ∀ r κ', processing.leads κ c r κ' → κ' = κ := by
  obtain ⟨source, op⟩ := c
  rcases hc with hapart | ⟨id, data, rfl, hmem, hfinal⟩
  · cases op with
    | updateReward | findPendingRewards => cases hapart
    | _ => exact ⟨trivial, fun r κ' h => h⟩
  · exact ⟨⟨hmem, hfinal⟩, fun r κ' h => h⟩

/-- No postcondition. -/
abbrev anywhere {α : Type} : Except String α → List String → Prop :=
  upon (fun _ _ => True) fun _ => True

lemma admits_steady {p : Service α} (hp : p.All (Steady κ)) : processing.Admits p κ anywhere :=
  admits_all hp (fun r => upon_true r κ) steady_stays

lemma admits_apart {p : Service α} (hp : p.All Apart) : processing.Admits p κ anywhere :=
  admits_steady (hp.mono fun _ => .inl)

lemma apart_of {source : Source} {P : Op → Prop} {p : Service α} (hP : ∀ op, P op → Op.apart op)
    (hp : p.All (Request.By source P)) : p.All Apart := hp.mono fun _ hc => hP _ hc.2

lemma apart_call {source : Source} {op : Op} (h : Op.apart op) : (call source op).All Apart :=
  all_perform h

namespace Processor

open PayEra.Api.Processor

lemma apart_logEvent {id : String} {status : TransactionStatus} {payload : Metadata} :
    (logEvent id status payload).All Apart :=
  all_bind (apart_call rfl) fun _ => apart_call rfl

lemma apart_updateStatus {id : String} {status : TransactionStatus}
    {failure : Option (String × String)} : (updateStatus id status failure).All Apart := by
  have hdate : (completionDate id status).All Apart := by
    rw [completionDate]
    split_ifs
    · exact all_bind (apart_call rfl) fun _ => all_pure _
    · exact all_pure _
  exact all_bind hdate fun _ => all_bind (apart_call rfl) fun _ => apart_logEvent

lemma apart_prepare : (prepare tx).All Apart := by
  refine all_bind apart_updateStatus fun _ => all_bind (apart_call rfl) fun reward => ?_
  cases reward with
  | none => exact all_throw _
  | some reward =>
    refine all_bind (all_ifPresent fun _ => apart_call rfl) fun _ => ?_
    exact all_bind (all_ifPresent fun _ => apart_call rfl) fun _ => all_pure _

lemma apart_quote : (quote js tx).All Apart := by
  have hrate : (getUsdcRate tx.id).All Apart := by
    refine all_bind (all_attempt (apart_call rfl)) fun r => ?_
    split
    · exact all_pure _
    · exact all_pure _
  have hdone (r : Except String ℤ) : (Program.done r : Service ℤ).All Apart := trivial
  refine all_bind apart_updateStatus fun _ => all_bind hrate fun _ => ?_
  refine all_bind (hdone _) fun _ => all_bind (hdone _) fun _ => ?_
  exact all_bind (apart_call rfl) fun _ => apart_updateStatus

lemma apart_route : (route js tx).All Apart := by
  refine all_bind apart_prepare fun _ => all_bind (apart_call rfl) fun _ => ?_
  refine all_bind apart_quote fun _ => all_bind (apart_call rfl) fun _ => ?_
  exact all_bind apart_updateStatus fun _ => apart_call rfl

lemma apart_markSettled {stellar : StellarResult} : (markSettled tx stellar).All Apart := by
  refine all_bind (apart_call rfl) fun _ => all_bind apart_logEvent fun _ => ?_
  exact all_bind (apart_call rfl) fun _ => apart_updateStatus

lemma apart_payMerchant : (payMerchant tx).All Apart := by
  refine all_bind (apart_call rfl) fun merchant => ?_
  cases merchant with
  | none => exact all_pure _
  | some merchant =>
    dsimp only
    split
    · exact all_pure _
    · exact all_bind (apart_call rfl) fun _ => all_bind (apart_call rfl) fun _ => all_pure _

lemma apart_complete {stellar : StellarResult} {attempt : ℕ} {rewardResult : RewardResult} :
    (complete tx stellar attempt rewardResult).All Apart := by
  refine apart_of (fun op hop => ?_) closing_complete
  cases op with
  | updateReward | findPendingRewards => exact hop.elim
  | _ => rfl

lemma apart_of_failing {p : Service α} {id : String} (hp : p.All (Failing id)) : p.All Apart := by
  refine apart_of (fun op hop => ?_) hp
  cases op with
  | updateReward | findPendingRewards => exact hop.elim
  | _ => rfl

/-- A write of a reward that is listed. -/
lemma steady_updateReward {id : String} {data : RewardData} (hid : id ∈ κ) (hdata : Final data) :
    (call (.run tx.id) (.updateReward id data)).All (Steady κ) :=
  all_perform (.inr ⟨id, data, rfl, hid, hdata⟩)

lemma steady_call {op : Op} (h : Op.apart op) : (call (.run tx.id) op).All (Steady κ) :=
  (apart_call h).mono fun _ => .inl

lemma steady_issueStarReward {rewardResult : RewardResult} {r : PendingReward} (hr : r.reward.id ∈ κ) :
    (issueStarReward tx rewardResult r).All (Steady κ) := by
  rw [issueStarReward]
  split
  · rename_i walletAddress _
    have hmint : (mintOnChain tx r.reward walletAddress).All (Steady κ) := by
      refine all_bind (steady_call rfl) fun hash => all_bind (steady_call rfl) fun date => ?_
      exact all_bind (steady_updateReward hr ⟨.inl rfl, rfl⟩) fun _ => all_pure _
    refine all_bind (all_attempt hmint) fun outcome => ?_
    cases outcome with
    | ok hash => exact all_pure _
    | error e => exact all_bind (steady_updateReward hr ⟨.inr rfl, rfl⟩) fun _ => all_pure _
  · refine all_bind (steady_call rfl) fun date => ?_
    exact all_bind (steady_updateReward hr ⟨.inl rfl, rfl⟩) fun _ => all_pure _

lemma admits_issueStarRewards : processing.Admits (issueStarRewards tx) κ anywhere := by
  refine admits_call trivial (fun _ _ _ => trivial) ?_
  rintro rows κ rfl
  refine admits_steady (all_foldlM (fun _ r hr => ?_) none)
  exact steady_issueStarReward (List.mem_map_of_mem hr)

lemma admits_settle {stellar : StellarResult} {attempt : ℕ} :
    processing.Admits (settle tx stellar attempt) κ anywhere := by
  refine admits_bind (admits_apart apart_markSettled) fun _ κ _ => ?_
  refine admits_bind (admits_apart apart_payMerchant) fun _ κ _ => ?_
  exact admits_bind admits_issueStarRewards fun _ κ _ => admits_apart apart_complete

lemma admits_abort {hash : Option String} {message : String} :
    processing.Admits (abort tx hash message) κ anywhere :=
  admits_apart (apart_of_failing failing_abort)

lemma admits_processTransaction {attempt : ℕ} :
    processing.Admits (processTransaction js tx attempt) κ anywhere := by
  refine admits_attempt (admits_apart apart_route) (fun stellar κ _ => ?_) fun e κ _ => admits_abort
  exact admits_attempt admits_settle (fun _ κ _ => trivial) fun e κ _ => admits_abort

lemma admits_retryFrom {remaining : ℕ} : processing.Admits (retryFrom js tx remaining) κ anywhere := by
  induction remaining generalizing κ with
  | zero =>
    refine admits_attempt admits_processTransaction (fun _ κ _ => trivial) fun e κ _ => ?_
    exact admits_apart (apart_of_failing failing_giveUp)
  | succ remaining ih =>
    refine admits_attempt admits_processTransaction (fun _ κ _ => trivial) fun e κ _ => ?_
    exact admits_bind (admits_apart (apart_call rfl)) fun _ κ _ => ih

lemma admits_tick : processing.Admits (handlePendingTransactions js) κ anywhere := by
  refine admits_bind (admits_apart (apart_call rfl)) fun now₁ κ _ => ?_
  refine admits_bind (admits_apart (apart_call rfl)) fun now₂ κ _ => ?_
  refine admits_bind (admits_apart (apart_call rfl)) fun claimed κ _ => ?_
  split_ifs
  · trivial
  · refine admits_bind (admits_apart (apart_call rfl)) fun now₃ κ _ => ?_
    refine admits_bind (admits_apart (apart_call rfl)) fun transactions κ _ => ?_
    exact admits_forM (J := fun _ => True) trivial fun tx _ κ _ => admits_retryFrom

end Processor

lemma apart_of_requested {p : Service α} (hp : p.All Requested) : p.All Apart := by
  refine apart_of (fun op hop => ?_) hp
  cases op with
  | updateReward | findPendingRewards => exact hop.elim
  | _ => rfl

/-- The tick and the rest of the transaction services. -/
lemma admits_asked (q : Asked) : processing.Admits (q.program js) κ anywhere := by
  cases q with
  | tick => exact Processor.admits_tick
  | poller =>
    refine admits_apart (apart_of (fun op hop => ?_) Processor.polling_handlePendingSettlements)
    cases op with
    | updateReward | findPendingRewards => exact hop.elim
    | _ => rfl
  | create owner dto => exact admits_apart (apart_of_requested Transactions.requested_create)
  | cancel owner id => exact admits_apart (apart_of_requested Transactions.requested_cancel)
  | fail owner id dto => exact admits_apart (apart_of_requested Transactions.requested_fail)

lemma admits_onTreasury {p : Service α} {G : Except String α → List String → Prop}
    (h : processing.Admits p κ G) : rewarding.Admits (onTreasury p) κ G := by
  induction p generalizing κ with
  | done r => exact h
  | await c k ih => exact ⟨h.1, fun r κ' hleads => ih r (h.2 r κ' hleads)⟩

/-- Calls of the services of rewards and referrals. -/
def RewardOp.apart : RewardOp → Prop
  | .service c => Apart c
  | _ => True

lemma apart_date : date.All RewardOp.apart := all_perform (by rfl)

lemma apart_ask {op : RewardOp} (h : op.apart) : (ask op).All RewardOp.apart := all_perform h

lemma apart_findVisible {owner : Principal} {id : String} :
    (ReferralsService.findVisible owner id).All RewardOp.apart := by
  refine all_bind (apart_ask trivial) fun referral => ?_
  cases referral with
  | none => exact all_throw _
  | some referral =>
    dsimp only
    split_ifs
    · exact all_pure _
    · exact all_throw _

lemma apart_request (q : RewardRequest) : q.program.All RewardOp.apart := by
  cases q with
  | create dto => exact all_bind (apart_ask trivial) fun _ => all_pure _
  | mint id =>
    exact all_bind (all_bind apart_date fun _ => apart_ask trivial) fun _ => all_pure _
  | reverse id =>
    exact all_bind (all_bind apart_date fun _ => apart_ask trivial) fun _ => all_pure _
  | invite owner code expiresAt => exact all_bind (apart_ask trivial) fun _ => all_pure _
  | accept owner code =>
    refine all_bind (all_bind (apart_ask trivial) fun referral => ?_) fun _ => all_pure _
    cases referral with
    | none => exact all_throw _
    | some referral =>
      dsimp only
      split_ifs
      · exact all_throw _
      · exact all_throw _
      · refine all_bind apart_date fun now => ?_
        split_ifs
        · exact all_throw _
        · exact apart_ask trivial
  | qualify owner id firstTransactionId =>
    refine all_bind (all_bind apart_findVisible fun referral => ?_) fun _ => all_pure _
    cases referral.invitedUserId with
    | none => exact all_throw _
    | some invitedUserId =>
      refine all_bind (apart_ask trivial) fun transaction => ?_
      split_ifs
      · exact all_bind apart_date fun _ => apart_ask trivial
      · exact all_throw _
  | reward owner id =>
    refine all_bind (all_bind apart_findVisible fun referral => ?_) fun _ => all_pure _
    split_ifs
    · exact all_throw _
    · exact all_bind apart_date fun _ => all_bind apart_date fun _ => apart_ask trivial

/-- **Every task keeps to the script.** -/
theorem admits_task (q : Task) :
    rewarding.Admits (q.program js) (rewarding.start q) fun _ _ => True := by
  cases q with
  | api q => exact admits_onTreasury ((admits_asked q).mono fun _ _ _ => trivial)
  | request q =>
    refine admits_all (apart_request q) (fun _ => trivial) fun op hop => ?_
    cases op with
    | service c => exact steady_stays (κ := []) c (.inl hop)
    | _ => exact ⟨trivial, fun r κ' h => h⟩

end Admits

/-! ### The script keeps track of what was listed -/

section Rows

variable {e : Done} {id : String} {r : Reward} {status : RewardStatus}

/-- A row has kept its status, or it was written. -/
lemma status_written (hr : r.id = id) : (e.op.written e.found r).status = r.status ∨
    Writes e id (e.op.written e.found r).status := by
  rw [RewardOp.written]
  cases htarget : e.op.target e.found with
  | none => exact .inl rfl
  | some target =>
    obtain ⟨i, data⟩ := target
    dsimp only
    split_ifs with hi
    · cases hdata : data.status with
      | none => exact .inl (by rw [Reward.update, hdata]; rfl)
      | some next =>
        refine .inr ⟨data, by rw [htarget, ← hr, hi], ?_⟩
        rw [hdata, Reward.update, hdata]
        rfl
    · exact .inl rfl

/-- A status that is written is there. -/
lemma Writes.written (h : Writes e id status) (hr : r.id = id) :
    (e.op.written e.found r).status = status := by
  obtain ⟨data, htarget, hdata⟩ := h
  rw [RewardOp.written, htarget]
  dsimp only
  rw [if_pos hr, Reward.update, hdata]
  rfl

end Rows

/-- The row is pending, or the session `n` has missed how it got its status. -/
def Tracked (n : ℕ) (id : String) (w : Books) : Prop :=
  ∃ r, w.state.reward id = some r ∧ (r.status = .PENDING ∨ Missed n id r.status w.effects)

section Tracked

variable {n m : ℕ} {id : String} {op : RewardOp} {w w' : Books} {r : Except String op.Res}
  {κ : List String}

/-- A call keeps this, unless it is the session's own query. -/
lemma Tracked.happens (h : Tracked n id w) (hcall : Works (.call m op) w r w')
    (hop : m = n → ¬op.Lists) : Tracked n id w' := by
  obtain ⟨row, hrow, hstatus⟩ := h
  rcases Async.happens_call hcall with ⟨hstate, heffects⟩ | ⟨⟨v, hreturns⟩, heffects⟩
  · exact ⟨row, by rw [hstate, hrow], by rwa [heffects]⟩
  refine ⟨op.written w.state row, (rewrites_of_returns hreturns).rows id row hrow, ?_⟩
  rw [heffects, Missed, Async.missed_snoc]
  rcases status_written (e := ⟨m, op, w.state⟩) (id_of_reward hrow) with hsame | hwrites
  · rw [hsame]
    exact hstatus.imp_right fun hmissed => .inr ⟨hmissed, hop⟩
  · exact .inr (.inl hwrites)

lemma Tracked.congr (h : Tracked n id w) (hstate : w'.state.reward id = w.state.reward id)
    (heffects : w'.effects = w.effects) : Tracked n id w' := by
  rw [Tracked, hstate, heffects]
  exact h

/-- Every call but the query leaves a session where it is. -/
lemma leads_same (hop : ¬op.Lists) (r : Except String op.Res) : rewarding.leads κ op r κ := by
  cases op with
  | service c =>
    obtain ⟨source, op⟩ := c
    cases op with
    | findPendingRewards transactionId => exact absurd trivial hop
    | _ => rfl
  | _ => rfl

end Tracked

/-- The rows are unique, and the sessions keep track of those that they have listed. -/
structure Tracking (w : Books) (f : Multiset (Option (ℕ × List String))) : Prop where
  unique : Unique w.state.backend.rewards
  tracked : ∀ n κ, some (n, κ) ∈ f → ∀ id ∈ κ, Tracked n id w

section Tracking

variable {w w' : Books} {f : Multiset (Option (ℕ × List String))} {n : ℕ} {κ : List String}

lemma Tracking.cons (h : Tracking w f) (hκ : ∀ id ∈ κ, Tracked n id w) :
    Tracking w (some (n, κ) ::ₘ f) where
  unique := h.unique
  tracked m κ' hmem := by
    rcases Multiset.mem_cons.mp hmem with heq | hmem
    · cases heq
      exact hκ
    · exact h.tracked m κ' hmem

lemma Tracking.sub {ℓ : Option (ℕ × List String)} (h : Tracking w (ℓ ::ₘ f)) : Tracking w f where
  unique := h.unique
  tracked m κ' hmem := h.tracked m κ' (Multiset.mem_cons_of_mem hmem)

lemma Tracking.idle (h : Tracking w f) : Tracking w (none ::ₘ f) where
  unique := h.unique
  tracked m κ' hmem := by
    rcases Multiset.mem_cons.mp hmem with heq | hmem
    · cases heq
    · exact h.tracked m κ' hmem

lemma Tracking.congr (h : Tracking w f) (hunique : Unique w'.state.backend.rewards)
    (hstate : ∀ id, w'.state.reward id = w.state.reward id) (heffects : w'.effects = w.effects) :
    Tracking w' f where
  unique := hunique
  tracked m κ hmem id hid := (h.tracked m κ hmem id hid).congr (hstate id) heffects

end Tracking

abbrev anyReply (e : Working) (_ : Books) (_ : Except String (Working.Res e)) : Prop := True

lemma unique_happens {n : ℕ} {op : RewardOp} {w w' : Books} {r : Except String op.Res}
    (h : Works (.call n op) w r w') (hunique : Unique w.state.backend.rewards) :
    Unique w'.state.backend.rewards := by
  rcases Async.happens_call h with ⟨hstate, -⟩ | ⟨⟨v, hreturns⟩, -⟩
  · rwa [hstate]
  · exact (rewrites_of_returns hreturns).unique hunique

lemma tracking_keeps : rewarding.Keeps TreasuryReturns TreasuryTotal (fun _ => False) (β := Unit)
    anyReply Tracking fun _ _ _ => True where
  own _ _ _ _ _ _ := trivial
  begin n q w f r w' hbase hentries heffects hallowed hhappens := by
    obtain ⟨-, -, rfl⟩ := hhappens
    refine ⟨Tracking.cons ?_ fun id hid => absurd hid List.not_mem_nil, trivial⟩
    exact hbase.sub.congr hbase.unique (fun _ => rfl) rfl
  finish n κ a w f r w' hinv hmine hallowed hhappens := by
    obtain ⟨-, rfl⟩ := hhappens
    exact Tracking.idle (hinv.base.sub.congr hinv.base.unique (fun _ => rfl) rfl)
  call n κ op w f r w' hmay hinv hmine hallowed hhappens := by
    have hothers : Tracking w' f := by
      refine ⟨unique_happens hhappens hinv.base.unique, fun m κ' hmem id hid => ?_⟩
      have hne : n ≠ m := hinv.number_ne rfl hmem rfl
      exact (hinv.base.tracked m κ' (Multiset.mem_cons_of_mem hmem) id hid).happens hhappens
        fun heq => absurd heq hne
    by_cases hop : op.Lists
    swap
    · refine ⟨κ, leads_same hop r, hothers.cons fun id hid => ?_, trivial⟩
      exact (hinv.base.tracked n κ (Multiset.mem_cons_self ..) id hid).happens hhappens fun _ => hop
    cases op with
    | service c =>
      obtain ⟨source, op⟩ := c
      cases op with
      | findPendingRewards transactionId =>
        cases r with
        | error e => exact ⟨[], rfl, hothers.cons fun id hid => absurd hid List.not_mem_nil, trivial⟩
        | ok rows =>
          refine ⟨_, rfl, hothers.cons fun id hid => ?_, trivial⟩
          obtain ⟨p, hp, rfl⟩ := List.mem_map.mp hid
          obtain ⟨-, hreturns, -⟩ := hhappens
          obtain ⟨hrow, hpending⟩ := pending_of_returns hinv.base.unique hreturns hp
          exact ⟨p.reward, (rewrites_of_returns hreturns).rows _ _ hrow, .inl hpending⟩
      | _ => exact hop.elim
    | _ => exact hop.elim

lemma Unique.perm {rewards rewards' : List Reward} (h : Unique rewards)
    (hperm : rewards'.Perm rewards) : Unique rewards' where
  id := ((hperm.map _).nodup_iff).mpr h.id
  stellarMintHash := ((hperm.filterMap _).nodup_iff).mpr h.stellarMintHash
  transactionReason := ((hperm.filterMap _).nodup_iff).mpr h.transactionReason

theorem tracking_governs {js : Js} :
    Async.Governs ((rewarding.protocol anyReply Tracking fun _ _ _ => True).discipline TreasuryReturns
      TreasuryTotal (fun _ => False)) (Async.sessions TreasuryReturns TreasuryTotal (fun _ => False)
        (Task.program js) Treasury.Opened Treasury.Other anyWork) := by
  refine tracking_keeps.governs ?_ ?_ ?_ (fun _ _ _ _ _ => trivial) admits_task
  · rintro w hopened - -
    exact ⟨hopened.rewards, fun n κ hmem => absurd hmem (Multiset.notMem_zero _)⟩
  · exact fun w f h => h.idle
  · intro w w' f _ heffects hother h
    exact h.congr (h.unique.perm hother.rewards) (fun id => reward_other hother h.unique) heffects

/-! ### Runs -/

section Runs

variable {js : Js} {s s' t : TreasuryState} {tr : List TreasuryMove}
  {l : Async.Label Working (Event.Res RewardOp.Res) String}

/-- The processor writes what it has listed, and a row that it has listed is tracked. -/
lemma tracked_of_call (h : (treasury js anyWork).Reachable s) {n : ℕ} {c : Request}
    {k : Except String c.Res → TaskInProgress} {rest : Multiset TaskInProgress}
    (hs : s.threads = .await (.call n (.service c)) k ::ₘ rest) {id : String} {data : RewardData}
    (hop : c.op = .updateReward id data) : Tracked n id s.world ∧ Final data := by
  obtain ⟨κ, f, hmay, hinv⟩ := Async.Script.place_of_call tracking_governs h hs
  obtain ⟨source, op⟩ := c
  obtain rfl : op = .updateReward id data := hop
  exact ⟨hinv.base.tracked n κ (Multiset.mem_cons_self ..) id hmay.1, hmay.2⟩

lemma unique_of_reachable (h : (treasury js anyWork).Reachable s) :
    Unique s.world.state.backend.rewards := by
  obtain ⟨f, -, hinv⟩ := Async.reachable_sound tracking_governs h
  exact hinv.base.unique

lemma Goes.refl {mints : List (String × String)} (r : Reward) : Goes mints r r :=
  ⟨.inl, .inl, id, fun _ h _ => h⟩

/-- Nothing becomes of a row that is not the target. -/
lemma written_of_none {op : RewardOp} {d : Treasury} (h : op.target d = none) (r : Reward) :
    op.written d r = r := by
  rw [RewardOp.written, h]

lemma written_of_ne {op : RewardOp} {d : Treasury} {i : String} {data : RewardData}
    (h : op.target d = some (i, data)) {r : Reward} (hr : r.id ≠ i) : op.written d r = r := by
  rw [RewardOp.written, h]
  exact if_neg hr

lemma written_target {op : RewardOp} {d : Treasury} {data : RewardData} {r : Reward}
    (h : op.target d = some (r.id, data)) : op.written d r = r.update data := by
  rw [RewardOp.written, h]
  exact if_pos rfl

section Updates

variable {mints : List (String × String)} {r : Reward} {data : RewardData} {status : RewardStatus}

lemma status_update (h : data.status = some status) : (r.update data).status = status := by
  rw [Reward.update, h]
  rfl

/-- An update of the status that the row has, from `PENDING`, or to `REVERSED`, which does not touch the
hash of a mint on chain. -/
lemma goes_update (hdata : data.status = some status)
    (hstatus : status = r.status ∨ status = .REVERSED ∨ r.status = .PENDING)
    (hhash : ∀ hash, r.stellarMintHash = some hash → (r.id, hash) ∈ mints →
      data.stellarMintHash.getD r.stellarMintHash = some hash) : Goes mints r (r.update data) where
  minted h := by
    rw [status_update hdata] at h
    rcases hstatus with heq | heq | hpending
    · exact .inl (heq ▸ h)
    · rw [heq] at h
      cases h
    · exact .inr hpending
  failed h := by
    rw [status_update hdata] at h
    rcases hstatus with heq | heq | hpending
    · exact .inl (heq ▸ h)
    · rw [heq] at h
      cases h
    · exact .inr hpending
  reversed h := by
    rw [status_update hdata]
    rcases hstatus with heq | heq | hpending
    · exact heq.trans h
    · exact heq
    · rw [h] at hpending
      cases hpending
  hash := hhash

end Updates

/-- What a call does to a row that it does not find at the wrong time. -/
lemma goes_of_call (hreach : (treasury js anyWork).Reachable s) {n : ℕ} {op : RewardOp}
    {k : Except String op.Res → TaskInProgress} {rest : Multiset TaskInProgress}
    (hs : s.threads = .await (.call n op) k ::ₘ rest)
    (hnot : ¬Misplaced s.world.effects ⟨n, op, s.world.state⟩) {id : String} {r : Reward}
    (hr : s.world.state.reward id = some r) :
    Goes s.world.state.mints r (op.written s.world.state r) := by
  cases htarget : op.target s.world.state with
  | none =>
    rw [written_of_none htarget]
    exact .refl r
  | some target =>
    obtain ⟨i, data⟩ := target
    by_cases hi : r.id = i
    swap
    · rw [written_of_ne htarget hi]
      exact .refl r
    obtain rfl := id_of_reward hr
    subst hi
    rw [written_target htarget]
    cases op with
    | service c =>
      obtain ⟨source, op⟩ := c
      cases op with
      | updateReward i data' =>
        cases htarget
        obtain ⟨⟨r', hr', htracked⟩, hfinal⟩ := tracked_of_call hreach hs rfl
        obtain rfl := Option.some.inj (hr.symm.trans hr')
        obtain ⟨status, hdata⟩ : ∃ status, data.status = some status := by
          rcases hfinal.1 with h | h
          · exact ⟨_, h⟩
          · exact ⟨_, h⟩
        refine goes_update hdata ?_ fun hash hhash hmem => ?_
        · rcases htracked with hpending | hmissed
          · exact .inr (.inr hpending)
          · left
            by_contra hne
            refine hnot ⟨r.id, data, rfl, .inl ⟨r.status, hmissed, fun heq => hne ?_⟩⟩
            exact Option.some.inj (hdata.symm.trans heq)
        · by_contra hne
          refine hnot ⟨r.id, data, rfl, .inr ⟨r, hash, hr, ⟨hhash, hmem⟩, fun heq => hne ?_⟩⟩
          rw [heq]
          rfl
      | _ => cases htarget
    | mint i mintedAt =>
      cases htarget
      have hok : r.status ≠ .FAILED ∧ r.status ≠ .REVERSED ∧ ∀ hash, ¬Stores s.world.state r hash :=
        ⟨fun h => hnot ⟨r, hr, .inl h⟩, fun h => hnot ⟨r, hr, .inr (.inl h)⟩,
          fun hash h => hnot ⟨r, hr, .inr (.inr ⟨hash, h⟩)⟩⟩
      refine goes_update rfl ?_ fun hash hhash hmem => absurd ⟨hhash, hmem⟩ (hok.2.2 hash)
      cases hstatus : r.status with
      | PENDING => exact .inr (.inr rfl)
      | MINTED => exact .inl rfl
      | FAILED => exact absurd hstatus hok.1
      | REVERSED => exact .inr (.inl (absurd hstatus hok.2.1))
    | reverse i reversedAt =>
      cases htarget
      exact goes_update rfl (.inr (.inl rfl)) fun hash hhash _ => hhash
    | rewardReferral referral mintedAt rewardedAt =>
      obtain ⟨r', hfound, heq⟩ := Option.map_eq_some_iff.mp htarget
      obtain ⟨hid, rfl⟩ := Prod.mk.inj heq
      have hr' : r' = r := by
        have hunique := unique_of_reachable hreach
        have hrow := reward_of_mem hunique (List.mem_of_find?_eq_some hfound)
        rw [hid, hr] at hrow
        exact (Option.some.inj hrow).symm
      subst hr'
      refine goes_update rfl ?_ fun hash hhash _ => hhash
      cases hstatus : r'.status with
      | PENDING => exact .inr (.inr rfl)
      | MINTED => exact .inl rfl
      | FAILED => exact absurd ⟨r', hfound, .inl hstatus⟩ hnot
      | REVERSED => exact absurd ⟨r', hfound, .inr hstatus⟩ hnot
    | _ => cases htarget

/-- Statuses that were written are never `PENDING`, and they stay until the row is reversed. -/
def Settled (w : Books) : Prop :=
  ∀ e ∈ w.effects, ∀ id status, Writes e id status → status ≠ .PENDING ∧
    ∃ r, w.state.reward id = some r ∧ (r.status = status ∨ r.status = .REVERSED)

/-- No call writes `PENDING`. -/
lemma pending_not_written (hreach : (treasury js anyWork).Reachable s) {n : ℕ} {op : RewardOp}
    {k : Except String op.Res → TaskInProgress} {rest : Multiset TaskInProgress}
    (hs : s.threads = .await (.call n op) k ::ₘ rest) {id : String} {status : RewardStatus}
    (h : Writes ⟨n, op, s.world.state⟩ id status) : status ≠ .PENDING := by
  obtain ⟨data, htarget, hdata⟩ := h
  cases op with
  | service c =>
    obtain ⟨source, op⟩ := c
    cases op with
    | updateReward i data' =>
      cases htarget
      obtain ⟨-, hfinal, -⟩ := tracked_of_call hreach hs rfl
      rintro rfl
      rw [hdata] at hfinal
      rcases hfinal with h | h
      · cases h
      · cases h
    | _ => cases htarget
  | mint i mintedAt =>
    cases htarget
    cases hdata
    decide
  | reverse i reversedAt =>
    cases htarget
    cases hdata
    decide
  | rewardReferral referral mintedAt rewardedAt =>
    obtain ⟨r, -, heq⟩ := Option.map_eq_some_iff.mp htarget
    cases heq
    cases hdata
    decide
  | _ => cases htarget

/-- A status that is not `PENDING` stays, or is reversed. -/
lemma Goes.stays {mints : List (String × String)} {r r' : Reward} {status : RewardStatus}
    (h : Goes mints r r') (hpending : r'.status ≠ .PENDING ∨ r'.status = r.status)
    (hstatus : status ≠ .PENDING) (hr : r.status = status ∨ r.status = .REVERSED) :
    r'.status = status ∨ r'.status = .REVERSED := by
  rcases hr with rfl | hreversed
  · cases hr' : r'.status with
    | PENDING =>
      rcases hpending with hne | hsame
      · exact absurd hr' hne
      · rw [← hsame, hr'] at hstatus
        exact absurd rfl hstatus
    | MINTED => exact .inl ((h.minted hr').resolve_right hstatus).symm
    | FAILED => exact .inl ((h.failed hr').resolve_right hstatus).symm
    | REVERSED => exact .inr rfl
  · exact .inr (h.reversed hreversed)

/-- A call in a lawful step. -/
lemma Settled.call (h : Settled s.world) (hreach : (treasury js anyWork).Reachable s) {n : ℕ}
    {op : RewardOp} {k : Except String op.Res → TaskInProgress} {rest : Multiset TaskInProgress}
    (hs : s.threads = .await (.call n op) k ::ₘ rest) {v : op.Res}
    (hreturns : TreasuryReturns op s.world.state v t.world.state)
    (heffects : t.world.effects = s.world.effects ++ [⟨n, op, s.world.state⟩])
    (hlawful : Lawful s.world.state t.world.state) : Settled t.world := by
  have hrewrites := rewrites_of_returns hreturns
  intro e he id status hwrites
  rw [heffects] at he
  rcases List.mem_append.mp he with he | he
  · obtain ⟨hstatus, r, hr, hrow⟩ := h e he id status hwrites
    obtain ⟨r', hr', hgoes⟩ := hlawful id r hr
    refine ⟨hstatus, r', hr', hgoes.stays ?_ hstatus hrow⟩
    obtain rfl := Option.some.inj ((hrewrites.rows id r hr).symm.trans hr')
    rcases status_written (e := ⟨n, op, s.world.state⟩) (id_of_reward hr) with hsame | hnew
    · exact .inr hsame
    · exact .inl (pending_not_written hreach hs hnew)
  · obtain rfl := List.mem_singleton.mp he
    refine ⟨pending_not_written hreach hs hwrites, ?_⟩
    have htarget := hwrites
    obtain ⟨data, htarget, -⟩ := htarget
    obtain ⟨r, hr⟩ := Option.isSome_iff_exists.mp (hrewrites.target id data htarget)
    exact ⟨_, hrewrites.rows id r hr, .inl (hwrites.written (id_of_reward hr))⟩

/-- A lawful step does not come at the wrong time. -/
lemma not_misplaced_of_lawful (hreach : (treasury js anyWork).Reachable s) {n : ℕ} {op : RewardOp}
    {k : Except String op.Res → TaskInProgress} {rest : Multiset TaskInProgress}
    (hs : s.threads = .await (.call n op) k ::ₘ rest) {v : op.Res}
    (hreturns : TreasuryReturns op s.world.state v t.world.state) (hsettled : Settled s.world)
    (hlawful : Lawful s.world.state t.world.state) :
    ¬Misplaced s.world.effects ⟨n, op, s.world.state⟩ := by
  have hrewrites := rewrites_of_returns hreturns
  -- what becomes of the target
  have hgoes {r : Reward} {data : RewardData} (hr : s.world.state.reward r.id = some r)
      (htarget : op.target s.world.state = some (r.id, data)) :
      Goes s.world.state.mints r (r.update data) := by
    obtain ⟨r', hr', hgoes⟩ := hlawful r.id r hr
    have hrow := hrewrites.rows r.id r hr
    rw [written_target htarget] at hrow
    obtain rfl := Option.some.inj (hrow.symm.trans hr')
    exact hgoes
  intro hmisplaced
  cases op with
  | service c =>
    obtain ⟨id, data, hop, hwrong⟩ := hmisplaced
    obtain ⟨htracked, hfinal⟩ := tracked_of_call hreach hs hop
    obtain ⟨source, op⟩ := c
    obtain rfl : op = .updateReward id data := hop
    obtain ⟨r, hr, -⟩ := htracked
    obtain rfl := id_of_reward hr
    have hrow := hgoes hr rfl
    rcases hwrong with ⟨status, hmissed, hne⟩ | ⟨r', hash, hr', hstores, hne⟩
    · obtain ⟨e, he, hwrites⟩ := hmissed.exists_mem
      obtain ⟨hpending, r', hr', hstatus⟩ := hsettled e he _ status hwrites
      obtain rfl := Option.some.inj (hr.symm.trans hr')
      obtain ⟨next, hdata, hfinal⟩ : ∃ next, data.status = some next ∧
          (next = .MINTED ∨ next = .FAILED) := by
        rcases hfinal.1 with h | h
        · exact ⟨_, h, .inl rfl⟩
        · exact ⟨_, h, .inr rfl⟩
      have hnext : next ≠ .PENDING ∧ next ≠ .REVERSED := by
        rcases hfinal with rfl | rfl
        · decide
        · decide
      have hback := hrow.stays (.inl (by rw [status_update hdata]; exact hnext.1)) hpending hstatus
      rw [status_update hdata] at hback
      rcases hback with rfl | hreversed
      · exact hne hdata
      · exact hnext.2 hreversed
    · obtain rfl := Option.some.inj (hr.symm.trans hr')
      have hkept := hrow.hash hash hstores.1 hstores.2
      obtain ⟨hash', hdata⟩ := Option.isSome_iff_exists.mp hfinal.2
      rw [Reward.update, hdata] at hkept
      rw [hdata] at hne
      exact hne (congrArg some hkept)
  | mint i mintedAt =>
    obtain ⟨r, hr, hwrong⟩ := hmisplaced
    obtain rfl := id_of_reward hr
    have hrow := hgoes hr rfl
    rcases hwrong with hfailed | hreversed | ⟨hash, hhash, hmem⟩
    · rcases hrow.minted rfl with h | h
      · exact absurd (hfailed.symm.trans h) (by decide)
      · exact absurd (hfailed.symm.trans h) (by decide)
    · cases hrow.reversed hreversed
    · cases hrow.hash hash hhash hmem
  | rewardReferral referral mintedAt rewardedAt =>
    obtain ⟨r, hfound, hwrong⟩ := hmisplaced
    have hr := reward_of_mem (unique_of_reachable hreach) (List.mem_of_find?_eq_some hfound)
    have htarget : RewardOp.target s.world.state (.rewardReferral referral mintedAt rewardedAt) =
        some (r.id, { status := some .MINTED }) := by
      have hsome : s.world.state.rewardOf referral.id = some r := hfound
      rw [RewardOp.target, hsome]
      rfl
    have hrow := hgoes hr htarget
    rcases hwrong with hfailed | hreversed
    · rcases hrow.minted rfl with h | h
      · exact absurd (hfailed.symm.trans h) (by decide)
      · exact absurd (hfailed.symm.trans h) (by decide)
    · cases hrow.reversed hreversed
  | _ => exact hmisplaced

lemma lawful_of_eq {d d' : Treasury} (h : ∀ id, d'.reward id = d.reward id) : Lawful d d' :=
  fun id r hr => ⟨r, (h id).trans hr, .refl r⟩

/-- A step in which no call takes effect. -/
lemma reward_quiet (hreach : (treasury js anyWork).Reachable s)
    (h : t.world.state = s.world.state ∨ Treasury.Other s.world.state t.world.state) (id : String) :
    t.world.state.reward id = s.world.state.reward id := by
  rcases h with heq | hother
  · rw [heq]
  · exact reward_other hother (unique_of_reachable hreach)

lemma Settled.quiet (h : Settled s.world) (heffects : t.world.effects = s.world.effects)
    (hstate : ∀ id, t.world.state.reward id = s.world.state.reward id) : Settled t.world := by
  intro e he id status hwrites
  rw [heffects] at he
  rw [hstate]
  exact h e he id status hwrites

/-- A step is lawful if and only if what it adds to the journal does not come at the wrong time. -/
lemma lawful_step (hreach : (treasury js anyWork).Reachable s)
    (hstep : (treasury js anyWork).Step s l t) (hsettled : Settled s.world)
    (hnot : ¬Disturbed s.world.effects) :
    (Lawful s.world.state t.world.state ↔ ¬Disturbed t.world.effects) ∧
      (Lawful s.world.state t.world.state → Settled t.world) := by
  rcases Async.effect_step hstep with ⟨heffects, hstate⟩ | ⟨n, op, k, rest, hs, ⟨v, hreturns⟩, heffects⟩
  · have hrow := reward_quiet hreach hstate
    rw [heffects]
    exact ⟨iff_of_true (lawful_of_eq hrow) hnot, fun _ => hsettled.quiet heffects hrow⟩
  · refine ⟨⟨fun hlawful => ?_, fun hnot' id r hr => ?_⟩, hsettled.call hreach hs hreturns heffects⟩
    · rw [heffects, disturbed_snoc]
      exact not_or.mpr ⟨hnot, not_misplaced_of_lawful hreach hs hreturns hsettled hlawful⟩
    · rw [heffects, disturbed_snoc] at hnot'
      exact ⟨_, (rewrites_of_returns hreturns).rows id r hr,
        goes_of_call hreach hs (fun h => hnot' (.inr h)) hr⟩

lemma disturbed_mono (hstep : (treasury js anyWork).Step s l t) (h : Disturbed s.world.effects) :
    Disturbed t.world.effects := by
  rcases Async.effect_step hstep with ⟨heffects, -⟩ | ⟨n, op, k, rest, -, -, heffects⟩
  · rwa [heffects]
  · rw [heffects, disturbed_snoc]
    exact .inl h

/-- While the lifecycle is kept, what was written is settled. -/
lemma lifecycle_run (hinit : (treasury js anyWork).Init s) (hrun : (treasury js anyWork).Run s tr s') :
    (Lifecycle tr ↔ ¬Disturbed s'.world.effects) ∧ (Lifecycle tr → Settled s'.world) := by
  refine hrun.invariant (P := fun tr s => (Lifecycle tr ↔ ¬Disturbed s.world.effects) ∧
    (Lifecycle tr → Settled s.world)) hinit ?_ ?_
  · rw [Disturbed, Settled, hinit.1.2.2]
    refine ⟨iff_of_true (by simp [Lifecycle]) ?_, by simp⟩
    rintro ⟨l₁, e, l₂, heq, -⟩
    simp at heq
  · rintro tr t l u hreach ⟨hiff, hsettled⟩ hstep
    have hsplit : Lifecycle (tr ++ [⟨t, l, u⟩]) ↔
        Lifecycle tr ∧ Lawful t.world.state u.world.state := by
      simp [Lifecycle, or_imp, forall_and]
    rw [hsplit]
    by_cases hlife : Lifecycle tr
    · have hnot := hiff.mp hlife
      obtain ⟨hstepiff, hsettled'⟩ := lawful_step hreach hstep (hsettled hlife) hnot
      exact ⟨(and_iff_right hlife).trans hstepiff, fun h => hsettled' h.2⟩
    · refine ⟨iff_of_false (fun h => hlife h.1) fun hnot => hlife (hiff.mpr fun h => hnot ?_),
        fun h => absurd h.1 hlife⟩
      exact disturbed_mono hstep h

end Runs

/-- **The lifecycle of rewards is kept** if and only if no call comes at the wrong time. -/
theorem lifecycle_iff {js : Js} {s s' : TreasuryState} {tr : List TreasuryMove}
    (hinit : (treasury js anyWork).Init s) (hrun : (treasury js anyWork).Run s tr s') :
    Lifecycle tr ↔ ¬Disturbed s'.world.effects :=
  (lifecycle_run hinit hrun).1

/-! ### An admin mints a reward that was reversed -/

lemma Lifecycle.init {tr : List TreasuryMove} {m : TreasuryMove} (h : Lifecycle (tr ++ [m])) :
    Lifecycle tr := fun m hm => h m (List.mem_append_left _ hm)

lemma Lifecycle.right {tr tr' : List TreasuryMove} (h : Lifecycle (tr' ++ tr)) : Lifecycle tr :=
  fun m hm => h m (List.mem_append_right _ hm)

lemma Lifecycle.stays_reversed {js : Js} {s s' : TreasuryState} {tr : List TreasuryMove}
    (h : Lifecycle tr) (hrun : (treasury js anyWork).Run s tr s') {id : String}
    (hr : (s.world.state.reward id).map (·.status) = some .REVERSED) :
    (s'.world.state.reward id).map (·.status) = some .REVERSED := by
  induction hrun with
  | nil => exact hr
  | @snoc t u tr l hrun hstep ih =>
    obtain ⟨r, hr', hreversed⟩ := Option.map_eq_some_iff.mp (ih h.init)
    obtain ⟨r', hr'', hgoes⟩ := h ⟨t, l, u⟩ (by simp) id r hr'
    exact Option.map_eq_some_iff.mpr ⟨r', hr'', hgoes.reversed hreversed⟩

namespace PlayedTasks

/-- The first events of one more session. -/
def asked (n : ℕ) (q : Task) (k : ℕ) (w : Books) : TaskInProgress × Books :=
  (Async.session n q (q.program OneOrder.js)).runFor (Async.journalled reply) k w

section Asked

variable {n : ℕ} {q : Task} (k : ℕ) {w : Books} {threads : Multiset TaskInProgress}

lemma run_asked (h : (Async.session n q (q.program OneOrder.js)).checkFor (Async.journalled reply)
    (fun e w _ => Async.unused e w) k w) :
    ∃ tr, (treasury OneOrder.js anyWork).Run ⟨w, threads⟩ tr
      ⟨(asked n q k w).2, (asked n q k w).1 ::ₘ threads⟩ := by
  have hplay : ∃ tr, (treasury OneOrder.js anyWork).Run
      ⟨w, Async.session n q (q.program OneOrder.js) ::ₘ threads⟩ tr
      ⟨(asked n q k w).2, (asked n q k w).1 ::ₘ threads⟩ :=
    Async.run_journalled played_reply (fun _ _ _ h => ⟨h, trivial⟩) h
  obtain ⟨tr, hrun⟩ := hplay
  have hstart : (treasury OneOrder.js anyWork).Step ⟨w, threads⟩
      (.start (Async.session n q (q.program OneOrder.js)))
      ⟨w, Async.session n q (q.program OneOrder.js) ::ₘ threads⟩ := ⟨⟨n, q, rfl⟩, rfl, rfl⟩
  exact ⟨_, (Transition.System.Run.single hstart).append hrun⟩

end Asked

def opening : Books where
  state := { backend := OneOrder.opened.state }

lemma opening_init : (treasury OneOrder.js anyWork).Init ⟨opening, 0⟩ :=
  ⟨⟨⟨⟨rfl, rfl, rfl, rfl⟩, by decide, by decide⟩, rfl, rfl⟩, rfl⟩

def manual : CreateRewardDto where
  userId := "customer"
  transactionId := none
  referralId := none
  reason := .CAMPAIGN
  starAmount := 10
  status := none
  formulaVersion := none

/-- A reward is created and reversed. -/
def created : TaskInProgress × Books := asked 0 (.request (.create manual)) 3 opening

def reversed : TaskInProgress × Books := asked 1 (.request (.reverse "u")) 4 created.2

/-- Then it is minted. -/
def reminted : TaskInProgress × Books := asked 2 (.request (.mint "u")) 4 reversed.2

/-- A payment is ordered and processed until its reward is minted on chain. -/
def ordered : TaskInProgress × Books := asked 0 (.api (.create OneOrder.customer OneOrder.order)) 14 opening

def processed : TaskInProgress × Books := asked 1 (.api .tick) 42 ordered.2

/-- The reward is reversed by an admin. -/
def refunded : TaskInProgress × Books := asked 2 (.request (.reverse "uuuuuuuu")) 4 processed.2

/-- The processor writes a reward. -/
def updates (e : Done) : Bool :=
  match e.op with
  | .service ⟨_, .updateReward _ _⟩ => true
  | _ => false

/-- Only the processor mints, and no row has a hash by then. -/
def early (e : Done) : Bool :=
  match e.op with
  | .mint _ _ | .rewardReferral _ _ _ => false
  | _ => !updates e || e.found.backend.rewards.all fun r => r.stellarMintHash.isNone

/-- The processor writes after something else was written. -/
def follows (e e' : Done) : Bool := (e.op.target e.found).isSome && updates e'

lemma not_disturbed {effects : List Done} (hfirst : effects.Pairwise fun e e' => follows e e' = false)
    (hearly : ∀ e ∈ effects, early e) : ¬Disturbed effects := by
  rintro ⟨l₁, ⟨n, op, d⟩, l₂, rfl, hmisplaced⟩
  have hop := hearly ⟨n, op, d⟩ (by simp)
  cases op with
  | service c =>
    obtain ⟨id, data, hc, hwrong⟩ := hmisplaced
    obtain ⟨source, op⟩ := c
    obtain rfl : op = .updateReward id data := hc
    rcases hwrong with ⟨status, hmissed, -⟩ | ⟨r, hash, hr, ⟨hstored, -⟩, -⟩
    · obtain ⟨e, he, data', htarget, -⟩ := hmissed.exists_mem
      have hpair := (List.pairwise_append.mp hfirst).2.2 e he _ (List.mem_cons_self ..)
      rw [follows, htarget] at hpair
      cases hpair
    · have hnone := List.all_eq_true.mp hop r (mem_of_reward hr)
      rw [hstored] at hnone
      cases hnone
  | mint => cases hop
  | rewardReferral => cases hop
  | _ => exact hmisplaced

end PlayedTasks

/-- A payment's reward is minted on chain, and reversed later. -/
theorem lifecycle_iff_of_refunded : ∃ (js : Js) (s s' : TreasuryState) (tr : List TreasuryMove),
    (treasury js anyWork).Init s ∧ (treasury js anyWork).Run s tr s' ∧
      (s'.world.state.reward "uuuuuuuu").map (fun r => (r.status, r.stellarMintHash)) =
        some (.REVERSED, some "hash") ∧ Lifecycle tr := by
  have hordered : ∃ tr, (treasury OneOrder.js anyWork).Run ⟨PlayedTasks.opening, 0⟩ tr
      ⟨PlayedTasks.ordered.2, {PlayedTasks.ordered.1}⟩ := PlayedTasks.run_asked 14 (by decide +kernel)
  have hprocessed : ∃ tr, (treasury OneOrder.js anyWork).Run
      ⟨PlayedTasks.ordered.2, {PlayedTasks.ordered.1}⟩ tr
      ⟨PlayedTasks.processed.2, _⟩ := PlayedTasks.run_asked 42 (by decide +kernel)
  have hrefunded : ∃ tr, (treasury OneOrder.js anyWork).Run
      ⟨PlayedTasks.processed.2, PlayedTasks.processed.1 ::ₘ {PlayedTasks.ordered.1}⟩ tr
      ⟨PlayedTasks.refunded.2, _⟩ := PlayedTasks.run_asked 4 (by decide +kernel)
  obtain ⟨tr₁, hrun₁⟩ := hordered
  obtain ⟨tr₂, hrun₂⟩ := hprocessed
  obtain ⟨tr₃, hrun₃⟩ := hrefunded
  have hrun := (hrun₁.append hrun₂).append hrun₃
  refine ⟨_, _, _, _, PlayedTasks.opening_init, hrun, by decide +kernel, ?_⟩
  exact (lifecycle_iff PlayedTasks.opening_init hrun).mpr
    (PlayedTasks.not_disturbed (by decide +kernel) (by decide +kernel))

/-- An admin mints a reward that was reversed. -/
theorem mint_revives : ∃ (js : Js) (s t s' : TreasuryState) (tr tr' : List TreasuryMove),
    (treasury js anyWork).Init s ∧ (treasury js anyWork).Run s tr t ∧
      (t.world.state.reward "u").map (·.status) = some .REVERSED ∧
        (treasury js anyWork).Run t tr' s' ∧
          (s'.world.state.reward "u").map (·.status) = some .MINTED ∧ ¬Lifecycle (tr ++ tr') := by
  have hcreated : ∃ tr, (treasury OneOrder.js anyWork).Run ⟨PlayedTasks.opening, 0⟩ tr
      ⟨PlayedTasks.created.2, {PlayedTasks.created.1}⟩ := PlayedTasks.run_asked 3 (by decide +kernel)
  have hreversed : ∃ tr, (treasury OneOrder.js anyWork).Run
      ⟨PlayedTasks.created.2, {PlayedTasks.created.1}⟩ tr
      ⟨PlayedTasks.reversed.2, _⟩ := PlayedTasks.run_asked 4 (by decide +kernel)
  have hminted : ∃ tr, (treasury OneOrder.js anyWork).Run
      ⟨PlayedTasks.reversed.2, PlayedTasks.reversed.1 ::ₘ {PlayedTasks.created.1}⟩ tr
      ⟨PlayedTasks.reminted.2, _⟩ := PlayedTasks.run_asked 4 (by decide +kernel)
  obtain ⟨tr₁, hrun₁⟩ := hcreated
  obtain ⟨tr₂, hrun₂⟩ := hreversed
  obtain ⟨tr₃, hrun₃⟩ := hminted
  have hbefore : (PlayedTasks.reversed.2.state.reward "u").map (·.status) = some .REVERSED := by
    decide +kernel
  have hafter : (PlayedTasks.reminted.2.state.reward "u").map (·.status) = some .MINTED := by
    decide +kernel
  refine ⟨_, _, _, _, _, _, PlayedTasks.opening_init, hrun₁.append hrun₂, hbefore, hrun₃, hafter,
    fun h => ?_⟩
  have hstays : (PlayedTasks.reminted.2.state.reward "u").map (·.status) = some .REVERSED :=
    h.right.stays_reversed hrun₃ hbefore
  rw [hafter] at hstays
  cases hstays

end PayEra.Api.Rewards
