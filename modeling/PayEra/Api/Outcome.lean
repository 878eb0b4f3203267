import PayEra.Api.Answers
import PayEra.Api.Playback

/-!
# What a payout decides

Once the payout of a transaction is accepted its row should not be driven to `FAILED` any more. The
code's `catch` block does so whenever a later call fails. Here the condition is worked out under
which it never happens, over whole runs with any number of threads.

Of the ghost states, an owner has created the payment on chain and has not been told of a payout, a
payer has, and a thread that is aborting is about to write `FAILED`.
-/

namespace PayEra.Api

open Async (Program Safe Discipline upon safe_pure safe_throw safe_bind safe_attempt safe_perform safe_forM)
open Async.Program

/-! ### Accepted payouts -/

/-- A payout for the transaction `id` that returned. -/
def paidOut (id : String) (e : Σ c : Request, Except String c.Res) : Bool :=
  e.1.op.isPayout id && e.2.isOk

/-- The processor writes the status `FAILED` of the transaction `id`. -/
def Request.writesFailed (id : String) (c : Request) : Bool :=
  decide (c.source = .run id) && match c.op with
    | .updateTransaction i data => decide (i = id ∧ data.status = some .FAILED)
    | _ => false

/-- No call after an accepted payout drives the row to `FAILED`. -/
def PayoutDecides (id : String) (w : World) : Prop :=
  w.calls.Pairwise fun e e' => paidOut id e → ¬e'.1.writesFailed id

instance (id : String) (w : World) : Decidable (PayoutDecides id w) :=
  inferInstanceAs (Decidable (List.Pairwise _ _))

/-- The payout of `id` was accepted. -/
def Accepted (id : String) (w : World) : Prop := ∃ e ∈ w.calls, paidOut id e

instance (id : String) (w : World) : Decidable (Accepted id w) :=
  inferInstanceAs (Decidable (∃ e ∈ w.calls, _))

/-- The calls whose failure the code catches on the spot. -/
def Request.caught (c : Request) : Prop :=
  match c.op with
  | .fetchUsdcRate | .issueStarReward _ => True
  | .updateReward id data => data.status = some .MINTED ∧
      data.stellarMintHash ≠ some (some ("db-only-no-wallet-" ++ id))
  | .updateTransaction _ data => data.status = none
  | _ => False

/-- An answer that a run can go on from: the call did not fail, and there is a spend reward. -/
def Request.goesWell (c : Request) (r : Except String c.Res) : Bool :=
  match c, r with
  | _, .error _ => false
  | ⟨_, .findSpendReward _⟩, .ok reward => (reward : Option Reward).isSome
  | _, .ok _ => true

lemma Request.not_goesWell_error (c : Request) (e : String) : ¬c.goesWell (.error e) := by
  rw [Request.goesWell]
  exact Bool.false_ne_true

/-- After the payout of a transaction every call of its runs goes well or is caught, and when the
payout is accepted no other run of the transaction is about to write `FAILED`. -/
def undisturbed : Condition := fun rest c w r => ∀ id,
  (Accepted id w → c.source = .run id → c.caught ∨ c.goesWell r) ∧
  (paidOut id ⟨c, r⟩ → ∀ p ∈ rest, ¬p.next.any (Request.writesFailed id))

/-! ### The discipline -/

inductive Stage where
  | idle
  | owner (id : String)
  | payer (id : String)
  | aborting (id : String)
  deriving DecidableEq

structure Outcome (w : World) (f : Multiset Stage) : Prop where
  decides : ∀ id, PayoutDecides id w
  recorded : ∀ id, Accepted id w → (w.state.payments id).isSome
  owned : ∀ id, f.count (.owner id) ≤ if (w.state.payments id).isSome then 1 else 0
  unpaid : ∀ id, Stage.owner id ∈ f → ¬Accepted id w
  pending : ∀ id, Stage.aborting id ∈ f → ¬Accepted id w
  paid : ∀ id, Stage.payer id ∈ f → Accepted id w

def outcome : Discipline World Request Request.Res String Stage where
  env := env
  inv := Outcome
  link ℓ c := (∀ id, c.writesFailed id → ℓ = .owner id ∨ ℓ = .aborting id) ∧
    ∀ id, ℓ = .aborting id → c.writesFailed id
  allowed f c w r := ∀ id, (Accepted id w → c.source = .run id → c.caught ∨ c.goesWell r) ∧
    (paidOut id ⟨c, r⟩ → Stage.aborting id ∉ f)
  halt ℓ := ∀ id, ℓ ≠ .aborting id

/-! ### Single calls -/

section Calls

variable {c : Request} {w w' : World} {r : Except String c.Res} {f : Multiset Stage} {ℓ ℓ' : Stage}

lemma accepted_env (henv : env c w r w') (id : String) :
    Accepted id w' ↔ Accepted id w ∨ paidOut id ⟨c, r⟩ := by
  simp only [Accepted, henv.1, List.mem_append, List.mem_singleton, or_and_right, exists_or,
    exists_eq_left]

/-- The ghost state of a thread may be given up for one that says no more. -/
lemma Outcome.replace (h : Outcome w (ℓ ::ₘ f)) (howner : ∀ id, ℓ' = .owner id → ℓ = .owner id)
    (hpending : ∀ id, ℓ' = .aborting id → ¬Accepted id w)
    (hpayer : ∀ id, ℓ' = .payer id → Accepted id w) : Outcome w (ℓ' ::ₘ f) := by
  have hcount : ∀ id, (ℓ' ::ₘ f).count (.owner id) ≤ (ℓ ::ₘ f).count (.owner id) := by
    intro id
    rw [Multiset.count_cons, Multiset.count_cons]
    by_cases hid : ℓ' = .owner id
    · rw [howner id hid, hid]
    · rw [if_neg fun h => hid h.symm]
      exact Nat.add_le_add_left (Nat.zero_le _) _
  refine ⟨h.decides, h.recorded, fun id => (hcount id).trans (h.owned id), fun id hid => ?_,
    fun id hid => ?_, fun id hid => ?_⟩
  · exact h.unpaid id (Multiset.count_pos.mp ((Multiset.count_pos.mpr hid).trans_le (hcount id)))
  · rcases Multiset.mem_cons.mp hid with heq | hid
    · exact hpending id heq.symm
    · exact h.pending id (Multiset.mem_cons_of_mem hid)
  · rcases Multiset.mem_cons.mp hid with heq | hid
    · exact hpayer id heq.symm
    · exact h.paid id (Multiset.mem_cons_of_mem hid)

lemma Outcome.toIdle (h : Outcome w (ℓ ::ₘ f)) : Outcome w (.idle ::ₘ f) := by
  refine h.replace ?_ ?_ ?_ <;> intro id hid <;> cases hid

lemma Outcome.toAborting {id : String} (h : Outcome w (ℓ ::ₘ f)) (hid : ¬Accepted id w) :
    Outcome w (.aborting id ::ₘ f) := by
  refine h.replace (fun i hi => by cases hi) (fun i hi => ?_) fun i hi => by cases hi
  cases hi
  exact hid

/-- Calls without a payout, and which write `FAILED` only where no payout was accepted. -/
lemma Outcome.call (h : Outcome w f) (henv : env c w r w') (hpay : ∀ id, ¬paidOut id ⟨c, r⟩)
    (hfail : ∀ id, c.writesFailed id → ¬Accepted id w) : Outcome w' f := by
  have haccepted : ∀ id, Accepted id w' ↔ Accepted id w := fun id => by
    rw [accepted_env henv, or_iff_left (hpay id)]
  have hgrow := env_paymentsGrow henv
  refine ⟨fun id => ?_, fun id hid => ?_, fun id => ?_, fun id hid => ?_, fun id hid => ?_,
    fun id hid => ?_⟩
  · rw [PayoutDecides, henv.1, List.pairwise_append]
    refine ⟨h.decides id, List.pairwise_singleton .., fun e he e' he' hpaid hwrite => ?_⟩
    obtain rfl := List.mem_singleton.mp he'
    exact hfail id hwrite ⟨e, he, hpaid⟩
  · exact hgrow id (h.recorded id ((haccepted id).mp hid))
  · exact (h.owned id).trans (bound_mono hgrow id)
  · rw [haccepted]
    exact h.unpaid id hid
  · rw [haccepted]
    exact h.pending id hid
  · rw [haccepted]
    exact h.paid id hid

/-- A payout is accepted for an owner, who is the only one. -/
lemma Outcome.pay {id : String} (h : Outcome w (.owner id ::ₘ f)) (henv : env c w r w')
    (hpay : ∀ i, paidOut i ⟨c, r⟩ → i = id) (haborting : Stage.aborting id ∉ f)
    (hfail : ∀ i, ¬c.writesFailed i) (hpaid : paidOut id ⟨c, r⟩) :
    Outcome w' (.payer id ::ₘ f) := by
  have haccepted : ∀ i, Accepted i w' ↔ Accepted i w ∨ i = id := fun i => by
    rw [accepted_env henv]
    refine or_congr_right ⟨hpay i, ?_⟩
    rintro rfl
    exact hpaid
  have hgrow := env_paymentsGrow henv
  obtain ⟨hrecord, hnone⟩ := alone_of_bound (h.owned id)
  refine ⟨fun i => ?_, fun i hi => ?_, fun i => ?_, fun i hi => ?_, fun i hi => ?_, fun i hi => ?_⟩
  · rw [PayoutDecides, henv.1, List.pairwise_append]
    refine ⟨h.decides i, List.pairwise_singleton .., fun e he e' he' _ => ?_⟩
    obtain rfl := List.mem_singleton.mp he'
    exact hfail i
  · rcases (haccepted i).mp hi with hi | rfl
    · exact hgrow i (h.recorded i hi)
    · exact hgrow i hrecord
  · refine le_trans ?_ ((h.owned i).trans (bound_mono hgrow i))
    rw [Multiset.count_cons_of_ne (by simp)]
    exact Multiset.count_le_count_cons ..
  · have hif : Stage.owner i ∈ f := by simpa using hi
    rw [haccepted]
    rintro (hi | rfl)
    · exact h.unpaid i (Multiset.mem_cons_of_mem hif) hi
    · exact hnone hif
  · have hif : Stage.aborting i ∈ f := by simpa using hi
    rw [haccepted]
    rintro (hi | rfl)
    · exact h.pending i (Multiset.mem_cons_of_mem hif) hi
    · exact haborting hif
  · rw [haccepted]
    rcases Multiset.mem_cons.mp hi with heq | hi
    · cases heq
      exact .inr rfl
    · exact .inl (h.paid i (Multiset.mem_cons_of_mem hi))

end Calls

/-! ### Programs that keep the ghost state -/

/-- Calls that neither pay a merchant nor write `FAILED` for the processor. -/
def Bland (c : Request) : Prop := ∀ id, c.op.isPayout id = false ∧ c.writesFailed id = false

lemma Bland.not_paidOut {c : Request} (h : Bland c) (r : Except String c.Res) (id : String) :
    ¬paidOut id ⟨c, r⟩ := by
  rw [paidOut, (h id).1]
  exact Bool.false_ne_true

lemma Bland.not_writesFailed {c : Request} (h : Bland c) (id : String) : ¬c.writesFailed id := by
  rw [(h id).2]
  exact Bool.false_ne_true

lemma Op.plain.bland {id : String} {op : Op} (h : op.plain id) : Bland ⟨.run id, op⟩ := by
  intro i
  cases op with
  | updateTransaction j data =>
    obtain ⟨-, -, hf⟩ := h
    exact ⟨rfl, by simp [Request.writesFailed, hf]⟩
  | initiateUpiPayout p => exact h.elim
  | _ => exact ⟨rfl, by simp [Request.writesFailed]⟩

lemma Op.closing.bland {id : String} {op : Op} (h : op.closing id) : Bland ⟨.run id, op⟩ := by
  intro i
  cases op with
  | updateTransaction j data =>
    obtain ⟨-, s, hs, hf⟩ := h
    exact ⟨rfl, by simp [Request.writesFailed, hs, hf]⟩
  | initiateUpiPayout p => exact h.elim
  | _ => exact ⟨rfl, by simp [Request.writesFailed]⟩

/-- Whoever is not the processor does not write for it. -/
lemma bland_of_source {c : Request} (hsource : ∀ id, c.source ≠ .run id)
    (hpay : ∀ id, c.op.isPayout id = false) : Bland c := fun id =>
  ⟨hpay id, by rw [Request.writesFailed, decide_eq_false (hsource id), Bool.false_and]⟩

lemma Requested.bland {c : Request} (h : Requested c) : Bland c := by
  refine bland_of_source (fun id => by rw [h.1]; simp) fun id => ?_
  obtain ⟨source, op⟩ := c
  cases op with
  | initiateUpiPayout p => exact h.2.elim
  | _ => rfl

lemma Polling.bland {c : Request} (h : Polling c) : Bland c := by
  refine bland_of_source (fun id => by rw [h.1]; simp) fun id => ?_
  obtain ⟨source, op⟩ := c
  cases op with
  | initiateUpiPayout p => exact h.2.elim
  | _ => rfl

/-- Bland calls of the run of a transaction. -/
def Quiet (id : String) (c : Request) : Prop := Bland c ∧ c.source = .run id

section Programs

variable {α : Type} {js : Js} {tx : Transaction} {id : String} {ℓ : Stage} {p : Service α}

lemma bland_call {source : Source} {op : Op} (h : Bland ⟨source, op⟩) : (call source op).All Bland :=
  all_perform h

lemma link_of_bland {c : Request} (h : Bland c) (hℓ : ∀ id, ℓ ≠ .aborting id) :
    outcome.link ℓ c :=
  ⟨fun id hid => absurd hid (h.not_writesFailed id), fun id hid => absurd hid (hℓ id)⟩

lemma Outcome.bland {c : Request} {w w' : World} {r : Except String c.Res} {f : Multiset Stage}
    (h : Outcome w f) (henv : env c w r w') (hc : Bland c) : Outcome w' f :=
  h.call henv (hc.not_paidOut r) fun id hid => absurd hid (hc.not_writesFailed id)

/-- Bland calls, from a ghost state that is not aborting. -/
lemma safe_bland (hp : p.All Bland) (hℓ : ∀ id, ℓ ≠ .aborting id) :
    Safe outcome p ℓ (upon (fun _ ℓ' => ℓ' = ℓ) fun ℓ' => ℓ' = ℓ) := by
  refine Safe.of_all hp (fun r => ?_) fun c hc => ⟨link_of_bland hc hℓ, ?_⟩
  · cases r with
    | ok a => rfl
    | error e => rfl
  · intro w f r w' hinv _ henv
    exact hinv.bland henv hc

/-- A payer's program does not fail, if nothing fails that is not caught. -/
lemma safe_payer (hp : p.All (Quiet id))
    (hr : p.Resilient Request.caught False) :
    Safe outcome p (.payer id) (upon (fun _ ℓ' => ℓ' = .payer id) fun _ => False) := by
  induction p with
  | done r =>
    cases r with
    | ok a => rfl
    | error e => exact hr
  | await c k ih =>
    obtain ⟨⟨hc, hsource⟩, hk⟩ := hp
    refine ⟨link_of_bland hc (fun i h => by cases h), fun w f r w' hinv hallowed henv => ?_⟩
    refine ⟨_, hinv.bland henv hc, ih r (hk r) ?_⟩
    have hpaid : Accepted id w := hinv.paid id (Multiset.mem_cons_self ..)
    cases r with
    | ok v => exact hr.1 v
    | error e =>
      rcases (hallowed id).1 hpaid hsource with hcaught | hwell
      · exact hr.2 hcaught e
      · exact absurd hwell (c.not_goesWell_error e)

/-! ### What settles a payment -/

lemma resilient_call {E : Prop} {source : Source} {op : Op}
    (h : Request.caught ⟨source, op⟩ → E) : (call source op).Resilient Request.caught E :=
  resilient_perform h

lemma quiet_of {P : Op → Prop} (hP : ∀ op, P op → Bland ⟨.run id, op⟩)
    (hp : p.All (Request.By (.run id) P)) : p.All (Quiet id) := by
  refine hp.mono fun c hc => ?_
  obtain ⟨source, op⟩ := c
  obtain ⟨rfl, hop⟩ := hc
  exact ⟨hP op hop, rfl⟩

lemma quiet_of_plain (hp : p.All (Plain id)) : p.All (Quiet id) :=
  quiet_of (fun _ => Op.plain.bland) hp

namespace Processor

lemma resilient_logEvent {E : Prop} {status : TransactionStatus} {payload : Metadata} :
    (logEvent id status payload).Resilient Request.caught E :=
  resilient_bind (resilient_call False.elim) fun _ => resilient_call False.elim

lemma resilient_updateStatus {E : Prop} {status : TransactionStatus}
    {failure : Option (String × String)} :
    (updateStatus id status failure).Resilient Request.caught E := by
  have hdate : (completionDate id status).Resilient Request.caught E := by
    rw [completionDate]
    split_ifs
    · exact resilient_bind (resilient_call False.elim) fun _ => resilient_pure _
    · exact resilient_pure _
  refine resilient_bind hdate fun _ => resilient_bind (resilient_call fun h => ?_) fun _ => ?_
  · cases h
  · exact resilient_logEvent

lemma resilient_mintOnChain {reward : Reward} {walletAddress : String} :
    (mintOnChain tx reward walletAddress).Resilient Request.caught True := by
  refine resilient_bind (resilient_call fun _ => trivial) fun _ => ?_
  refine resilient_bind (resilient_call fun _ => trivial) fun _ => ?_
  exact resilient_bind (resilient_call fun _ => trivial) fun _ => resilient_pure _

/-- A mint that fails does not fail the payment. -/
lemma resilient_issueStarReward {acc : RewardResult} {r : PendingReward} :
    (issueStarReward tx acc r).Resilient Request.caught False := by
  rw [issueStarReward]
  cases truthy r.walletAddress with
  | none =>
    refine resilient_bind (resilient_call False.elim) fun _ => ?_
    exact resilient_bind (resilient_call fun h => h.2 rfl) fun _ => resilient_pure _
  | some walletAddress =>
    refine resilient_bind (resilient_attempt resilient_mintOnChain) fun outcome => ?_
    cases outcome with
    | ok hash => exact resilient_pure _
    | error e =>
      refine resilient_bind (resilient_call fun h => ?_) fun _ => resilient_pure _
      cases h.1

lemma resilient_issueStarRewards : (issueStarRewards tx).Resilient Request.caught False :=
  resilient_bind (resilient_call False.elim) fun _ =>
    resilient_foldlM (fun _ _ => resilient_issueStarReward) none

lemma resilient_logCompletion {stellar : StellarResult} {attempt : ℕ}
    {rewardResult : RewardResult} :
    (logCompletion tx stellar attempt rewardResult).Resilient Request.caught False := by
  cases rewardResult with
  | none => exact resilient_pure _
  | some r =>
    rw [logCompletion]
    split
    · exact resilient_call False.elim
    · exact resilient_pure _

lemma resilient_complete {stellar : StellarResult} {attempt : ℕ} {rewardResult : RewardResult} :
    (complete tx stellar attempt rewardResult).Resilient Request.caught False := by
  refine resilient_bind resilient_updateStatus fun _ => ?_
  refine resilient_bind (resilient_call False.elim) fun _ => ?_
  refine resilient_bind resilient_updateStatus fun _ => ?_
  refine resilient_bind (resilient_call False.elim) fun _ => ?_
  exact resilient_bind (resilient_call False.elim) fun _ => resilient_logCompletion

end Processor

/-! ### Up to the payment on chain -/

/-- Where an error leaves a run that has nothing to give up: if `g` it goes on to write `FAILED`,
else it tries again. -/
def afterError (id : String) (g : Bool) : Stage := if g then .aborting id else .idle

lemma Outcome.error {w : World} {f : Multiset Stage} {g : Bool} (h : Outcome w (ℓ ::ₘ f))
    (hid : ¬Accepted id w) : Outcome w (afterError id g ::ₘ f) := by
  cases g with
  | false => exact h.toIdle
  | true => exact h.toAborting hid

/-- A call of a run that holds nothing: it fails only before a payout. -/
lemma safe_idleCall {op : Op} {g : Bool} (hc : Bland ⟨.run id, op⟩)
    (hcaught : ¬Request.caught ⟨.run id, op⟩) :
    Safe outcome (call (.run id) op) .idle
      (upon (fun _ ℓ => ℓ = .idle) fun ℓ => ℓ = afterError id g) := by
  refine safe_perform (link_of_bland hc fun i h => by cases h) ?_
  intro w f r w' hinv hallowed henv
  have hinv' : Outcome w' (.idle ::ₘ f) := hinv.bland henv hc
  cases r with
  | ok v => exact ⟨_, hinv', rfl⟩
  | error e =>
    have hpay := hc.not_paidOut (.error e) id
    have hid : ¬Accepted id w' := by
      rw [accepted_env henv, or_iff_left hpay]
      intro hpaid
      rcases (hallowed id).1 hpaid rfl with h | h
      · exact hcaught h
      · exact Request.not_goesWell_error _ e h
    exact ⟨_, hinv'.error hid, rfl⟩

/-- Plain calls that nothing catches. -/
lemma safe_idlePlain {op : Op} {g : Bool} (h : op.plain id)
    (hcaught : ¬Request.caught ⟨.run id, op⟩) :
    Safe outcome (call (.run id) op) .idle
      (upon (fun _ ℓ => ℓ = .idle) fun ℓ => ℓ = afterError id g) :=
  safe_idleCall h.bland hcaught

/-- A run without a spend reward fails, which it does only before a payout. -/
lemma safe_findSpendReward {i : String} :
    Safe outcome (call (.run id) (.findSpendReward i)) .idle
      (upon (fun reward ℓ => ℓ = if (reward : Option Reward).isSome then .idle else .aborting id)
        fun ℓ => ℓ = .aborting id) := by
  have hplain : Op.plain id (.findSpendReward i) := trivial
  have hc := hplain.bland
  refine safe_perform (link_of_bland hc fun i h => by cases h) ?_
  intro w f r w' hinv hallowed henv
  have hinv' : Outcome w' (.idle ::ₘ f) := hinv.bland henv hc
  have hwell : Accepted id w' → Request.goesWell ⟨.run id, .findSpendReward i⟩ r := by
    rw [accepted_env henv, or_iff_left (hc.not_paidOut r id)]
    intro hpaid
    exact ((hallowed id).1 hpaid rfl).resolve_left fun h => h
  cases r with
  | error e => exact ⟨_, hinv'.toAborting fun h => Request.not_goesWell_error _ e (hwell h), rfl⟩
  | ok reward =>
    refine ⟨_, ?_, rfl⟩
    split_ifs with hsome
    · exact hinv'
    · exact hinv'.toAborting fun h => hsome (hwell h)

lemma safe_ifPresent {β : Type} {key : Option String} {query : String → Service (Option β)}
    {g : Bool} (h : ∀ k, Safe outcome (query k) .idle
      (upon (fun _ ℓ => ℓ = .idle) fun ℓ => ℓ = afterError id g)) :
    Safe outcome (ifPresent key query) .idle
      (upon (fun _ ℓ => ℓ = .idle) fun ℓ => ℓ = afterError id g) := by
  cases key with
  | none => exact safe_pure rfl
  | some k => exact h k

/-- Only one run gets past `createPayment`, and none after a payout. -/
lemma safe_createOwner {p : CreatePayment} (hp : p.paymentId = id) :
    Safe outcome (call (.run id) (.createPayment p)) .idle
      (upon (fun _ ℓ => ℓ = .owner id) fun ℓ => ℓ = .aborting id) := by
  have hc : Bland ⟨.run id, .createPayment p⟩ := fun i => ⟨rfl, by simp [Request.writesFailed]⟩
  refine safe_perform (link_of_bland hc fun i h => by cases h) ?_
  intro w f r w' hinv hallowed henv
  have hinv' : Outcome w' (.idle ::ₘ f) := hinv.bland henv hc
  have haccepted : Accepted id w' ↔ Accepted id w := by
    rw [accepted_env henv, or_iff_left (hc.not_paidOut r id)]
  cases r with
  | error e =>
    refine ⟨_, hinv'.toAborting fun hpaid => ?_, rfl⟩
    rcases (hallowed id).1 (haccepted.mp hpaid) rfl with h | h
    · exact h
    · exact Request.not_goesWell_error _ e h
  | ok hash =>
    obtain ⟨hnew, hrecord⟩ := env_createPayment henv
    rw [hp] at hnew hrecord
    have hnone : Stage.owner id ∉ f := by
      intro hf
      have hcount := Multiset.count_pos.mpr (Multiset.mem_cons_of_mem (b := Stage.idle) hf)
      have hbound := hinv.owned id
      rw [hnew] at hbound
      simp only [Option.isSome_none, Bool.false_eq_true, if_false] at hbound
      omega
    have hunpaid : ¬Accepted id w' := by
      rw [haccepted]
      intro hpaid
      have hsome := hinv.recorded id hpaid
      rw [hnew] at hsome
      cases hsome
    refine ⟨.owner id, ?_, rfl⟩
    refine ⟨hinv'.decides, hinv'.recorded, fun i => ?_, fun i hi => ?_, fun i hi => ?_,
      fun i hi => ?_⟩
    · by_cases hid : i = id
      · subst hid
        rw [if_pos hrecord, Multiset.count_cons_self, Multiset.count_eq_zero_of_notMem hnone]
      · have hne : Stage.owner i ≠ .owner id := fun h => hid (Stage.owner.inj h)
        refine le_trans ?_ (hinv'.owned i)
        rw [Multiset.count_cons_of_ne hne]
        exact Multiset.count_le_count_cons ..
    · rcases Multiset.mem_cons.mp hi with heq | hi
      · cases heq
        exact hunpaid
      · exact hinv'.unpaid i (Multiset.mem_cons_of_mem hi)
    · have hif : Stage.aborting i ∈ f := by simpa using hi
      exact hinv'.pending i (Multiset.mem_cons_of_mem hif)
    · have hif : Stage.payer i ∈ f := by simpa using hi
      exact hinv'.paid i (Multiset.mem_cons_of_mem hif)

namespace Processor

lemma safe_idleLogEvent {status : TransactionStatus} {payload : Metadata} {g : Bool} :
    Safe outcome (logEvent id status payload) .idle
      (upon (fun _ ℓ => ℓ = .idle) fun ℓ => ℓ = afterError id g) := by
  refine safe_bind (safe_idlePlain trivial fun h => h) fun _ ℓ hℓ => ?_
  obtain rfl := hℓ
  exact safe_idlePlain trivial fun h => h

lemma safe_prepareIdle : Safe outcome (prepare tx) .idle
    (upon (fun _ ℓ => ℓ = .idle) fun ℓ => ℓ = .aborting tx.id) := by
  have hauthorized : Safe outcome (updateStatus tx.id .AUTHORIZED none) .idle
      (upon (fun _ ℓ => ℓ = .idle) fun ℓ => ℓ = .aborting tx.id) := by
    rw [updateStatus, completionDate_of_ne (by decide)]
    refine safe_bind (R := fun _ ℓ => ℓ = .idle) (safe_pure rfl) fun _ ℓ hℓ => ?_
    obtain rfl := hℓ
    refine safe_bind (safe_idlePlain (g := true) ⟨rfl, by simp, by simp⟩ fun h => ?_) fun _ ℓ hℓ => ?_
    · cases h
    · obtain rfl := hℓ
      exact safe_idleLogEvent (g := true)
  refine safe_bind hauthorized fun _ ℓ hℓ => ?_
  obtain rfl := hℓ
  refine safe_bind safe_findSpendReward fun reward ℓ hℓ => ?_
  obtain rfl := hℓ
  cases reward with
  | none => exact safe_throw rfl
  | some reward =>
    refine safe_bind (safe_ifPresent (g := true) fun k => safe_idlePlain trivial fun h => h)
      fun qrCode ℓ hℓ => ?_
    obtain rfl := hℓ
    refine safe_bind (safe_ifPresent (g := true) fun k => safe_idlePlain trivial fun h => h)
      fun wallet ℓ hℓ => ?_
    exact safe_pure hℓ

/-- A run fails either before it owns the payment or while it does. -/
lemma safe_routeOwner : Safe outcome (route js tx) .idle
    (upon (fun _ ℓ => ℓ = .owner tx.id) fun ℓ => ℓ = .aborting tx.id ∨ ℓ = .owner tx.id) := by
  have howner : ∀ i, Stage.owner tx.id ≠ .aborting i := fun i h => by cases h
  have hquote : (quote js tx).All Bland := (quiet_of_plain plain_quote).mono fun _ h => h.1
  have hconvert : (convert js tx).All Bland := (quiet_of_plain plain_convert).mono fun _ h => h.1
  have hcreate : ∀ lookup, Safe outcome (call (.run tx.id) (.createPayment (paymentParams tx lookup)))
      .idle (upon (fun _ ℓ => ℓ = .owner tx.id) fun ℓ => ℓ = .aborting tx.id) := fun lookup =>
    safe_createOwner rfl
  refine safe_bind (safe_prepareIdle.weaken (fun _ _ h => h) fun _ => .inl) fun lookup ℓ hℓ => ?_
  obtain rfl := hℓ
  refine safe_bind ((hcreate lookup).weaken (fun _ _ h => h) fun _ => .inl) fun hash ℓ hℓ => ?_
  obtain rfl := hℓ
  refine safe_bind ((safe_bland hquote howner).weaken (fun _ _ h => h) fun _ => .inr)
    fun _ ℓ hℓ => ?_
  obtain rfl := hℓ
  exact (safe_bland hconvert howner).weaken (fun _ _ h => h) fun _ => .inr

/-! ### From the payment on chain on -/

/-- The owner is not told of a payout, or it becomes the payer. -/
lemma safe_pay {vpa name : String} :
    Safe outcome (call (.run tx.id) (.initiateUpiPayout (payoutRequest tx vpa name)))
      (.owner tx.id)
      (upon (fun _ ℓ => ℓ = .payer tx.id) fun ℓ => ℓ = .owner tx.id) := by
  have hwrite : ∀ i, ¬Request.writesFailed i
      ⟨.run tx.id, .initiateUpiPayout (payoutRequest tx vpa name)⟩ := fun i => by
    simp [Request.writesFailed]
  refine safe_perform ⟨fun i h => absurd h (hwrite i), fun i h => by cases h⟩ ?_
  intro w f r w' hinv hallowed henv
  cases r with
  | error e =>
    refine ⟨_, hinv.call henv (fun i => ?_) fun i h => absurd h (hwrite i), rfl⟩
    rw [paidOut, Except.isOk, Except.toBool, Bool.and_false]
    exact Bool.false_ne_true
  | ok result =>
    have hself : paidOut tx.id ⟨⟨.run tx.id, .initiateUpiPayout (payoutRequest tx vpa name)⟩,
        .ok result⟩ := by
      simp [paidOut, Op.isPayout, payoutRequest, Except.isOk, Except.toBool]
    refine ⟨_, hinv.pay henv (fun i hi => ?_) ((hallowed tx.id).2 hself) hwrite hself, rfl⟩
    by_contra hne
    rw [paidOut, isPayout_payoutRequest hne] at hi
    exact absurd hi Bool.false_ne_true

lemma safe_payMerchantOwner : Safe outcome (payMerchant tx) (.owner tx.id)
    (upon (fun _ ℓ => ℓ = .owner tx.id ∨ ℓ = .payer tx.id) fun ℓ => ℓ = .owner tx.id) := by
  have howner : ∀ i, Stage.owner tx.id ≠ .aborting i := fun i h => by cases h
  have hplain : Op.plain tx.id (.findMerchant tx.merchantId) := trivial
  refine safe_bind (safe_bland (bland_call hplain.bland) howner) fun merchant ℓ hℓ => ?_
  obtain rfl := hℓ
  cases merchant with
  | none => exact safe_pure (.inl rfl)
  | some merchant =>
    dsimp only
    cases truthy merchant.defaultUpiVpa with
    | none => exact safe_pure (.inl rfl)
    | some vpa =>
      refine safe_bind safe_pay fun result ℓ hℓ => ?_
      obtain rfl := hℓ
      refine (safe_payer ?_ ?_).weaken (fun _ _ h => .inr h) fun _ h => h.elim
      · refine all_bind (all_perform ⟨fun i => ⟨rfl, ?_⟩, rfl⟩) fun _ => all_pure _
        simp [Request.writesFailed]
      · exact resilient_bind (resilient_call False.elim) fun _ => resilient_pure _

/-- A run that pays a merchant does not fail after it did. -/
lemma safe_settleOwner {stellar : StellarResult} {attempt : ℕ} :
    Safe outcome (settle tx stellar attempt) (.owner tx.id)
      (upon (fun _ ℓ => ∀ i, ℓ ≠ .aborting i) fun ℓ => ℓ = .owner tx.id) := by
  have howner : ∀ i, Stage.owner tx.id ≠ .aborting i := fun i h => by cases h
  have hpayer : ∀ i, Stage.payer tx.id ≠ .aborting i := fun i h => by cases h
  have hmark : (markSettled tx stellar).All Bland :=
    (quiet_of_plain plain_markSettled).mono fun _ h => h.1
  refine safe_bind (safe_bland hmark howner) fun _ ℓ hℓ => ?_
  obtain rfl := hℓ
  refine safe_bind safe_payMerchantOwner fun _ ℓ hℓ => ?_
  have hrest : (issueStarRewards tx >>= complete tx stellar attempt).All (Quiet tx.id) :=
    all_bind (quiet_of_plain plain_issueStarRewards) fun _ =>
      quiet_of (fun _ => Op.closing.bland) closing_complete
  rcases hℓ with rfl | rfl
  · refine (safe_bland (hrest.mono fun _ h => h.1) howner).weaken (fun _ ℓ hℓ => ?_) fun _ h => h
    rw [hℓ]
    exact howner
  · have hresilient : (issueStarRewards tx >>= complete tx stellar attempt).Resilient
        Request.caught False :=
      resilient_bind resilient_issueStarRewards fun _ => resilient_complete
    refine (safe_payer hrest hresilient).weaken (fun _ ℓ hℓ => ?_) fun _ h => h.elim
    rw [hℓ]
    exact hpayer

/-! ### Writing the failure -/

/-- Only a run that is not paid for writes `FAILED`. -/
lemma safe_writeFailed {data : TransactionData} {g : Bool} (hdata : data.status = some .FAILED)
    (hℓ : ℓ = .aborting tx.id ∨ ℓ = .owner tx.id) :
    Safe outcome (call (.run tx.id) (.updateTransaction tx.id data)) ℓ
      (upon (fun _ ℓ => ℓ = .idle) fun ℓ => ℓ = afterError tx.id g) := by
  have hself : Request.writesFailed tx.id ⟨.run tx.id, .updateTransaction tx.id data⟩ := by
    simp [Request.writesFailed, hdata]
  have honly : ∀ i, Request.writesFailed i ⟨.run tx.id, .updateTransaction tx.id data⟩ →
      i = tx.id := by
    intro i hi
    by_contra hne
    simp [Request.writesFailed, Ne.symm hne] at hi
  refine safe_perform ⟨fun i hi => ?_, fun i hi => ?_⟩ ?_
  · obtain rfl := honly i hi
    exact hℓ.symm
  · rcases hℓ with rfl | rfl
    · cases hi
      exact hself
    · cases hi
  · intro w f r w' hinv hallowed henv
    have hunpaid : ¬Accepted tx.id w := by
      rcases hℓ with rfl | rfl
      · exact hinv.pending tx.id (Multiset.mem_cons_self ..)
      · exact hinv.unpaid tx.id (Multiset.mem_cons_self ..)
    have hpay : ∀ i, ¬paidOut i ⟨⟨.run tx.id, .updateTransaction tx.id data⟩, r⟩ := fun i =>
      Bool.false_ne_true
    have hinv' : Outcome w' (ℓ ::ₘ f) := by
      refine hinv.call henv hpay fun i hi => ?_
      rw [honly i hi]
      exact hunpaid
    cases r with
    | ok v => exact ⟨_, hinv'.toIdle, rfl⟩
    | error e =>
      refine ⟨_, hinv'.error ?_, rfl⟩
      rw [accepted_env henv, or_iff_left (hpay tx.id)]
      exact hunpaid

lemma safe_updateFailed {failure : Option (String × String)} {g : Bool}
    (hℓ : ℓ = .aborting tx.id ∨ ℓ = .owner tx.id) :
    Safe outcome (updateStatus tx.id .FAILED failure) ℓ
      (upon (fun _ ℓ => ℓ = .idle) fun ℓ => ℓ = afterError tx.id g) := by
  rw [updateStatus, completionDate_of_ne (by decide)]
  refine safe_bind (R := fun _ ℓ => ℓ = .aborting tx.id ∨ ℓ = .owner tx.id) (safe_pure hℓ)
    fun _ ℓ hℓ => ?_
  refine safe_bind (safe_writeFailed rfl hℓ) fun _ ℓ hℓ => ?_
  obtain rfl := hℓ
  exact safe_idleLogEvent

lemma safe_saveHash {hash : Option String} {E : Stage → Prop} :
    Safe outcome (saveHash tx hash) (.owner tx.id) (upon (fun _ ℓ => ℓ = .owner tx.id) E) := by
  have howner : ∀ i, Stage.owner tx.id ≠ .aborting i := fun i h => by cases h
  rw [saveHash]
  cases truthy hash with
  | none => exact safe_pure rfl
  | some hash =>
    refine safe_attempt (safe_bland (bland_call fun i => ⟨rfl, ?_⟩) howner)
      (fun _ ℓ hℓ => safe_pure hℓ) fun _ ℓ hℓ => safe_pure hℓ
    simp [Request.writesFailed]

lemma safe_abort {hash : Option String} {message : String} {g : Bool}
    (hℓ : ℓ = .owner tx.id ∨ ℓ = .aborting tx.id ∧ hash = none) :
    Safe outcome (abort tx hash message) ℓ
      (upon (fun _ ℓ => ℓ = .idle) fun ℓ => ℓ = afterError tx.id g) := by
  rcases hℓ with rfl | ⟨rfl, rfl⟩
  · refine safe_bind safe_saveHash fun _ ℓ hℓ => ?_
    exact safe_updateFailed (.inr hℓ)
  · refine safe_bind (R := fun _ ℓ => ℓ = .aborting tx.id) (safe_pure rfl) fun _ ℓ hℓ => ?_
    exact safe_updateFailed (.inl hℓ)

/-! ### The whole run -/

/-- Where a thread may rest. -/
def Resting (ℓ : Stage) : Prop := ∀ i, ℓ ≠ .aborting i

lemma resting_idle : Resting .idle := fun i h => by cases h

/-- Whatever a thread holds when a program begins, it may as well begin with nothing. -/
lemma safe_fromIdle {Q : Except String α → Stage → Prop} (hp : Safe outcome p .idle Q)
    (hℓ : Resting ℓ) (hQ : ∀ r, Q r .idle → Q r ℓ) : Safe outcome p ℓ Q := by
  cases p with
  | done r => exact hQ r hp
  | await c k =>
    obtain ⟨hlink, hstep⟩ := hp
    refine ⟨⟨fun i hi => ?_, fun i hi => absurd hi (hℓ i)⟩, fun w f r w' hinv => ?_⟩
    · rcases hlink.1 i hi with h | h
      · cases h
      · cases h
    · exact hstep w f r w' hinv.toIdle

/-- No postcondition but that the thread may rest. -/
abbrev rests {α : Type} : Except String α → Stage → Prop :=
  upon (fun _ => Resting) Resting

lemma rests_intro (r : Except String α) (hℓ : Resting ℓ) : rests r ℓ := by
  cases r with
  | ok a => exact hℓ
  | error e => exact hℓ

lemma safe_processOutcome {attempt : ℕ} {g : Bool} :
    Safe outcome (processTransaction js tx attempt) .idle
      (upon (fun _ => Resting) fun ℓ => ℓ = afterError tx.id g) := by
  have hidle : ∀ ℓ, ℓ = Stage.idle → Resting ℓ := by
    rintro ℓ rfl
    exact resting_idle
  refine safe_attempt safe_routeOwner (fun stellar ℓ hℓ => ?_) fun message ℓ hℓ => ?_
  · obtain rfl := hℓ
    refine safe_attempt safe_settleOwner (fun _ ℓ hℓ => safe_pure hℓ) fun message ℓ hℓ => ?_
    exact (safe_abort (.inl hℓ)).weaken (fun _ => hidle) fun _ h => h
  · refine (safe_abort ?_).weaken (fun _ => hidle) fun _ h => h
    exact hℓ.symm.imp_right fun h => ⟨h, rfl⟩

lemma safe_giveUp {message : String} : Safe outcome (giveUp tx message) (.aborting tx.id) rests := by
  refine safe_bind (R := fun _ => Resting) ((safe_writeFailed (g := false) rfl (.inl rfl)).weaken
    (fun _ ℓ hℓ => ?_) fun ℓ hℓ => ?_) fun _ ℓ hℓ => safe_pure hℓ
  · rw [hℓ]
    exact resting_idle
  · rw [hℓ]
    exact resting_idle

/-- Only the last attempt goes on to give up. -/
lemma safe_retryOutcome {remaining : ℕ} : Safe outcome (retryFrom js tx remaining) .idle rests := by
  induction remaining with
  | zero =>
    refine safe_attempt (safe_processOutcome (g := true)) (fun _ ℓ hℓ => safe_pure hℓ)
      fun message ℓ hℓ => ?_
    obtain rfl := hℓ
    exact safe_giveUp
  | succ remaining ih =>
    refine safe_attempt (safe_processOutcome (g := false)) (fun _ ℓ hℓ => safe_pure hℓ)
      fun message ℓ hℓ => ?_
    obtain rfl := hℓ
    have hplain : ∀ ms, Op.plain tx.id (.sleep ms) := fun ms => trivial
    have hsleep := safe_bland (bland_call (hplain (BACKOFF_MS.getD (MAX_ATTEMPTS - (remaining + 1))
      8000)).bland) resting_idle
    refine safe_bind (hsleep.weaken (fun _ _ h => h) fun ℓ hℓ => ?_) fun _ ℓ hℓ => ?_
    · rw [hℓ]
      exact resting_idle
    · rw [hℓ]
      exact ih

lemma safe_rests (hp : p.All Bland) : Safe outcome p .idle rests := by
  refine (safe_bland hp resting_idle).weaken (fun _ ℓ hℓ => ?_) fun ℓ hℓ => ?_
  · rw [hℓ]
    exact resting_idle
  · rw [hℓ]
    exact resting_idle

lemma safe_tick : Safe outcome (handlePendingTransactions js) .idle rests := by
  have hkeep : ∀ op : Op, op.ticking →
      Safe outcome (call .tick op) .idle (upon (fun _ ℓ => ℓ = .idle) Resting) := by
    intro op hop
    have hbland : Bland ⟨.tick, op⟩ := by
      refine bland_of_source (fun i hi => by cases hi) fun i => ?_
      cases op with
      | initiateUpiPayout p => exact hop.elim
      | _ => rfl
    refine (safe_bland (bland_call hbland) resting_idle).weaken (fun _ _ h => h) fun ℓ hℓ => ?_
    rw [hℓ]
    exact resting_idle
  have hresting {ℓ : Stage} (hℓ : ℓ = .idle) : Resting ℓ := by
    rw [hℓ]
    exact resting_idle
  have hticks := safe_ticks js (D := outcome) (I := fun ℓ => ℓ = .idle) (E := Resting)
    (R := fun _ => Resting) (fun hop hℓ => hℓ ▸ hkeep _ hop)
    (fun hℓ => hℓ ▸ (hkeep (.findAuthorized _) trivial).weaken (fun _ _ => hresting) fun _ h => h)
    (fun tx _ hℓ => safe_fromIdle safe_retryOutcome hℓ fun r _ => rests_intro r hℓ) rfl
  refine hticks.weaken (fun _ ℓ hℓ => ?_) fun _ h => h
  rcases hℓ with hℓ | ⟨-, hℓ⟩
  · exact hresting hℓ
  · exact hℓ

end Processor

/-! ### The pipeline -/

lemma safe_startsOutcome {w : World} {q : Service Unit} (h : Starts js w q) :
    Safe outcome q .idle Processor.rests := by
  obtain rfl | rfl | hrequest := h.job_or_requested
  · exact Processor.safe_tick
  · exact Processor.safe_rests (Processor.polling_handlePendingSettlements.mono fun _ => Polling.bland)
  · exact Processor.safe_rests (hrequest.mono fun _ => Requested.bland)

lemma Outcome.started {w : World} (h : Started w) : Outcome w 0 := by
  have hnone : ∀ id, ¬Accepted id w := by
    rintro id ⟨e, he, -⟩
    rw [h.calls] at he
    cases he
  refine ⟨fun id => ?_, fun id hid => absurd hid (hnone id), fun id => Nat.zero_le _,
    fun id hid => absurd hid (Multiset.notMem_zero _),
    fun id hid => absurd hid (Multiset.notMem_zero _),
    fun id hid => absurd hid (Multiset.notMem_zero _)⟩
  rw [PayoutDecides, h.calls]
  exact .nil

lemma Outcome.other {w w' : World} {f : Multiset Stage} (h : Outcome w f)
    (hcalls : w'.calls = w.calls) (hgrow : PaymentsGrow w.state w'.state) : Outcome w' f := by
  have haccepted : ∀ id, Accepted id w' ↔ Accepted id w := fun id => by
    rw [Accepted, Accepted, hcalls]
  refine ⟨fun id => ?_, fun id hid => ?_, fun id => ?_, fun id hid => ?_, fun id hid => ?_,
    fun id hid => ?_⟩
  · rw [PayoutDecides, hcalls]
    exact h.decides id
  · exact hgrow id (h.recorded id ((haccepted id).mp hid))
  · exact (h.owned id).trans (bound_mono hgrow id)
  · rw [haccepted]
    exact h.unpaid id hid
  · rw [haccepted]
    exact h.pending id hid
  · rw [haccepted]
    exact h.paid id hid

/-- A thread that is aborting is about to write `FAILED`. -/
lemma aborting_next {threads : Multiset (Service Unit)} {f : Multiset Stage}
    (h : Multiset.Rel (Async.Safely outcome) threads f) (hid : Stage.aborting id ∈ f) :
    ∃ q ∈ threads, q.next.any (Request.writesFailed id) := by
  obtain ⟨q, hq, hsafe⟩ := Multiset.exists_mem_of_rel_of_mem (Multiset.rel_flip.mpr h) hid
  refine ⟨q, hq, ?_⟩
  cases q with
  | done r => exact absurd rfl (hsafe id)
  | await c k => exact hsafe.1.2 id rfl

theorem outcome_governs : Async.Governs outcome (setting js undisturbed) where
  env _ _ _ _ h := h
  init _ h := .started h
  start w q h := by
    refine ⟨.idle, (safe_startsOutcome h).mono fun r ℓ hr => ?_, fun f hf => ?_⟩
    · cases r with
      | ok a => exact hr
      | error e => exact hr
    · refine ⟨hf.decides, hf.recorded, fun id => ?_, fun id hid => ?_, fun id hid => ?_,
        fun id hid => ?_⟩
      · rw [Multiset.count_cons_of_ne (by simp)]
        exact hf.owned id
      · exact hf.unpaid id (by simpa using hid)
      · exact hf.pending id (by simpa using hid)
      · exact hf.paid id (by simpa using hid)
  world w w' f h hf := hf.other h.1 h.2.paymentsGrow
  cond rest f c w r hrel hcond id := by
    refine ⟨(hcond id).1, fun hpaid haborting => ?_⟩
    obtain ⟨q, hq, hnext⟩ := aborting_next hrel haborting
    exact (hcond id).2 hpaid q hq hnext

/-- **An undisturbed payout decides.** In every run in which no uncaught call fails after a payout
and no other run of the transaction is failing when its payout is accepted, the processor never
drives the row of a paid transaction to `FAILED`. -/
theorem payout_decides {s : Async.Pool World Request Request.Res String}
    (h : (pipeline js undisturbed).Reachable s) (id : String) : PayoutDecides id s.world := by
  obtain ⟨f, -, hinv⟩ := Async.reachable_sound outcome_governs h
  exact hinv.decides id

end Programs

/-! ### The shop -/

lemma undisturbed_checkedBy : undisturbed.CheckedBy fun c _ r => c.goesWell r := by
  intro rest hrest c w r hwell id
  refine ⟨fun _ _ => .inr hwell, fun _ p hp => ?_⟩
  rw [hrest p hp]
  exact Bool.false_ne_true

/-- In the shop the order is paid out and nothing fails until the payment is to be completed. -/
theorem payout_decides_of_order : ∃ s, (pipeline OneOrder.js undisturbed).Reachable s ∧
    Accepted OneOrder.orderId s.world ∧ PayoutDecides OneOrder.orderId s.world := by
  have hordered : Idle OneOrder.js undisturbed (OneOrder.ordered OneOrder.order) :=
    OneOrder.ordered_idle undisturbed_checkedBy (by decide +kernel) (by decide +kernel)
  obtain ⟨threads, -, hreach⟩ :=
    OneOrder.processing_reachable (n := 41) hordered undisturbed_checkedBy (by decide +kernel)
  have hpaid : Accepted OneOrder.orderId (OneOrder.processing OneOrder.order 41).2 := by decide +kernel
  exact ⟨_, hreach, hpaid, payout_decides hreach OneOrder.orderId⟩

/-- Then `completePayment` is refused, and the row of the paid order becomes `FAILED`. -/
theorem paid_order_driven_to_failed : ∃ s, (pipeline OneOrder.js anyAnswer).Reachable s ∧
    Accepted OneOrder.orderId s.world ∧ ¬PayoutDecides OneOrder.orderId s.world ∧
    s.world.state.transactions.map (fun t => (t.id, t.status)) = [(OneOrder.orderId, .FAILED)] := by
  obtain ⟨threads, hreach⟩ := OneOrder.processed_reachable
  have hpaid : Accepted OneOrder.orderId (OneOrder.processing OneOrder.order 50).2 := by decide +kernel
  have hfailed : ¬PayoutDecides OneOrder.orderId (OneOrder.processing OneOrder.order 50).2 := by
    decide +kernel
  have hrow : (OneOrder.processing OneOrder.order 50).2.state.transactions.map (fun t => (t.id, t.status)) =
      [(OneOrder.orderId, .FAILED)] := by decide +kernel
  exact ⟨_, hreach, hpaid, hfailed, hrow⟩

end PayEra.Api
