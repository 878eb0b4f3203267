import PayEra.Api.Answers

/-!
# The row of one transaction

What a call makes of the row with a given identifier, and who writes which status: the claim of a
tick, the runs of the transaction and the requests of users, all of them without a condition on the
row but the claim.
-/

namespace PayEra.Api

open Async (Program)
open Async.Program

/-! ### One row -/

/-- The row of a transaction after a call that took effect. -/
def Op.row (id : String) : Op → Option Transaction → Option Transaction
  | .claimTransactions time authorizedAt, row => row.map fun t =>
    if Backend.claimable time t then { t with status := .AUTHORIZED, authorizedAt } else t
  | .updateTransaction i data, row => if i = id then row.map (·.update data) else row
  | .createTransaction t, row => row.or (if t.row.id = id then some t.row else none)
  | _, row => row

/-- Identifiers of transactions are unique. -/
def Backend.Distinct (b : Backend) : Prop := (b.transactions.map (·.id)).Nodup

def Backend.status (b : Backend) (id : String) : Option TransactionStatus :=
  (b.transaction id).map (·.status)

section Rows

variable {b b' : Backend} {id : String}

lemma find?_updateWhere {p : Transaction → Bool} {f : Transaction → Transaction}
    {rows : List Transaction} (h : ∀ t, (f t).id = t.id) :
    (updateWhere p f rows).find? (·.id = id) =
      (rows.find? (·.id = id)).map fun t => if p t then f t else t := by
  have hid : ∀ t, (if p t then f t else t).id = t.id := by
    intro t
    split_ifs
    · exact h t
    · rfl
  rw [updateWhere, List.find?_map]
  simp only [Function.comp_def, hid]

lemma id_of_transaction {t : Transaction} (h : b.transaction id = some t) : t.id = id := by
  simpa using List.find?_some h

lemma mem_of_transaction {t : Transaction} (h : b.transaction id = some t) : t ∈ b.transactions :=
  List.mem_of_find?_eq_some h

theorem answer_row {op : Op} {o : Oracle} {v : op.Res}
    (h : Backend.answer o op b = some (v, b')) :
    b'.transaction id = op.row id (b.transaction id) := by
  by_cases hop : op.writesTransactions
  · cases op with
    | claimTransactions now authorizedAt =>
      cases h
      exact find?_updateWhere fun _ => rfl
    | updateTransaction i data =>
      simp only [Backend.answer, Option.map_eq_some_iff] at h
      obtain ⟨t, -, heq⟩ := h
      cases heq
      refine (find?_updateWhere (f := (·.update data)) fun _ => rfl).trans ?_
      rw [Op.row]
      by_cases hi : i = id
      · rw [if_pos hi]
        refine Option.map_congr fun t ht => ?_
        rw [if_pos (decide_eq_true ((id_of_transaction ht).trans hi.symm))]
      · rw [if_neg hi]
        refine (Option.map_congr fun t ht => ?_).trans Option.map_id'
        rw [if_neg (by simpa [id_of_transaction ht] using Ne.symm hi)]
    | createTransaction t =>
      simp only [Backend.answer] at h
      split_ifs at h
      cases h
      refine List.find?_append.trans ?_
      have hrow : List.find? (·.id = id) [t.row] = if t.row.id = id then some t.row else none := by
        simp [List.find?_singleton]
      rw [hrow]
      rfl
    | _ => cases hop
  · rw [Bool.not_eq_true] at hop
    have hrow : op.row id (b.transaction id) = b.transaction id := by
      cases op with
      | claimTransactions | updateTransaction | createTransaction => cases hop
      | _ => rfl
    rw [hrow, Backend.transaction, (answer_frame h).transactions hop]
    rfl

lemma answer_distinct {op : Op} {o : Oracle} {v : op.Res}
    (h : Backend.answer o op b = some (v, b')) (hb : b.Distinct) : b'.Distinct := by
  have hmap : ∀ (p : Transaction → Bool) (f : Transaction → Transaction), (∀ t, (f t).id = t.id) →
      ((updateWhere p f b.transactions).map (·.id)).Nodup := by
    intro p f hf
    have hids : (updateWhere p f b.transactions).map (·.id) = b.transactions.map (·.id) := by
      rw [updateWhere, List.map_map]
      refine List.map_congr_left fun t _ => ?_
      by_cases ht : p t
      · simp [ht, hf]
      · simp [ht]
    rw [hids]
    exact hb
  by_cases hop : op.writesTransactions
  · cases op with
    | claimTransactions now authorizedAt =>
      cases h
      exact hmap _ _ fun _ => rfl
    | updateTransaction i data =>
      simp only [Backend.answer, Option.map_eq_some_iff] at h
      obtain ⟨t, -, heq⟩ := h
      cases heq
      exact hmap _ _ fun _ => rfl
    | createTransaction t =>
      simp only [Backend.answer] at h
      split_ifs at h with hids
      cases h
      rw [not_or] at hids
      rw [Backend.Distinct, List.map_append, List.nodup_append]
      refine ⟨hb, List.nodup_singleton _, fun i hi j hj hij => hids.1 ?_⟩
      obtain ⟨t', ht', rfl⟩ := List.mem_map.mp hi
      obtain rfl := List.mem_singleton.mp hj
      exact List.any_eq_true.mpr ⟨t', ht', decide_eq_true (.inl hij)⟩
    | _ => cases hop
  · rw [Bool.not_eq_true] at hop
    rw [Backend.Distinct, (answer_frame h).transactions hop]
    exact hb

lemma transaction_of_mem (hb : b.Distinct) {t : Transaction} (ht : t ∈ b.transactions) :
    b.transaction t.id = some t := by
  obtain ⟨t', ht'⟩ : ∃ t', b.transaction t.id = some t' :=
    Option.isSome_iff_exists.mp (List.find?_isSome.mpr ⟨t, ht, decide_eq_true rfl⟩)
  have heq : t' = t := List.inj_on_of_nodup_map hb (mem_of_transaction ht') ht
    (id_of_transaction ht')
  rw [ht', heq]

/-- With unique identifiers the order of the rows does not matter. -/
lemma transaction_perm (h : b'.transactions.Perm b.transactions) (hb : b.Distinct) :
    b'.transaction id = b.transaction id := find?_key_perm h hb id

end Rows

section Calls

variable {c : Request} {b b' : Backend} {w w' : World} {r : Except String c.Res}

/-- A call that is answered leaves the backend as it was, or has its effect on it. -/
def Evolves (c : Request) (b b' : Backend) : Prop := b' = b ∨ ∃ v, Returns c b v b'

lemma evolves_env (h : env c w r w') : Evolves c w.state w'.state := Async.faulty_state h

lemma Evolves.row (h : Evolves c b b') (id : String) :
    b'.transaction id = b.transaction id ∨
      b'.transaction id = c.op.row id (b.transaction id) := by
  rcases h with rfl | ⟨v, o, hans⟩
  · exact .inl rfl
  · exact .inr (answer_row hans)

lemma Evolves.distinct (h : Evolves c b b') (hb : b.Distinct) : b'.Distinct := by
  rcases h with rfl | ⟨v, o, hans⟩
  · exact hb
  · exact answer_distinct hans hb

lemma Evolves.frame (h : Evolves c b b') : Frame c.op b b' := by
  rcases h with rfl | ⟨v, o, hans⟩
  · exact .refl _ _
  · exact answer_frame hans

lemma env_row (h : env c w r w') (id : String) :
    w'.state.transaction id = w.state.transaction id ∨
      w'.state.transaction id = c.op.row id (w.state.transaction id) :=
  (evolves_env h).row id

lemma env_distinct (h : env c w r w') (hb : w.state.Distinct) : w'.state.Distinct :=
  (evolves_env h).distinct hb

lemma other_distinct {b b' : Backend} (h : Backend.Other b b') (hb : b.Distinct) : b'.Distinct :=
  (h.transactions.map _).nodup_iff.mpr hb

lemma distinct_of_started (h : Started w) : w.state.Distinct := by
  rw [Backend.Distinct, h.transactions]
  exact List.nodup_nil

/-- Transactions have unique identifiers in every reachable state. -/
theorem reachable_distinct {js : Js} {cond : Condition}
    {s : Async.Pool World Request Request.Res String} (h : (pipeline js cond).Reachable s) :
    s.world.state.Distinct := by
  refine h.invariant (P := fun s => s.world.state.Distinct) ?_ fun s l t _ hs hstep => ?_
  · rintro s ⟨hstarted, -⟩
    exact distinct_of_started hstarted
  cases l with
  | call c r =>
    obtain ⟨k, rest, -, -, henv, -⟩ := hstep
    exact env_distinct henv hs
  | start p =>
    obtain ⟨-, hw, -⟩ := hstep
    rwa [hw]
  | world => exact other_distinct hstep.1.2 hs

end Calls

/-! ### A whole run -/

/-- The calls of a run of a transaction. -/
def Op.running (id : String) : Op → Prop
  | .now | .sleep _ | .findQrCode _ | .findWallet _ | .findMerchant _ | .updateReward _ _
  | .createAdminLog _ | .fetchUsdcRate | .issueStarReward _ | .submitPayment _ => True
  | .maxEventSequence i | .findSpendReward i | .findPendingRewards i | .updateSettlements i _
  | .markConverted i | .markSettled i | .completePayment i => i = id
  | .createEvent e => e.transactionId = id
  | .createPayment p => p.paymentId = id
  | .quotePayment p => p.paymentId = id
  | .initiateUpiPayout p => p.referenceId = "SETTLE_" ++ id
  | .updateTransaction i data =>
    i = id ∧ data.status ≠ some .CREATED ∧ data.status ≠ some .CANCELLED
  | _ => False

abbrev Running (id : String) : Request → Prop := Request.By (.run id) (Op.running id)

/-- The calls of a run that leave the status of its transaction as it is. -/
def Op.still (id : String) (op : Op) : Prop :=
  op.running id ∧ match op with
    | .updateTransaction _ data => data.status = none
    | _ => True

abbrev Still (id : String) : Request → Prop := Request.By (.run id) (Op.still id)

/-- The calls of a run that write no event either. -/
def Op.silent (id : String) (op : Op) : Prop := op.still id ∧ op.writesEvents = false

abbrev Silent (id : String) : Request → Prop := Request.By (.run id) (Op.silent id)

section Runs

variable {js : Js} {tx : Transaction} {id : String}

lemma running_of_still {α : Type} {p : Service α} (h : p.All (Still id)) : p.All (Running id) :=
  h.mono fun _ hc => ⟨hc.1, hc.2.1⟩

lemma still_of_silent {α : Type} {p : Service α} (h : p.All (Silent id)) : p.All (Still id) :=
  h.mono fun _ hc => ⟨hc.1, hc.2.1⟩

namespace Processor

/-! ### Parts of a run that write neither the status nor an event -/

lemma silent_completionDate {status : TransactionStatus} :
    (completionDate id status).All (Silent id) := by
  rw [completionDate]
  split_ifs
  · exact all_bind (all_now ⟨⟨trivial, trivial⟩, rfl⟩) fun _ => all_pure _
  · exact all_pure _

/-- What follows the first write in `prepare`. -/
lemma silent_lookup {key : Option String} :
    (ifPresent key fun k => call (.run id) (.findQrCode k)).All (Silent id) ∧
      (ifPresent key fun k => call (.run id) (.findWallet k)).All (Silent id) :=
  ⟨all_ifPresent fun _ => all_call ⟨⟨trivial, trivial⟩, rfl⟩,
    all_ifPresent fun _ => all_call ⟨⟨trivial, trivial⟩, rfl⟩⟩

lemma silent_getUsdcRate : (getUsdcRate id).All (Silent id) := by
  refine all_bind (all_attempt (all_call ⟨⟨trivial, trivial⟩, rfl⟩)) fun r => ?_
  split
  · exact all_pure _
  · exact all_pure _

lemma silent_payMerchant : (payMerchant tx).All (Silent tx.id) := by
  refine all_bind (all_call ⟨⟨trivial, trivial⟩, rfl⟩) fun merchant => ?_
  cases merchant with
  | none => exact all_pure _
  | some merchant =>
    dsimp only
    split
    · exact all_pure _
    · refine all_bind (all_call ⟨⟨rfl, trivial⟩, rfl⟩) fun _ => ?_
      exact all_bind (all_call ⟨⟨rfl, trivial⟩, rfl⟩) fun _ => all_pure _

lemma silent_issueStarReward {acc : RewardResult} {r : PendingReward} :
    (issueStarReward tx acc r).All (Silent tx.id) := by
  rw [issueStarReward]
  split
  · refine all_bind (all_attempt ?_) fun outcome => ?_
    · refine all_bind (all_call ⟨⟨trivial, trivial⟩, rfl⟩) fun _ => ?_
      refine all_bind (all_now ⟨⟨trivial, trivial⟩, rfl⟩) fun _ => ?_
      exact all_bind (all_call ⟨⟨trivial, trivial⟩, rfl⟩) fun _ => all_pure _
    · cases outcome with
      | ok hash => exact all_pure _
      | error e => exact all_bind (all_call ⟨⟨trivial, trivial⟩, rfl⟩) fun _ => all_pure _
  · refine all_bind (all_now ⟨⟨trivial, trivial⟩, rfl⟩) fun _ => ?_
    exact all_bind (all_call ⟨⟨trivial, trivial⟩, rfl⟩) fun _ => all_pure _

lemma silent_issueStarRewards : (issueStarRewards tx).All (Silent tx.id) :=
  all_bind (all_call ⟨⟨rfl, trivial⟩, rfl⟩) fun _ =>
    all_foldlM (fun _ _ _ => silent_issueStarReward) none

lemma silent_logCompletion {stellar : StellarResult} {attempt : ℕ} {rewardResult : RewardResult} :
    (logCompletion tx stellar attempt rewardResult).All (Silent tx.id) := by
  cases rewardResult with
  | none => exact all_pure _
  | some r =>
    rw [logCompletion]
    split
    · exact all_call ⟨⟨trivial, trivial⟩, rfl⟩
    · exact all_pure _

lemma silent_saveHash {hash : Option String} : (saveHash tx hash).All (Silent tx.id) := by
  rw [saveHash]
  split
  · exact all_bind (all_attempt (all_call ⟨⟨⟨rfl, by simp, by simp⟩, rfl⟩, rfl⟩)) fun _ => all_pure _
  · exact all_pure _

/-! ### Parts of a run that do not write the status -/

lemma still_logEvent {status : TransactionStatus} {payload : Metadata} :
    (logEvent id status payload).All (Still id) :=
  all_bind (all_call ⟨rfl, trivial⟩) fun _ => all_call ⟨rfl, trivial⟩

lemma still_completionDate {status : TransactionStatus} :
    (completionDate id status).All (Still id) := still_of_silent silent_completionDate

lemma still_lookup {key : Option String} :
    (ifPresent key fun k => call (.run id) (.findQrCode k)).All (Still id) ∧
      (ifPresent key fun k => call (.run id) (.findWallet k)).All (Still id) :=
  ⟨still_of_silent silent_lookup.1, still_of_silent silent_lookup.2⟩

lemma still_getUsdcRate : (getUsdcRate id).All (Still id) := still_of_silent silent_getUsdcRate

lemma still_payMerchant : (payMerchant tx).All (Still tx.id) := still_of_silent silent_payMerchant

lemma still_issueStarRewards : (issueStarRewards tx).All (Still tx.id) :=
  still_of_silent silent_issueStarRewards

lemma still_logCompletion {stellar : StellarResult} {attempt : ℕ} {rewardResult : RewardResult} :
    (logCompletion tx stellar attempt rewardResult).All (Still tx.id) :=
  still_of_silent silent_logCompletion

lemma still_saveHash {hash : Option String} : (saveHash tx hash).All (Still tx.id) :=
  still_of_silent silent_saveHash

/-! ### The run from its beginning -/

lemma running_updateStatus {status : TransactionStatus} {failure : Option (String × String)}
    (hcreated : status ≠ .CREATED) (hcancelled : status ≠ .CANCELLED) :
    (updateStatus id status failure).All (Running id) := by
  refine all_bind (running_of_still still_completionDate) fun _ => ?_
  refine all_bind (all_call ⟨rfl, ?_, ?_⟩) fun _ => running_of_still still_logEvent
  · simpa using hcreated
  · simpa using hcancelled

lemma running_prepare : (prepare tx).All (Running tx.id) := by
  refine all_bind (running_updateStatus (by simp) (by simp)) fun _ => ?_
  refine all_bind (all_call rfl) fun reward => ?_
  cases reward with
  | none => exact all_throw _
  | some reward =>
    refine all_bind (running_of_still still_lookup.1) fun _ => ?_
    exact all_bind (running_of_still still_lookup.2) fun _ => all_pure _

lemma running_quote : (quote js tx).All (Running tx.id) := by
  have hdone : ∀ r : Except String ℤ, (Program.done r : Service ℤ).All (Running tx.id) :=
    fun _ => trivial
  refine all_bind (running_updateStatus (by simp) (by simp)) fun _ => ?_
  refine all_bind (running_of_still still_getUsdcRate) fun _ => ?_
  refine all_bind (hdone _) fun _ => all_bind (hdone _) fun _ => ?_
  exact all_bind (all_call rfl) fun _ => running_updateStatus (by simp) (by simp)

lemma running_route : (route js tx).All (Running tx.id) := by
  refine all_bind running_prepare fun _ => all_bind (all_call rfl) fun _ => ?_
  refine all_bind running_quote fun _ => all_bind (all_call rfl) fun _ => ?_
  exact all_bind (running_updateStatus (by simp) (by simp)) fun _ => all_call trivial

lemma running_markSettled {stellar : StellarResult} :
    (markSettled tx stellar).All (Running tx.id) := by
  refine all_bind (all_call ⟨rfl, by simp, by simp⟩) fun _ => ?_
  refine all_bind (running_of_still still_logEvent) fun _ => ?_
  exact all_bind (all_call rfl) fun _ => running_updateStatus (by simp) (by simp)

lemma running_complete {stellar : StellarResult} {attempt : ℕ} {rewardResult : RewardResult} :
    (complete tx stellar attempt rewardResult).All (Running tx.id) := by
  refine all_bind (running_updateStatus (by simp) (by simp)) fun _ => ?_
  refine all_bind (all_call rfl) fun _ => ?_
  refine all_bind (running_updateStatus (by simp) (by simp)) fun _ => ?_
  refine all_bind (all_now trivial) fun _ => all_bind (all_call rfl) fun _ => ?_
  exact running_of_still still_logCompletion

lemma running_settle {stellar : StellarResult} {attempt : ℕ} :
    (settle tx stellar attempt).All (Running tx.id) :=
  all_bind running_markSettled fun _ => all_bind (running_of_still still_payMerchant) fun _ =>
    all_bind (running_of_still still_issueStarRewards) fun _ => running_complete

lemma running_abort {hash : Option String} {message : String} :
    (abort tx hash message).All (Running tx.id) :=
  all_bind (running_of_still still_saveHash) fun _ => running_updateStatus (by simp) (by simp)

lemma running_processTransaction {attempt : ℕ} :
    (processTransaction js tx attempt).All (Running tx.id) := by
  refine all_bind (all_attempt running_route) fun outcome => ?_
  cases outcome with
  | error message => exact running_abort
  | ok stellar =>
    refine all_bind (all_attempt running_settle) fun outcome => ?_
    cases outcome with
    | error message => exact running_abort
    | ok _ => exact all_pure _

lemma running_giveUp {message : String} : (giveUp tx message).All (Running tx.id) :=
  all_bind (all_call ⟨rfl, by simp, by simp⟩) fun _ => all_pure _

/-- Every call of a run is one of its transaction. -/
theorem running_retryFrom {remaining : ℕ} : (retryFrom js tx remaining).All (Running tx.id) := by
  induction remaining with
  | zero =>
    refine all_bind (all_attempt running_processTransaction) fun outcome => ?_
    cases outcome with
    | ok _ => exact all_pure _
    | error message => exact running_giveUp
  | succ remaining ih =>
    refine all_bind (all_attempt running_processTransaction) fun outcome => ?_
    cases outcome with
    | ok _ => exact all_pure _
    | error message => exact all_bind (all_call trivial) fun _ => ih

end Processor

end Runs

/-! ### Who writes a status -/

/-- The calls that are made for each source. -/
def Request.Usual (c : Request) : Prop :=
  match c.source with
  | .run id => c.op.running id
  | .tick => c.op.ticking
  | .poller => c.op.polling
  | .request => c.op.requested

/-- The ways in which a call changes the status of a transaction. -/
inductive Request.Changes (c : Request) (id : String) :
    Option TransactionStatus → Option TransactionStatus → Prop where
  | claim {time authorizedAt : ℕ} (h : c = ⟨.tick, .claimTransactions time authorizedAt⟩) :
      c.Changes id (some .CREATED) (some .AUTHORIZED)
  | create {t : NewTransaction} (h : c = ⟨.request, .createTransaction t⟩) (hid : t.row.id = id) :
      c.Changes id none (some .CREATED)
  | run {data : TransactionData} {s s' : TransactionStatus}
      (h : c = ⟨.run id, .updateTransaction id data⟩) (hdata : data.status = some s') :
      c.Changes id (some s) (some s')
  | request {data : TransactionData} {s s' : TransactionStatus}
      (h : c = ⟨.request, .updateTransaction id data⟩) (hdata : data.status = some s') :
      c.Changes id (some s) (some s')

section Changes

variable {c : Request} {b b' : Backend} {w w' : World} {r : Except String c.Res} {id : String}

lemma status_update (t : Transaction) (data : TransactionData) :
    (t.update data).status = data.status.getD t.status := rfl

/-- Whoever writes to a row by its identifier, writes a status or leaves it. -/
lemma Evolves.update {source : Source} {i : String} {data : TransactionData}
    (h : Evolves ⟨source, .updateTransaction i data⟩ b b') (id : String) :
    b'.status id = b.status id ∨ i = id ∧ ∃ s s', data.status = some s' ∧ b.status id = some s ∧
      b'.status id = some s' := by
  rcases h.row id with heq | heq
  · exact .inl (by rw [Backend.status, heq, Backend.status])
  · rw [Op.row] at heq
    by_cases hi : i = id
    · rw [if_pos hi] at heq
      simp only [Backend.status, heq]
      cases hrow : b.transaction id with
      | none => exact .inl rfl
      | some t =>
        cases hdata : data.status with
        | none => exact .inl (by simp [status_update, hdata])
        | some s' => exact .inr ⟨hi, t.status, s', rfl, rfl, by simp [status_update, hdata]⟩
    · rw [if_neg hi] at heq
      exact .inl (by rw [Backend.status, heq, Backend.status])

/-- A usual call leaves the status of a transaction, or changes it in one of these ways. -/
theorem Evolves.status (h : Evolves c b b') (hc : c.Usual) (id : String) :
    b'.status id = b.status id ∨ c.Changes id (b.status id) (b'.status id) := by
  by_cases hop : c.op.writesTransactions
  · obtain ⟨source, op⟩ := c
    cases op with
    | claimTransactions time authorizedAt =>
      cases source with
      | tick =>
        rcases h.row id with heq | heq
        · exact .inl (by rw [Backend.status, heq, Backend.status])
        · simp only [Backend.status, heq, Op.row]
          cases b.transaction id with
          | none => exact .inl rfl
          | some t =>
            by_cases ht : Backend.claimable time t
            · have hcreated : t.status = .CREATED := (of_decide_eq_true ht).1
              rw [Option.map_some, if_pos ht, Option.map_some, Option.map_some, hcreated]
              exact .inr (.claim rfl)
            · rw [Option.map_some, if_neg ht]
              exact .inl rfl
      | _ => exact hc.elim
    | updateTransaction i data =>
      rcases h.update id with heq | ⟨rfl, s, s', hdata, hs, hs'⟩
      · exact .inl heq
      · rw [hs, hs']
        cases source with
        | run j =>
          obtain ⟨rfl, -⟩ := hc
          exact .inr (.run rfl hdata)
        | request => exact .inr (.request rfl hdata)
        | _ => exact hc.elim
    | createTransaction t =>
      cases source with
      | request =>
        rcases h.row id with heq | heq
        · exact .inl (by rw [Backend.status, heq, Backend.status])
        · simp only [Backend.status, heq, Op.row]
          cases hrow : b.transaction id with
          | some t' => exact .inl rfl
          | none =>
            by_cases hid : t.row.id = id
            · rw [if_pos hid, Option.none_or, Option.map_some, hc.status]
              exact .inr (.create rfl hid)
            · rw [if_neg hid]
              exact .inl rfl
      | _ => exact hc.elim
    | _ => cases hop
  · rw [Bool.not_eq_true] at hop
    rw [Backend.status, Backend.status, Backend.transaction, h.frame.transactions hop]
    exact .inl rfl

lemma env_status (hc : c.Usual) (henv : env c w r w') (id : String) :
    w'.state.status id = w.state.status id ∨
      c.Changes id (w.state.status id) (w'.state.status id) :=
  (evolves_env henv).status hc id

/-- No row becomes `CREATED` again. -/
lemma Evolves.not_created (h : Evolves c b b') (hc : c.Usual)
    (hb : ∃ s, b.status id = some s ∧ s ≠ .CREATED) : ∃ s, b'.status id = some s ∧ s ≠ .CREATED := by
  obtain ⟨s, hs, hne⟩ := hb
  rcases h.status hc id with heq | hchange
  · exact ⟨s, heq.trans hs, hne⟩
  · rw [hs] at hchange
    generalize hs' : b'.status id = s' at hchange
    cases hchange with
    | claim => exact absurd rfl hne
    | run h hdata =>
      subst h
      obtain ⟨-, hcreated, -⟩ := hc
      rw [hdata] at hcreated
      exact ⟨_, rfl, by simpa using hcreated⟩
    | request h hdata =>
      subst h
      rcases hc with hdata' | hdata'
      · exact ⟨_, rfl, by simp [Option.some.inj (hdata.symm.trans hdata')]⟩
      · exact ⟨_, rfl, by simp [Option.some.inj (hdata.symm.trans hdata')]⟩

lemma other_status {b b' : Backend} (h : Backend.Other b b') (hb : b.Distinct) :
    b'.status id = b.status id := by
  rw [Backend.status, Backend.status, transaction_perm h.transactions hb]

/-- A write that returns was made. -/
lemma status_of_updated {source : Source} {data : TransactionData} {s : TransactionStatus}
    {v : Transaction} (h : Returns ⟨source, .updateTransaction id data⟩ b v b')
    (hdata : data.status = some s) : b'.status id = some s := by
  obtain ⟨o, hans⟩ := h
  have hrow : b'.transaction id = _ := answer_row hans
  simp only [Backend.answer, Option.map_eq_some_iff] at hans
  obtain ⟨t, ht, -⟩ := hans
  rw [Backend.status, hrow, Op.row, if_pos rfl, ht]
  simp [status_update, hdata]

lemma ok_status {source : Source} {data : TransactionData} {s : TransactionStatus} {v : Transaction}
    (henv : env ⟨source, .updateTransaction id data⟩ w (.ok v) w') (hdata : data.status = some s) :
    w'.state.status id = some s := status_of_updated henv.2 hdata

/-- What a tick fetches. -/
lemma fetched_rows {source : Source} {since : ℕ} {rows : List Transaction}
    (h : Returns ⟨source, .findAuthorized since⟩ b rows b') :
    b' = b ∧ rows = (b.transactions.filter fun t =>
      t.status = .AUTHORIZED ∧ t.authorizedAt.any (since ≤ ·)).take 10 := by
  obtain ⟨o, hans⟩ := h
  obtain ⟨rfl, rfl⟩ := Prod.mk.inj (Option.some.inj hans)
  exact ⟨rfl, rfl⟩

lemma status_of_fetched {source : Source} {since : ℕ} {rows : List Transaction}
    (h : Returns ⟨source, .findAuthorized since⟩ b rows b') (hb : b.Distinct)
    {t : Transaction} (ht : t ∈ rows) : b'.status t.id = some .AUTHORIZED := by
  obtain ⟨rfl, rfl⟩ := fetched_rows h
  obtain ⟨hmem, hmatch⟩ := List.mem_filter.mp (List.mem_of_mem_take ht)
  rw [Backend.status, transaction_of_mem hb hmem, Option.map_some, (of_decide_eq_true hmatch).1]

end Changes

/-! ### What is started -/

section Starts

lemma usual_run {α : Type} {q : Service α} {id : String} (h : q.All (Running id)) :
    q.All Request.Usual := by
  refine h.mono fun c hc => ?_
  rw [Request.Usual, hc.1]
  exact hc.2

lemma usual_requested {α : Type} {q : Service α} (h : q.All Requested) : q.All Request.Usual := by
  refine h.mono fun c hc => ?_
  rw [Request.Usual, hc.1]
  exact hc.2

lemma usual_polling {α : Type} {q : Service α} (h : q.All Polling) : q.All Request.Usual := by
  refine h.mono fun c hc => ?_
  rw [Request.Usual, hc.1]
  exact hc.2

lemma usual_ticking {op : Op} (h : op.ticking) : (call .tick op).All Request.Usual :=
  all_perform h

end Starts

end PayEra.Api
