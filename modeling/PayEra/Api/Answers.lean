import PayEra.Api.Calls

/-!
# What an answer can change

Which tables a call can write, with the fact about the table that the invariants need: records on
chain stay, payouts are only added to, and the columns of a transaction that describe the order are
never written again.
-/

namespace PayEra.Api

/-! ### Which tables a call writes -/

namespace Op

/-- A payout for the transaction `id`. -/
def isPayout (id : String) : Op → Bool
  | .initiateUpiPayout p => p.referenceId = "SETTLE_" ++ id
  | _ => false

def pays : Op → Bool
  | .initiateUpiPayout _ => true
  | _ => false

def writesTransactions : Op → Bool
  | .claimTransactions _ _ | .updateTransaction _ _ | .createTransaction _ => true
  | _ => false

def writesSettlements : Op → Bool
  | .updateSettlements _ _ | .updateSettlement _ _ | .createTransaction _ => true
  | _ => false

def writesRewards : Op → Bool
  | .updateReward _ _ | .createReward _ => true
  | _ => false

def writesEvents : Op → Bool
  | .createEvent _ | .createTransaction _ => true
  | _ => false

end Op

lemma Processor.isPayout_payoutRequest {tx : Transaction} {vpa name id : String} (h : id ≠ tx.id) :
    Op.isPayout id (.initiateUpiPayout (payoutRequest tx vpa name)) = false := by
  rw [Op.isPayout, decide_eq_false_iff_not]
  intro heq
  exact h ((String.append_right_inj _).mp heq).symm

/-- A record on chain stays. -/
def PaymentsGrow (b b' : Backend) : Prop :=
  ∀ id, (b.payments id).isSome → (b'.payments id).isSome

lemma PaymentsGrow.refl (b : Backend) : PaymentsGrow b b := fun _ h => h

lemma paymentsGrow_update {b b' : Backend} {id : String} {s : PaymentEngine.PaymentStatus}
    (h : b'.payments = Function.update b.payments id (some s)) : PaymentsGrow b b' := by
  intro i hi
  rw [h]
  by_cases hid : i = id
  · subst hid
    rw [Function.update_self]
    rfl
  · rw [Function.update_of_ne hid]
    exact hi

/-- What stays as it is. -/
structure Frame (op : Op) (b b' : Backend) : Prop where
  payments : PaymentsGrow b b'
  payouts : op.pays = false → b'.payouts = b.payouts
  transactions : op.writesTransactions = false → b'.transactions = b.transactions
  settlements : op.writesSettlements = false →
    b'.settlementInstructions = b.settlementInstructions
  rewards : op.writesRewards = false → b'.rewards = b.rewards
  transactionEvents : op.writesEvents = false → b'.transactionEvents = b.transactionEvents

lemma Frame.refl (op : Op) (b : Backend) : Frame op b b :=
  ⟨.refl b, fun _ => rfl, fun _ => rfl, fun _ => rfl, fun _ => rfl, fun _ => rfl⟩

lemma frame_of_payments {op : Op} {b : Backend} {id : String} {s : PaymentEngine.PaymentStatus} :
    Frame op b { b with payments := Function.update b.payments id (some s) } :=
  ⟨paymentsGrow_update rfl, fun _ => rfl, fun _ => rfl, fun _ => rfl, fun _ => rfl, fun _ => rfl⟩

lemma movePayment_frame {op : Op} {b b' : Backend} {id : String}
    {s s' : PaymentEngine.PaymentStatus} (h : b.movePayment id s s' = some b') :
    Frame op b b' := by
  rw [Backend.movePayment] at h
  split_ifs at h
  obtain rfl := Option.some.inj h
  exact frame_of_payments

theorem answer_frame {op : Op} {o : Oracle} {b b' : Backend} {v : op.Res}
    (h : Backend.answer o op b = some (v, b')) : Frame op b b' := by
  cases op with
  | createPayment p =>
    simp only [Backend.answer] at h
    split_ifs at h
    cases h
    exact frame_of_payments
  | quotePayment p =>
    simp only [Backend.answer, Option.map_eq_some_iff] at h
    obtain ⟨b₁, hb, heq⟩ := h
    cases heq
    exact movePayment_frame hb
  | markConverted i | markSettled i | completePayment i =>
    simp only [Backend.answer, Option.map_eq_some_iff] at h
    obtain ⟨b₁, hb, heq⟩ := h
    cases heq
    exact movePayment_frame hb
  | updateTransaction i data =>
    simp only [Backend.answer, Option.map_eq_some_iff] at h
    obtain ⟨t, -, heq⟩ := h
    cases heq
    exact ⟨.refl b, fun _ => rfl, fun h => (by cases h), fun _ => rfl, fun _ => rfl, fun _ => rfl⟩
  | claimTransactions now authorizedAt =>
    cases h
    exact ⟨.refl b, fun _ => rfl, fun h => (by cases h), fun _ => rfl, fun _ => rfl, fun _ => rfl⟩
  | createTransaction t =>
    simp only [Backend.answer] at h
    split_ifs at h
    cases h
    exact ⟨.refl b, fun _ => rfl, fun h => (by cases h), fun h => (by cases h), fun _ => rfl,
      fun h => by cases h⟩
  | updateSettlement i data =>
    simp only [Backend.answer] at h
    split_ifs at h
    cases h
    exact ⟨.refl b, fun _ => rfl, fun _ => rfl, fun h => (by cases h), fun _ => rfl, fun _ => rfl⟩
  | updateSettlements i data =>
    cases h
    exact ⟨.refl b, fun _ => rfl, fun _ => rfl, fun h => (by cases h), fun _ => rfl, fun _ => rfl⟩
  | initiateUpiPayout p =>
    cases h
    exact ⟨.refl b, fun h => (by cases h), fun _ => rfl, fun _ => rfl, fun _ => rfl, fun _ => rfl⟩
  | uuid =>
    simp only [Backend.answer] at h
    split_ifs at h
    cases h
    exact ⟨.refl b, fun _ => rfl, fun _ => rfl, fun _ => rfl, fun _ => rfl, fun _ => rfl⟩
  | createEvent e =>
    simp only [Backend.answer] at h
    split_ifs at h
    cases h
    exact ⟨.refl b, fun _ => rfl, fun _ => rfl, fun _ => rfl, fun _ => rfl, fun h => by cases h⟩
  | updateReward _ _ | createReward _ =>
    simp only [Backend.answer] at h
    split_ifs at h
    cases h
    exact ⟨.refl b, fun _ => rfl, fun _ => rfl, fun _ => rfl, fun h => (by cases h), fun _ => rfl⟩
  | _ =>
    cases h
    exact ⟨.refl b, fun _ => rfl, fun _ => rfl, fun _ => rfl, fun _ => rfl, fun _ => rfl⟩

/-- A call that fails changes nothing either, or what it would have changed. -/
lemma env_frame {c : Request} {w w' : World} {r : Except String c.Res} (h : env c w r w') :
    Frame c.op w.state w'.state := by
  rcases Async.faulty_state h with heq | ⟨v, o, hans⟩
  · rw [heq]
    exact .refl _ _
  · exact answer_frame hans

/-! ### Records on chain -/

lemma env_paymentsGrow {c : Request} {w w' : World} {r : Except String c.Res}
    (h : env c w r w') : PaymentsGrow w.state w'.state := (env_frame h).payments

/-- `createPayment` returns only if it made the record. -/
lemma createPayment_answer {p : CreatePayment} {o : Oracle} {b b' : Backend} {hash : String}
    (h : Backend.answer o (.createPayment p) b = some (hash, b')) :
    b.payments p.paymentId = none ∧ b' = { b with
      payments := Function.update b.payments p.paymentId (some .created) } := by
  simp only [Backend.answer] at h
  split_ifs at h with hnew
  cases h
  exact ⟨hnew, rfl⟩

/-- The record was not there before the call, and is there when it has returned. -/
lemma env_createPayment {source : Source} {p : CreatePayment} {w w' : World} {hash : String}
    (h : env ⟨source, .createPayment p⟩ w (.ok hash) w') :
    w.state.payments p.paymentId = none ∧ (w'.state.payments p.paymentId).isSome := by
  obtain ⟨o, hans⟩ := h.2
  obtain ⟨hnew, hb'⟩ := createPayment_answer hans
  have hpay : w'.state.payments =
      Function.update w.state.payments p.paymentId (some .created) := by rw [hb']
  refine ⟨hnew, ?_⟩
  rw [hpay, Function.update_self]
  rfl

/-- Nobody else takes a record off the chain. -/
lemma Backend.Other.paymentsGrow {b b' : Backend} (h : Backend.Other b b') : PaymentsGrow b b' := by
  intro i hi
  obtain ⟨s, hs⟩ := Option.isSome_iff_exists.mp hi
  obtain ⟨s', hs', -⟩ := h.payments i s hs
  rw [hs']
  rfl

/-- The bound grows with the records on chain. -/
lemma bound_mono {b b' : Backend} (h : PaymentsGrow b b') (id : String) :
    (if (b.payments id).isSome then 1 else 0) ≤ if (b'.payments id).isSome then 1 else 0 := by
  by_cases hid : (b.payments id).isSome
  · rw [if_pos hid, if_pos (h id hid)]
  · rw [if_neg hid]
    exact Nat.zero_le _

/-- Whoever counts where there is one at most is the only one. -/
lemma alone_of_bound {L : Type} [DecidableEq L] {ℓ : L} {f : Multiset L} {P : Prop} [Decidable P]
    (h : (ℓ ::ₘ f).count ℓ ≤ if P then 1 else 0) : P ∧ ℓ ∉ f := by
  rw [Multiset.count_cons_self] at h
  by_cases hP : P
  · rw [if_pos hP] at h
    exact ⟨hP, fun hf => by have hcount := Multiset.count_pos.mpr hf; omega⟩
  · rw [if_neg hP] at h
    omega

/-! ### Orders -/

/-- The columns of a transaction that are fixed at its creation. -/
structure SameOrder (t t' : Transaction) : Prop where
  id : t'.id = t.id
  merchantId : t'.merchantId = t.merchantId
  amountInPaise : t'.amountInPaise = t.amountInPaise
  merchantSettlementPaise : t'.merchantSettlementPaise = t.merchantSettlementPaise
  merchantUpiVpa : t'.merchantUpiVpa = t.merchantUpiVpa

lemma SameOrder.refl (t : Transaction) : SameOrder t t := ⟨rfl, rfl, rfl, rfl, rfl⟩

lemma Transaction.sameOrder_update (t : Transaction) (d : TransactionData) :
    SameOrder t (t.update d) := ⟨rfl, rfl, rfl, rfl, rfl⟩

/-- Rows are added as `create` makes them, and otherwise keep their order. Only transactions of `C`
become `COMPLETED`. -/
structure RowsKept (C : String → Prop) (b b' : Backend) : Prop where
  forward : ∀ t ∈ b.transactions, ∃ t' ∈ b'.transactions, SameOrder t t'
  backward : ∀ t' ∈ b'.transactions,
    (t'.status = .CREATED ∧ t'.merchantSettlementPaise = t'.amountInPaise) ∨
    ∃ t ∈ b.transactions, SameOrder t t' ∧
      (t'.status = .COMPLETED → t.status = .COMPLETED ∨ C t.id)
  nodup : (b.transactions.map (·.id)).Nodup → (b'.transactions.map (·.id)).Nodup

section RowsKept

variable {C : String → Prop} {b b' : Backend}

lemma RowsKept.of_perm (h : b'.transactions.Perm b.transactions) : RowsKept C b b' := by
  refine ⟨fun t ht => ⟨t, h.mem_iff.mpr ht, .refl t⟩, fun t ht => ?_, fun hb => ?_⟩
  · exact .inr ⟨t, h.mem_iff.mp ht, .refl t, .inl⟩
  · exact (h.map _).nodup_iff.mpr hb

lemma RowsKept.of_updateWhere {p : Transaction → Bool} {f : Transaction → Transaction}
    (hf : ∀ t, p t → SameOrder t (f t) ∧
      ((f t).status = .COMPLETED → t.status = .COMPLETED ∨ C t.id))
    (h : b'.transactions = updateWhere p f b.transactions) : RowsKept C b b' := by
  have hrow : ∀ t, SameOrder t (if p t then f t else t) ∧
      ((if p t then f t else t).status = .COMPLETED → t.status = .COMPLETED ∨ C t.id) := by
    intro t
    by_cases ht : p t
    · rw [if_pos ht]
      exact hf t ht
    · rw [if_neg ht]
      exact ⟨.refl t, .inl⟩
  refine ⟨fun t ht => ⟨_, ?_, (hrow t).1⟩, fun t' ht' => ?_, fun hb => ?_⟩
  · rw [h]
    exact List.mem_map_of_mem ht
  · rw [h] at ht'
    obtain ⟨t, ht, rfl⟩ := List.mem_map.mp ht'
    exact .inr ⟨t, ht, hrow t⟩
  · have hids : b'.transactions.map (·.id) = b.transactions.map (·.id) := by
      rw [h, updateWhere, List.map_map]
      exact List.map_congr_left fun t _ => (hrow t).1.id
    rw [hids]
    exact hb

/-- A call that writes the status `COMPLETED` of the transaction `id`. -/
def Op.completes (id : String) : Op → Prop
  | .updateTransaction i data => i = id ∧ data.status = some .COMPLETED
  | _ => False

/-- New transactions are fresh. -/
def Op.createsFresh : Op → Prop
  | .createTransaction t => t.Fresh
  | _ => True

theorem answer_rowsKept {op : Op} {o : Oracle} {v : op.Res} (hfresh : op.createsFresh)
    (h : Backend.answer o op b = some (v, b')) : RowsKept (fun id => op.completes id) b b' := by
  by_cases hop : op.writesTransactions
  · cases op with
    | updateTransaction i data =>
      simp only [Backend.answer, Option.map_eq_some_iff] at h
      obtain ⟨t, -, heq⟩ := h
      cases heq
      refine .of_updateWhere (fun t ht => ⟨t.sameOrder_update data, fun hst => ?_⟩) rfl
      cases hd : data.status with
      | none =>
        rw [Transaction.update, hd] at hst
        exact .inl hst
      | some s =>
        rw [Transaction.update, hd] at hst
        obtain rfl : s = .COMPLETED := hst
        exact .inr ⟨(of_decide_eq_true ht).symm, hd⟩
    | claimTransactions now authorizedAt =>
      cases h
      refine .of_updateWhere ?_ rfl
      intro t _
      exact ⟨⟨rfl, rfl, rfl, rfl, rfl⟩, fun hst => by cases hst⟩
    | createTransaction t =>
      simp only [Backend.answer] at h
      split_ifs at h with hids
      cases h
      rw [not_or] at hids
      refine ⟨fun t' ht' => ⟨t', List.mem_append_left _ ht', .refl t'⟩, fun t' ht' => ?_,
        fun hb => ?_⟩
      · rcases List.mem_append.mp ht' with ht' | ht'
        · exact .inr ⟨t', ht', .refl t', .inl⟩
        · obtain rfl := List.mem_singleton.mp ht'
          exact .inl ⟨hfresh.status, hfresh.amount⟩
      · rw [List.map_append, List.nodup_append]
        refine ⟨hb, List.nodup_singleton _, fun i hi j hj hij => hids.1 ?_⟩
        obtain ⟨t', ht', rfl⟩ := List.mem_map.mp hi
        obtain rfl := List.mem_singleton.mp hj
        exact List.any_eq_true.mpr ⟨t', ht', decide_eq_true (.inl hij)⟩
    | _ => cases hop
  · rw [Bool.not_eq_true] at hop
    exact .of_perm (by rw [(answer_frame h).transactions hop])

lemma env_rowsKept {c : Request} {w w' : World} {r : Except String c.Res}
    (hfresh : c.op.createsFresh) (h : env c w r w') :
    RowsKept (fun id => c.op.completes id) w.state w'.state := by
  rcases Async.faulty_state h with heq | ⟨v, o, hans⟩
  · exact .of_perm (by rw [heq])
  · exact answer_rowsKept hfresh hans

end RowsKept

/-! ### Settlement instructions -/

/-- How a call writes a settlement instruction. -/
def Op.rewrites (op : Op) (s s' : SettlementInstruction) : Prop :=
  match op with
  | .updateSettlements i data => s.transactionId = i ∧ s' = s.update data
  | .updateSettlement i data => s.id = i ∧ s' = s.update data
  | _ => False

/-- A settlement instruction that no payout was written to. -/
structure SettlementInstruction.Untouched (s : SettlementInstruction) : Prop where
  status : s.status = .PENDING
  settlementReference : s.settlementReference = none

/-- Settlement instructions are added untouched, and otherwise change as `T` says. -/
structure SettlementsStep (T : SettlementInstruction → SettlementInstruction → Prop)
    (b b' : Backend) : Prop where
  forward : ∀ s ∈ b.settlementInstructions, ∃ s' ∈ b'.settlementInstructions, s'.id = s.id ∧ T s s'
  backward : ∀ s' ∈ b'.settlementInstructions, s'.Untouched ∨
    ∃ s ∈ b.settlementInstructions, s'.id = s.id ∧ s'.transactionId = s.transactionId ∧ T s s'
  nodup : (b.settlementInstructions.map (·.id)).Nodup → (b'.settlementInstructions.map (·.id)).Nodup

section SettlementsStep

variable {T : SettlementInstruction → SettlementInstruction → Prop} {b b' : Backend}

lemma SettlementsStep.of_perm (hT : ∀ s, T s s)
    (h : b'.settlementInstructions.Perm b.settlementInstructions) : SettlementsStep T b b' := by
  refine ⟨fun s hs => ⟨s, h.mem_iff.mpr hs, rfl, hT s⟩, fun s hs => ?_, fun hb => ?_⟩
  · exact .inr ⟨s, h.mem_iff.mp hs, rfl, rfl, hT s⟩
  · exact (h.map _).nodup_iff.mpr hb

lemma SettlementsStep.of_updateWhere {p : SettlementInstruction → Bool} {data : SettlementData}
    (hT : ∀ s, T s s) (hp : ∀ s, p s → T s (s.update data))
    (h : b'.settlementInstructions = updateWhere p (·.update data) b.settlementInstructions) :
    SettlementsStep T b b' := by
  have hrow : ∀ s, (if p s then s.update data else s).id = s.id ∧
      (if p s then s.update data else s).transactionId = s.transactionId ∧
      T s (if p s then s.update data else s) := by
    intro s
    by_cases hs : p s
    · rw [if_pos hs]
      exact ⟨rfl, rfl, hp s hs⟩
    · rw [if_neg hs]
      exact ⟨rfl, rfl, hT s⟩
  refine ⟨fun s hs => ⟨_, ?_, (hrow s).1, (hrow s).2.2⟩, fun s' hs' => ?_, fun hb => ?_⟩
  · rw [h]
    exact List.mem_map_of_mem hs
  · rw [h] at hs'
    obtain ⟨s, hs, rfl⟩ := List.mem_map.mp hs'
    exact .inr ⟨s, hs, hrow s⟩
  · have hids : b'.settlementInstructions.map (·.id) = b.settlementInstructions.map (·.id) := by
      rw [h, updateWhere, List.map_map]
      exact List.map_congr_left fun s _ => (hrow s).1
    rw [hids]
    exact hb

/-- Unchanged, or written by the call. -/
def Op.mayRewrite (op : Op) (s s' : SettlementInstruction) : Prop := s' = s ∨ op.rewrites s s'

theorem answer_settlements {op : Op} {o : Oracle} {v : op.Res} (hfresh : op.createsFresh)
    (h : Backend.answer o op b = some (v, b')) : SettlementsStep op.mayRewrite b b' := by
  have hT : ∀ s, op.mayRewrite s s := fun s => .inl rfl
  by_cases hop : op.writesSettlements
  · cases op with
    | updateSettlements i data =>
      cases h
      refine .of_updateWhere hT (fun s hs => ?_) rfl
      exact .inr ⟨of_decide_eq_true hs, rfl⟩
    | updateSettlement i data =>
      simp only [Backend.answer] at h
      split_ifs at h
      cases h
      refine .of_updateWhere hT (fun s hs => ?_) rfl
      exact .inr ⟨of_decide_eq_true hs, rfl⟩
    | createTransaction t =>
      simp only [Backend.answer] at h
      split_ifs at h with hids
      cases h
      rw [not_or] at hids
      refine ⟨fun s hs => ⟨s, List.mem_append_left _ hs, rfl, hT s⟩, fun s hs => ?_, fun hb => ?_⟩
      · rcases List.mem_append.mp hs with hs | hs
        · exact .inr ⟨s, hs, rfl, rfl, hT s⟩
        · obtain rfl := List.mem_singleton.mp hs
          exact .inl ⟨hfresh.settlementStatus, hfresh.settlementReference⟩
      · rw [List.map_append, List.nodup_append]
        refine ⟨hb, List.nodup_singleton _, fun i hi j hj hij => hids.2 ?_⟩
        obtain ⟨s, hs, rfl⟩ := List.mem_map.mp hi
        obtain rfl := List.mem_singleton.mp hj
        exact List.any_eq_true.mpr ⟨s, hs, decide_eq_true (.inl hij)⟩
    | _ => cases hop
  · rw [Bool.not_eq_true] at hop
    exact .of_perm hT (by rw [(answer_frame h).settlements hop])

lemma env_settlements {c : Request} {w w' : World} {r : Except String c.Res}
    (hfresh : c.op.createsFresh) (h : env c w r w') :
    SettlementsStep c.op.mayRewrite w.state w'.state := by
  rcases Async.faulty_state h with heq | ⟨v, o, hans⟩
  · exact .of_perm (fun _ => .inl rfl) (by rw [heq])
  · exact answer_settlements hfresh hans

end SettlementsStep

end PayEra.Api
