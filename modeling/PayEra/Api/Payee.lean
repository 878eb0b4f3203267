import PayEra.Api.Answers
import PayEra.Api.Playback

/-!
# Who is paid for a completed transaction

The destination of a payout is read from the merchant's row when the payout is made, while the
transaction keeps the VPA that was fixed at its creation. Under the condition that the two agree
whenever a run reads the merchant, a completed transaction was paid exactly once, in its amount, to
its VPA.

A thread knows the rows that it has fetched. An owner has created the payment on chain and not yet
asked for the payout; a payer was told that its payout was accepted.
-/

namespace PayEra.Api

open Async (Program Safe Discipline upon safe_pure safe_throw safe_bind safe_attempt safe_perform
  safe_forM)
open Async.Program

/-! ### The payee that was scanned -/

namespace Backend

/-- The accepted payouts of a transaction. -/
def payoutsOf (b : Backend) (id : String) : List UpiPayout :=
  b.payouts.filter fun p => p.referenceId = "SETTLE_" ++ id

/-- One payout was accepted for the transaction, with its amount and its destination. -/
def PaidAsScanned (b : Backend) (t : Transaction) : Prop :=
  ∃ p, b.payoutsOf t.id = [p] ∧ p.amountPaise = t.merchantSettlementPaise ∧
    p.merchantUpiVpa = t.merchantUpiVpa

end Backend

/-- Whenever a run reads its merchant, the merchant's VPA is the one of the transaction's row. -/
def readsPayee (c : Request) (w : World) (r : Except String c.Res) : Bool :=
  match c, r with
  | ⟨.run id, .findMerchant _⟩, .ok merchant => decide (∀ t ∈ w.state.transactions, t.id = id →
      truthy ((merchant : Option Merchant).bind (·.defaultUpiVpa)) = some t.merchantUpiVpa)
  | _, _ => true

def payeeAsScanned : Condition := fun _ c w r => readsPayee c w r

/-! ### The discipline -/

inductive Holding where
  | nothing
  | owner (id : String)
  | payer (tx : Transaction)
  deriving DecidableEq

/-- What a thread knows, and what it holds. -/
structure Hand where
  known : List Transaction
  holding : Holding

/-- The row of a transaction that a thread has read before. -/
def Knows (b : Backend) (tx : Transaction) : Prop := ∃ t ∈ b.transactions, SameOrder t tx

structure Payees (w : World) (f : Multiset Hand) : Prop where
  nodup : (w.state.transactions.map (·.id)).Nodup
  amounts : ∀ t ∈ w.state.transactions, t.merchantSettlementPaise = t.amountInPaise
  completed : ∀ t ∈ w.state.transactions, t.status = .COMPLETED → w.state.PaidAsScanned t
  known : ∀ ℓ ∈ f, ∀ tx ∈ ℓ.known, Knows w.state tx
  owned : ∀ id, (w.state.payoutsOf id).length + (f.map Hand.holding).count (.owner id) ≤
    if (w.state.payments id).isSome then 1 else 0
  paid : ∀ ℓ ∈ f, ∀ tx, ℓ.holding = .payer tx → Knows w.state tx ∧ w.state.PaidAsScanned tx

def payees : Discipline World Request Request.Res String Hand where
  env := env
  inv := Payees
  link _ _ := True
  allowed _ c w r := readsPayee c w r
  halt _ := True

/-! ### Single calls -/

lemma SameOrder.symm {t t' : Transaction} (h : SameOrder t t') : SameOrder t' t :=
  ⟨h.id.symm, h.merchantId.symm, h.amountInPaise.symm, h.merchantSettlementPaise.symm,
    h.merchantUpiVpa.symm⟩

lemma SameOrder.trans {t t' t'' : Transaction} (h : SameOrder t t') (h' : SameOrder t' t'') :
    SameOrder t t'' :=
  ⟨h'.id.trans h.id, h'.merchantId.trans h.merchantId, h'.amountInPaise.trans h.amountInPaise,
    h'.merchantSettlementPaise.trans h.merchantSettlementPaise,
    h'.merchantUpiVpa.trans h.merchantUpiVpa⟩

lemma Knows.step {C : String → Prop} {b b' : Backend} {tx : Transaction} (h : Knows b tx)
    (hrows : RowsKept C b b') : Knows b' tx := by
  obtain ⟨t, ht, htx⟩ := h
  obtain ⟨t', ht', htt'⟩ := hrows.forward t ht
  exact ⟨t', ht', htt'.symm.trans htx⟩

/-- Two rows with one id are one row. -/
lemma row_unique {b : Backend} (h : (b.transactions.map (·.id)).Nodup) {t t' : Transaction}
    (ht : t ∈ b.transactions) (ht' : t' ∈ b.transactions) (hid : t.id = t'.id) : t = t' :=
  List.inj_on_of_nodup_map h ht ht' hid

lemma Backend.PaidAsScanned.of_sameOrder {b b' : Backend} {t t' : Transaction} (h : b.PaidAsScanned t)
    (htt' : SameOrder t t') (hpayouts : b'.payoutsOf t.id = b.payoutsOf t.id) :
    b'.PaidAsScanned t' := by
  obtain ⟨p, hp, hamount, hvpa⟩ := h
  refine ⟨p, ?_, hamount.trans htt'.merchantSettlementPaise.symm,
    hvpa.trans htt'.merchantUpiVpa.symm⟩
  rw [htt'.id, hpayouts, hp]

section Calls

variable {c : Request} {w w' : World} {r : Except String c.Res} {f : Multiset Hand} {ℓ : Hand}

lemma Knows.paid {b : Backend} {tx t : Transaction} (hnodup : (b.transactions.map (·.id)).Nodup)
    (h : Knows b tx) (hpaid : b.PaidAsScanned tx) (ht : t ∈ b.transactions) (hid : tx.id = t.id) :
    b.PaidAsScanned t := by
  obtain ⟨t', ht', htx⟩ := h
  obtain rfl := row_unique hnodup ht' ht (htx.id.symm.trans hid)
  exact hpaid.of_sameOrder htx.symm rfl

/-- Steps without a payout, in which only the transaction of a payer is completed. -/
lemma Payees.step {C : String → Prop} (h : Payees w f) (hrows : RowsKept C w.state w'.state)
    (hpayouts : w'.state.payouts = w.state.payouts) (hgrow : PaymentsGrow w.state w'.state)
    (hC : ∀ id, C id → ∃ ℓ ∈ f, ∃ tx, ℓ.holding = .payer tx ∧ tx.id = id) : Payees w' f := by
  have hof : ∀ id, w'.state.payoutsOf id = w.state.payoutsOf id := fun id => by
    rw [Backend.payoutsOf, hpayouts]
    rfl
  refine ⟨hrows.nodup h.nodup, fun t' ht' => ?_, fun t' ht' hst => ?_, fun ℓ hℓ tx htx => ?_,
    fun id => ?_, fun ℓ hℓ tx htx => ?_⟩
  · rcases hrows.backward t' ht' with ⟨-, hamount⟩ | ⟨t, ht, htt', -⟩
    · exact hamount
    · rw [htt'.merchantSettlementPaise, htt'.amountInPaise]
      exact h.amounts t ht
  · rcases hrows.backward t' ht' with ⟨hcreated, -⟩ | ⟨t, ht, htt', hdone⟩
    · rw [hst] at hcreated
      cases hcreated
    · refine Backend.PaidAsScanned.of_sameOrder ?_ htt' (hof t.id)
      rcases hdone hst with hdone | hdone
      · exact h.completed t ht hdone
      · obtain ⟨ℓ, hℓ, tx, htx, hid⟩ := hC t.id hdone
        obtain ⟨hknown, hpaid⟩ := h.paid ℓ hℓ tx htx
        exact hknown.paid h.nodup hpaid ht hid
  · exact (h.known ℓ hℓ tx htx).step hrows
  · rw [hof]
    exact (h.owned id).trans (bound_mono hgrow id)
  · obtain ⟨hknown, hpaid⟩ := h.paid ℓ hℓ tx htx
    exact ⟨hknown.step hrows, hpaid.of_sameOrder (.refl tx) (hof tx.id)⟩

/-- Giving up what is held. -/
lemma Payees.release (h : Payees w (ℓ ::ₘ f)) : Payees w (⟨ℓ.known, .nothing⟩ ::ₘ f) := by
  refine ⟨h.nodup, h.amounts, h.completed, fun ℓ' hℓ' tx htx => ?_, fun id => ?_,
    fun ℓ' hℓ' tx htx => ?_⟩
  · rcases Multiset.mem_cons.mp hℓ' with rfl | hℓ'
    · exact h.known ℓ (Multiset.mem_cons_self ..) tx htx
    · exact h.known ℓ' (Multiset.mem_cons_of_mem hℓ') tx htx
  · refine le_trans (Nat.add_le_add_left ?_ _) (h.owned id)
    rw [Multiset.map_cons, Multiset.map_cons, Multiset.count_cons_of_ne (by simp)]
    exact Multiset.count_le_count_cons ..
  · rcases Multiset.mem_cons.mp hℓ' with rfl | hℓ'
    · cases htx
    · exact h.paid ℓ' (Multiset.mem_cons_of_mem hℓ') tx htx

/-- Reading rows. -/
lemma Payees.learn {txs : List Transaction} (h : Payees w (ℓ ::ₘ f))
    (htxs : ∀ tx ∈ txs, tx ∈ w.state.transactions) : Payees w (⟨txs, .nothing⟩ ::ₘ f) := by
  have hrelease := h.release
  refine ⟨h.nodup, h.amounts, h.completed, fun ℓ' hℓ' tx htx => ?_, fun id => ?_,
    fun ℓ' hℓ' tx htx => ?_⟩
  · rcases Multiset.mem_cons.mp hℓ' with rfl | hℓ'
    · exact ⟨tx, htxs tx htx, .refl tx⟩
    · exact h.known ℓ' (Multiset.mem_cons_of_mem hℓ') tx htx
  · have howned := hrelease.owned id
    rwa [Multiset.map_cons] at howned ⊢
  · rcases Multiset.mem_cons.mp hℓ' with rfl | hℓ'
    · cases htx
    · exact h.paid ℓ' (Multiset.mem_cons_of_mem hℓ') tx htx

/-- Becoming the owner of a payment that had no record before. -/
lemma Payees.own {known : List Transaction} {id : String}
    (h : Payees w' (⟨known, .nothing⟩ ::ₘ f)) (hbefore : Payees w (⟨known, .nothing⟩ ::ₘ f))
    (hpayouts : w'.state.payouts = w.state.payouts) (hnew : w.state.payments id = none)
    (hrecord : (w'.state.payments id).isSome) : Payees w' (⟨known, .owner id⟩ ::ₘ f) := by
  refine ⟨h.nodup, h.amounts, h.completed, fun ℓ' hℓ' tx htx => ?_, fun i => ?_,
    fun ℓ' hℓ' tx htx => ?_⟩
  · rcases Multiset.mem_cons.mp hℓ' with rfl | hℓ'
    · exact h.known _ (Multiset.mem_cons_self ..) tx htx
    · exact h.known ℓ' (Multiset.mem_cons_of_mem hℓ') tx htx
  · rw [Multiset.map_cons]
    by_cases hi : i = id
    · subst hi
      have hzero := hbefore.owned i
      have hof : w'.state.payoutsOf i = w.state.payoutsOf i := by
        rw [Backend.payoutsOf, hpayouts]
        rfl
      rw [hnew, Multiset.map_cons, Multiset.count_cons_of_ne (by simp)] at hzero
      rw [hof, if_pos hrecord, Multiset.count_cons_self]
      simp only [Option.isSome_none, Bool.false_eq_true, if_false] at hzero
      omega
    · have hne : Holding.owner i ≠ .owner id := fun h => hi (Holding.owner.inj h)
      have hle := h.owned i
      rw [Multiset.map_cons, Multiset.count_cons_of_ne (by simp)] at hle
      rw [Multiset.count_cons_of_ne hne]
      exact hle
  · rcases Multiset.mem_cons.mp hℓ' with rfl | hℓ'
    · cases htx
    · exact h.paid ℓ' (Multiset.mem_cons_of_mem hℓ') tx htx

lemma payoutsOf_append {b b' : Backend} {p : UpiPayout} (h : b'.payouts = b.payouts ++ [p])
    (id : String) : b'.payoutsOf id = b.payoutsOf id ++
      if p.referenceId = "SETTLE_" ++ id then [p] else [] := by
  rw [Backend.payoutsOf, h, List.filter_append]
  by_cases hp : p.referenceId = "SETTLE_" ++ id
  · rw [if_pos hp, List.filter_cons_of_pos (by simpa using hp)]
    rfl
  · rw [if_neg hp, List.filter_cons_of_neg (by simpa using hp)]
    rfl

/-- The owner's payout takes effect. -/
lemma Payees.pay {known : List Transaction} {tx : Transaction} {name : String}
    (h : Payees w (⟨known, .owner tx.id⟩ ::ₘ f)) (htx : tx ∈ known)
    (hpayouts : w'.state.payouts =
      w.state.payouts ++ [Processor.payoutRequest tx tx.merchantUpiVpa name])
    (hrows : w'.state.transactions = w.state.transactions)
    (hgrow : PaymentsGrow w.state w'.state) : Payees w' (⟨known, .payer tx⟩ ::ₘ f) := by
  set p := Processor.payoutRequest tx tx.merchantUpiVpa name with hp
  have href : p.referenceId = "SETTLE_" ++ tx.id := rfl
  have hself : w'.state.payoutsOf tx.id = w.state.payoutsOf tx.id ++ [p] := by
    rw [payoutsOf_append hpayouts, if_pos href]
  have hother : ∀ id, id ≠ tx.id → w'.state.payoutsOf id = w.state.payoutsOf id := by
    intro id hid
    have hne : ¬p.referenceId = "SETTLE_" ++ id := fun heq =>
      hid ((String.append_right_inj _).mp heq).symm
    rw [payoutsOf_append hpayouts, if_neg hne, List.append_nil]
  have hcount := h.owned tx.id
  rw [Multiset.map_cons, Multiset.count_cons_self] at hcount
  have hrecord : (w.state.payments tx.id).isSome := by
    by_contra hnone
    rw [if_neg hnone] at hcount
    omega
  rw [if_pos hrecord] at hcount
  have hnone : w.state.payoutsOf tx.id = [] := List.length_eq_zero_iff.mp (by omega)
  have hid : ∀ t, w.state.PaidAsScanned t → t.id ≠ tx.id := by
    rintro t ⟨q, hq, -⟩ hid
    rw [hid, hnone] at hq
    cases hq
  have hknows : ∀ t, Knows w.state t → Knows w'.state t := fun t ht => by
    rw [Knows, hrows]
    exact ht
  have hknown : Knows w.state tx := h.known _ (Multiset.mem_cons_self ..) tx htx
  refine ⟨?_, ?_, fun t ht hst => ?_, fun ℓ hℓ t ht => ?_, fun id => ?_, fun ℓ hℓ t ht => ?_⟩
  · rw [hrows]
    exact h.nodup
  · rw [hrows]
    exact h.amounts
  · rw [hrows] at ht
    have hpaid := h.completed t ht hst
    exact hpaid.of_sameOrder (.refl t) (hother t.id (hid t hpaid))
  · rcases Multiset.mem_cons.mp hℓ with rfl | hℓ
    · exact hknows t (h.known _ (Multiset.mem_cons_self ..) t ht)
    · exact hknows t (h.known ℓ (Multiset.mem_cons_of_mem hℓ) t ht)
  · refine le_trans ?_ (bound_mono hgrow id)
    have hle := h.owned id
    rw [Multiset.map_cons] at hle ⊢
    rw [Multiset.count_cons_of_ne (by simp)]
    by_cases hi : id = tx.id
    · subst hi
      rw [Multiset.count_cons_self] at hle
      rw [hself, List.length_append, List.length_singleton]
      omega
    · rw [hother id hi]
      have hne : Holding.owner id ≠ .owner tx.id := fun h => hi (Holding.owner.inj h)
      rwa [Multiset.count_cons_of_ne hne] at hle
  · rcases Multiset.mem_cons.mp hℓ with rfl | hℓ
    · obtain rfl := Holding.payer.inj ht
      refine ⟨hknows _ hknown, p, by rw [hself, hnone, List.nil_append], ?_, rfl⟩
      obtain ⟨t, ht, htx⟩ := hknown
      rw [htx.merchantSettlementPaise, h.amounts t ht, ← htx.amountInPaise]
      rfl
    · obtain ⟨hk, hpaid⟩ := h.paid ℓ (Multiset.mem_cons_of_mem hℓ) t ht
      exact ⟨hknows t hk, hpaid.of_sameOrder (.refl t) (hother t.id (hid t hpaid))⟩

end Calls

/-! ### Programs that keep what they hold -/

/-- Calls without a payout that complete nothing. -/
structure Op.Mild (op : Op) : Prop where
  pays : op.pays = false
  completes : ∀ id, ¬op.completes id
  fresh : op.createsFresh

/-- A class of calls without a payout, whose writes complete nothing and whose new rows are fresh. -/
lemma Op.mild_of {P : Op → Prop} {op : Op} (hpay : ∀ p, ¬P (.initiateUpiPayout p))
    (hupdate : ∀ i data, P (.updateTransaction i data) → data.status ≠ some .COMPLETED)
    (hcreate : ∀ t, P (.createTransaction t) → t.Fresh) (h : P op) : op.Mild := by
  cases op with
  | updateTransaction i data => exact ⟨rfl, fun j hj => hupdate i data h hj.2, trivial⟩
  | initiateUpiPayout p => exact (hpay p h).elim
  | createTransaction t => exact ⟨rfl, fun _ h => h, hcreate t h⟩
  | _ => exact ⟨rfl, fun _ h => h, trivial⟩

lemma Op.plain.mild {id : String} {op : Op} (h : op.plain id) : op.Mild :=
  Op.mild_of (fun _ h => h) (fun _ _ h => h.2.1) (fun _ => False.elim) h

lemma Op.failing.mild {id : String} {op : Op} (h : op.failing id) : op.Mild := by
  refine Op.mild_of (fun _ h => h) (fun i data h => ?_) (fun _ => False.elim) h
  rcases h.2 with hs | hs
  · simp [hs]
  · simp [hs]

lemma Op.polling.mild {op : Op} (h : op.polling) : op.Mild :=
  Op.mild_of (fun _ h => h) (fun _ _ => False.elim) (fun _ => False.elim) h

lemma Op.ticking.mild {op : Op} (h : op.ticking) : op.Mild :=
  Op.mild_of (fun _ h => h) (fun _ _ => False.elim) (fun _ => False.elim) h

lemma Op.requested.mild {op : Op} (h : op.requested) : op.Mild := by
  refine Op.mild_of (fun _ h => h) (fun i data h => ?_) (fun _ h => h) h
  rcases h with hs | hs
  · simp [hs]
  · simp [hs]

section Programs

variable {α : Type} {js : Js} {tx : Transaction} {ℓ : Hand} {p : Service α}

lemma Payees.mild {c : Request} {w w' : World} {r : Except String c.Res} {f : Multiset Hand}
    (h : Payees w f) (henv : env c w r w') (hc : c.op.Mild) : Payees w' f :=
  h.step (env_rowsKept hc.fresh henv) ((env_frame henv).payouts hc.pays) (env_frame henv).payments
    fun id hid => absurd hid (hc.completes id)

/-- The hand of a thread stays as it is. -/
abbrev keeps {α : Type} (ℓ : Hand) : Except String α → Hand → Prop :=
  upon (fun _ ℓ' => ℓ' = ℓ) fun ℓ' => ℓ'.known = ℓ.known

lemma keeps_self (r : Except String α) : keeps ℓ r ℓ := by
  cases r with
  | ok a => rfl
  | error e => rfl

lemma safe_mild (hp : p.All fun c => c.op.Mild) : Safe payees p ℓ (keeps ℓ) := by
  refine Safe.of_all hp keeps_self fun c hc => ⟨trivial, ?_⟩
  intro w f r w' hinv _ henv
  exact hinv.mild henv hc

lemma safe_mildBy {source : Source} {P : Op → Prop} (hP : ∀ op, P op → op.Mild)
    (hp : p.All (Request.By source P)) : Safe payees p ℓ (keeps ℓ) :=
  safe_mild (hp.mono fun _ hc => hP _ hc.2)

/-- The payer of a transaction may complete it. -/
lemma safe_closing {id : String} (hp : p.All (Closing id)) (hℓ : ℓ.holding = .payer tx)
    (hid : tx.id = id) : Safe payees p ℓ (keeps ℓ) := by
  refine Safe.of_all hp keeps_self fun c hc => ⟨trivial, ?_⟩
  intro w f r w' hinv _ henv
  obtain ⟨source, op⟩ := c
  obtain ⟨-, hop⟩ := hc
  have hpays : op.pays = false := by
    cases op with
    | initiateUpiPayout p => exact hop.elim
    | _ => rfl
  have hfresh : op.createsFresh := by
    cases op with
    | createTransaction t => exact hop.elim
    | _ => trivial
  have hself : ∀ i, op.completes i → i = id := by
    intro i hi
    cases op with
    | updateTransaction j data => exact hi.1.symm.trans hop.1
    | _ => exact hi.elim
  refine hinv.step (env_rowsKept hfresh henv) ((env_frame henv).payouts hpays)
    (env_frame henv).payments fun i hi => ?_
  exact ⟨ℓ, Multiset.mem_cons_self .., tx, hℓ, hid.trans (hself i hi).symm⟩

/-! ### The run of a transaction -/

/-- A thread goes on knowing what it knows. -/
abbrev recalls {α : Type} (known : List Transaction) : Except String α → Hand → Prop :=
  upon (fun _ ℓ => ℓ.known = known) fun ℓ => ℓ.known = known

namespace Processor

lemma safe_createHand {q : CreatePayment} (hq : q.paymentId = tx.id) :
    Safe payees (call (.run tx.id) (.createPayment q)) ℓ
      (upon (fun _ ℓ' => ℓ' = ⟨ℓ.known, .owner tx.id⟩) fun ℓ' => ℓ'.known = ℓ.known) := by
  refine safe_perform trivial ?_
  intro w f r w' hinv _ henv
  have hc : Op.Mild (.createPayment q) := ⟨rfl, fun _ h => h, trivial⟩
  have hinv' : Payees w' (ℓ ::ₘ f) := hinv.mild henv hc
  cases r with
  | error e => exact ⟨ℓ, hinv', rfl⟩
  | ok hash =>
    obtain ⟨hnew, hrecord⟩ := env_createPayment henv
    rw [hq] at hnew hrecord
    have hpayouts := (env_frame henv).payouts rfl
    exact ⟨_, hinv'.release.own hinv.release hpayouts hnew hrecord, rfl⟩

lemma safe_routeHand : Safe payees (route js tx) ℓ
    (upon (fun _ ℓ' => ℓ' = ⟨ℓ.known, .owner tx.id⟩) fun ℓ' => ℓ'.known = ℓ.known) := by
  refine safe_bind (safe_mildBy (fun _ => Op.plain.mild) plain_prepare) fun lookup ℓ₁ hℓ₁ => ?_
  obtain rfl := hℓ₁
  refine safe_bind (safe_createHand rfl) fun hash ℓ₂ hℓ₂ => ?_
  obtain rfl := hℓ₂
  refine safe_bind (safe_mildBy (fun _ => Op.plain.mild) plain_quote) fun _ ℓ₃ hℓ₃ => ?_
  obtain rfl := hℓ₃
  exact safe_mildBy (fun _ => Op.plain.mild) plain_convert

/-- Reading the merchant gives the VPA of the transaction that the thread knows. -/
lemma safe_findPayee (htx : tx ∈ ℓ.known) :
    Safe payees (call (.run tx.id) (.findMerchant tx.merchantId)) ℓ
      (upon (fun merchant ℓ' => ℓ' = ℓ ∧
          truthy ((merchant : Option Merchant).bind (·.defaultUpiVpa)) = some tx.merchantUpiVpa)
        fun ℓ' => ℓ'.known = ℓ.known) := by
  refine safe_perform trivial ?_
  intro w f r w' hinv hallowed henv
  have hc : Op.Mild (.findMerchant tx.merchantId) := ⟨rfl, fun _ h => h, trivial⟩
  refine ⟨ℓ, hinv.mild henv hc, ?_⟩
  cases r with
  | error e => rfl
  | ok merchant =>
    obtain ⟨t, ht, htx'⟩ := hinv.known ℓ (Multiset.mem_cons_self ..) tx htx
    refine ⟨rfl, (of_decide_eq_true hallowed t ht htx'.id.symm).trans ?_⟩
    rw [htx'.merchantUpiVpa]

lemma safe_payHand {name : String} {known : List Transaction} (htx : tx ∈ known) :
    Safe payees (call (.run tx.id)
      (.initiateUpiPayout (payoutRequest tx tx.merchantUpiVpa name))) ⟨known, .owner tx.id⟩
      (upon (fun _ ℓ' => ℓ' = ⟨known, .payer tx⟩) fun ℓ' => ℓ'.known = known) := by
  refine safe_perform trivial ?_
  intro w f r w' hinv _ henv
  have hgrow := (env_frame henv).payments
  have hrows := (env_frame henv).transactions rfl
  have heffect : ∀ {v : PayoutResult} {o : Oracle}, Backend.answer o (.initiateUpiPayout
      (payoutRequest tx tx.merchantUpiVpa name)) w.state = some (v, w'.state) →
      Payees w' (⟨known, .payer tx⟩ ::ₘ f) := by
    intro v o hans
    have hstate := congrArg (fun x => x.2.payouts) (Option.some.inj hans)
    exact hinv.pay htx hstate.symm hrows hgrow
  cases r with
  | ok v =>
    obtain ⟨o, hans⟩ := henv.2
    exact ⟨_, heffect hans, rfl⟩
  | error e =>
    refine ⟨⟨known, .nothing⟩, ?_, rfl⟩
    rcases Async.faulty_state henv with heq | ⟨v, o, hans⟩
    · refine Payees.release (ℓ := ⟨known, .owner tx.id⟩) (hinv.step (C := fun _ => False)
        (.of_perm (by rw [heq])) (by rw [heq]) hgrow fun _ h => h.elim)
    · exact (heffect hans).release

lemma safe_payMerchantHand {known : List Transaction} (htx : tx ∈ known) :
    Safe payees (payMerchant tx) ⟨known, .owner tx.id⟩
      (upon (fun _ ℓ' => ℓ' = ⟨known, .payer tx⟩) fun ℓ' => ℓ'.known = known) := by
  refine safe_bind (safe_findPayee htx) fun merchant ℓ hℓ => ?_
  obtain ⟨rfl, hvpa⟩ := hℓ
  cases merchant with
  | none => cases hvpa
  | some merchant =>
    have hvpa' : truthy merchant.defaultUpiVpa = some tx.merchantUpiVpa := hvpa
    dsimp only
    rw [hvpa']
    refine safe_bind (safe_payHand htx) fun result ℓ hℓ => ?_
    obtain rfl := hℓ
    refine safe_mild (all_bind (all_perform ?_) fun _ => all_pure _)
    exact ⟨rfl, fun _ h => h, trivial⟩

lemma safe_settleHand {known : List Transaction} {stellar : StellarResult} {attempt : ℕ}
    (htx : tx ∈ known) : Safe payees (settle tx stellar attempt) ⟨known, .owner tx.id⟩
      (recalls known) := by
  refine safe_bind (safe_mildBy (fun _ => Op.plain.mild) plain_markSettled) fun _ ℓ hℓ => ?_
  obtain rfl := hℓ
  refine safe_bind (safe_payMerchantHand htx) fun _ ℓ hℓ => ?_
  obtain rfl := hℓ
  refine safe_bind (safe_mildBy (fun _ => Op.plain.mild) plain_issueStarRewards)
    fun rewardResult ℓ hℓ => ?_
  obtain rfl := hℓ
  refine (safe_closing closing_complete rfl rfl).weaken (fun _ ℓ hℓ => ?_) fun _ h => h
  rw [hℓ]

lemma safe_abortHand {hash : Option String} {message : String} :
    Safe payees (abort tx hash message) ℓ (recalls ℓ.known) := by
  refine (safe_mildBy (fun _ => Op.failing.mild) failing_abort).weaken (fun _ ℓ' hℓ' => ?_)
    fun _ h => h
  rw [hℓ']

lemma safe_processHand {attempt : ℕ} (htx : tx ∈ ℓ.known) :
    Safe payees (processTransaction js tx attempt) ℓ (recalls ℓ.known) := by
  refine safe_attempt safe_routeHand (fun stellar ℓ₁ hℓ₁ => ?_) fun message ℓ₁ hℓ₁ => ?_
  · obtain rfl := hℓ₁
    refine safe_attempt (safe_settleHand htx) (fun _ ℓ₂ hℓ₂ => safe_pure hℓ₂)
      fun message ℓ₂ hℓ₂ => ?_
    rw [← hℓ₂]
    exact safe_abortHand
  · rw [← hℓ₁]
    exact safe_abortHand

lemma safe_retryHand {remaining : ℕ} (htx : tx ∈ ℓ.known) :
    Safe payees (retryFrom js tx remaining) ℓ (recalls ℓ.known) := by
  have hkept {ℓ₁ : Hand} {p : Service Unit} (hℓ₁ : ℓ₁.known = ℓ.known) (hp : Safe payees p ℓ₁ (keeps ℓ₁)) :
      Safe payees p ℓ₁ (recalls ℓ.known) := by
    refine hp.weaken (fun _ ℓ₂ hℓ₂ => ?_) fun _ hℓ₂ => hℓ₂.trans hℓ₁
    rw [hℓ₂, hℓ₁]
  refine safe_attempts (I := fun ℓ₁ => ℓ₁.known = ℓ.known) (F := fun ℓ₁ => ℓ₁.known = ℓ.known)
    (fun attempt ℓ₁ hℓ₁ => ?_) (fun message ℓ₁ hℓ₁ => ?_) (fun ms ℓ₁ hℓ₁ => ?_) rfl
  · rw [← hℓ₁] at htx ⊢
    exact safe_processHand htx
  · exact hkept hℓ₁ (safe_mildBy (fun _ => Op.failing.mild) failing_giveUp)
  · have hsleep : (call (.run tx.id) (.sleep ms)).All (Plain tx.id) := all_call trivial
    exact hkept hℓ₁ (safe_mildBy (fun _ => Op.plain.mild) hsleep)

/-- A tick learns the rows that it processes. -/
lemma safe_tickHand :
    Safe payees (handlePendingTransactions js) ℓ (upon (fun _ _ => True) fun _ => True) := by
  have hkeep : ∀ {op : Op} {ℓ : Hand}, op.ticking →
      Safe payees (call .tick op) ℓ (upon (fun _ _ => True) fun _ => True) := fun hop =>
    (safe_mild (all_perform hop.mild)).weaken (fun _ _ _ => trivial) fun _ _ => trivial
  have hfind {since : ℕ} {ℓ : Hand} : Safe payees (call .tick (.findAuthorized since)) ℓ
      (upon (fun txs ℓ' => ℓ'.known = txs) fun _ => True) := by
    refine safe_perform trivial ?_
    intro w f r w' hinv _ henv
    have hop : Op.ticking (.findAuthorized since) := trivial
    have hinv' : Payees w' (ℓ ::ₘ f) := hinv.mild henv hop.mild
    cases r with
    | error e => exact ⟨ℓ, hinv', trivial⟩
    | ok txs =>
      refine ⟨⟨txs, .nothing⟩, hinv'.learn fun tx htx => ?_, rfl⟩
      obtain ⟨o, hans⟩ := henv.2
      have hlist := congrArg Prod.fst (Option.some.inj hans)
      rw [(env_frame henv).transactions rfl]
      have hmem : tx ∈ (txs, w'.state).1 := htx
      rw [← hlist] at hmem
      exact List.mem_of_mem_filter (List.mem_of_mem_take hmem)
  have hticks := safe_ticks js (D := payees) (I := fun _ => True) (E := fun _ => True) (ℓ := ℓ)
    (R := fun txs ℓ => ℓ.known = txs) (fun hop _ => hkeep hop) (fun _ => hfind)
    (fun tx htx hℓ => (safe_retryHand (hℓ ▸ htx)).weaken (fun _ ℓ' hℓ' => hℓ'.trans hℓ) fun _ _ => trivial)
    trivial
  exact hticks.weaken (fun _ _ _ => trivial) fun _ h => h

end Processor

/-! ### The pipeline -/

lemma safe_startsHand {w : World} {q : Service Unit} (h : Starts js w q) :
    Safe payees q ℓ (upon (fun _ _ => True) fun _ => True) := by
  have hmild : ∀ {source : Source} {P : Op → Prop} {q : Service Unit}, (∀ op, P op → op.Mild) →
      q.All (Request.By source P) → Safe payees q ℓ (upon (fun _ _ => True) fun _ => True) :=
    fun hP hq => (safe_mildBy hP hq).weaken (fun _ _ _ => trivial) fun _ _ => trivial
  obtain rfl | rfl | hrequest := h.job_or_requested
  · exact Processor.safe_tickHand
  · exact hmild (fun _ => Op.polling.mild) Processor.polling_handlePendingSettlements
  · exact hmild (fun _ => Op.requested.mild) hrequest

lemma Payees.started {w : World} (h : Started w) : Payees w 0 := by
  have hnone : ∀ {ℓ : Hand}, ℓ ∉ (0 : Multiset Hand) := fun {ℓ} => Multiset.notMem_zero ℓ
  refine ⟨?_, ?_, ?_, fun ℓ hℓ => absurd hℓ hnone, fun id => ?_, fun ℓ hℓ => absurd hℓ hnone⟩
  · rw [h.transactions]
    exact .nil
  · rw [h.transactions]
    exact fun t ht => absurd ht List.not_mem_nil
  · rw [h.transactions]
    exact fun t ht => absurd ht List.not_mem_nil
  · rw [Backend.payoutsOf, h.payouts]
    exact Nat.zero_le _

theorem payees_governs : Async.Governs payees (setting js payeeAsScanned) where
  env _ _ _ _ h := h
  init _ h := .started h
  start w q h := by
    refine ⟨⟨[], .nothing⟩, (safe_startsHand h).mono fun _ _ _ => trivial, fun f hf => ?_⟩
    refine ⟨hf.nodup, hf.amounts, hf.completed, fun ℓ hℓ tx htx => ?_, fun id => ?_,
      fun ℓ hℓ tx htx => ?_⟩
    · rcases Multiset.mem_cons.mp hℓ with rfl | hℓ
      · exact absurd htx List.not_mem_nil
      · exact hf.known ℓ hℓ tx htx
    · rw [Multiset.map_cons, Multiset.count_cons_of_ne (by simp)]
      exact hf.owned id
    · rcases Multiset.mem_cons.mp hℓ with rfl | hℓ
      · cases htx
      · exact hf.paid ℓ hℓ tx htx
  world w w' f h hf :=
    hf.step (C := fun _ => False) (.of_perm h.2.transactions) h.2.payouts h.2.paymentsGrow
      fun _ h => h.elim
  cond _ _ _ _ _ _ h := h

/-- **Completed means the scanned payee was paid**, if the merchant's VPA is the transaction's
whenever a run reads it. -/
theorem completed_paid {s : Async.Pool World Request Request.Res String}
    (h : (pipeline js payeeAsScanned).Reachable s) {t : Transaction}
    (ht : t ∈ s.world.state.transactions) (hst : t.status = .COMPLETED) :
    s.world.state.PaidAsScanned t := by
  obtain ⟨f, -, hinv⟩ := Async.reachable_sound payees_governs h
  exact hinv.completed t ht hst

end Programs

/-! ### The shop -/

lemma payeeAsScanned_checkedBy : payeeAsScanned.CheckedBy readsPayee := fun _ _ _ _ _ h => h

/-- An order that leaves the VPA to the merchant is completed, and the merchant was paid. -/
theorem completed_paid_of_order : ∃ s, (pipeline OneOrder.js payeeAsScanned).Reachable s ∧
    ∃ t ∈ s.world.state.transactions, t.status = .COMPLETED ∧ s.world.state.PaidAsScanned t := by
  have hordered : Idle OneOrder.js payeeAsScanned (OneOrder.ordered OneOrder.order) :=
    OneOrder.ordered_idle payeeAsScanned_checkedBy (by decide +kernel) (by decide +kernel)
  obtain ⟨threads, hdone, hreach⟩ :=
    OneOrder.processing_reachable (n := 41) hordered payeeAsScanned_checkedBy (by decide +kernel)
  have hfinal := OneOrder.completing_reachable payeeAsScanned_checkedBy hdone hreach
    (by decide +kernel) (by decide +kernel)
  have hrow : ∃ t ∈ (OneOrder.completing OneOrder.order).2.state.transactions, t.status = .COMPLETED := by
    decide +kernel
  obtain ⟨t, ht, hst⟩ := hrow
  exact ⟨_, hfinal, t, ht, hst, completed_paid hfinal ht hst⟩

/-- An order with a VPA of its own, as a scanned code has it. -/
def OneOrder.scannedOrder : CreateTransactionDto :=
  { OneOrder.order with merchantUpiVpa := some "scanned@upi" }

/-- It is completed too, but the merchant's default VPA was paid. -/
theorem scanned_order_pays_default : ∃ s, (pipeline OneOrder.js anyAnswer).Reachable s ∧
    ∃ t ∈ s.world.state.transactions, t.status = .COMPLETED ∧ t.merchantUpiVpa = "scanned@upi" ∧
      (s.world.state.payoutsOf t.id).map (·.merchantUpiVpa) = ["shop@upi"] ∧
      ¬s.world.state.PaidAsScanned t := by
  have hordered : Idle OneOrder.js anyAnswer (OneOrder.ordered OneOrder.scannedOrder) :=
    OneOrder.ordered_idle OneOrder.anyAnswer_checkedBy (by decide +kernel) (by decide +kernel)
  obtain ⟨threads, hdone, hreach⟩ :=
    OneOrder.processing_reachable (n := 41) hordered OneOrder.anyAnswer_checkedBy (by decide +kernel)
  have hfinal := OneOrder.completing_reachable OneOrder.anyAnswer_checkedBy hdone hreach
    (by decide +kernel) (by decide +kernel)
  have hrow : ∃ t ∈ (OneOrder.completing OneOrder.scannedOrder).2.state.transactions,
      t.status = .COMPLETED ∧ t.merchantUpiVpa = "scanned@upi" ∧
      ((OneOrder.completing OneOrder.scannedOrder).2.state.payoutsOf t.id).map (·.merchantUpiVpa) =
        ["shop@upi"] := by
    decide +kernel
  obtain ⟨t, ht, hst, hvpa, hpaid⟩ := hrow
  refine ⟨_, hfinal, t, ht, hst, hvpa, hpaid, ?_⟩
  rintro ⟨p, hp, -, hpvpa⟩
  rw [hp, List.map_singleton, hpvpa, hvpa] at hpaid
  exact absurd hpaid (by decide)

end PayEra.Api
