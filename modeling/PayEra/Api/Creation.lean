import PayEra.Lib.Protocol
import PayEra.Api.Sessions

/-!
# What a creation leaves behind

`create` writes the transaction, an entry of the admin log and the reward, one after the other and
each on its own. A creation that fails in between leaves a transaction without a reward, and a tick
may claim the transaction before its reward is there. A reward of zero, which every amount of less
than a hundred rupees has, is refused by the database.

The ghost state of a creating session says how far it is, and with which amount.
-/

namespace PayEra.Api

open Async (Program Event Safe Protocol upon safe_pure safe_bind safe_forM)
open Async.Program

/-! ### A transaction and its reward -/

/-- The transaction has a `SPEND` reward of the calculated amount. -/
def Backend.Rewarded (b : Backend) (id : String) (amountInPaise : ℤ) : Prop :=
  ∃ r ∈ b.rewards, r.transactionId = some id ∧ r.reason = .SPEND ∧
    r.starAmount = calculateSpendRewardStar amountInPaise

def creates (n : ℕ) (id : String) (e : Async.Effect Backend Request) : Bool :=
  match e.op.op with
  | .createTransaction t => decide (e.session = n ∧ t.row.id = id)
  | _ => false

def grants (n : ℕ) (e : Async.Effect Backend Request) : Bool :=
  match e.op.op with
  | .createReward _ => decide (e.session = n)
  | _ => false

/-- The session `n` has written the transaction `id`, with its event and its settlement. -/
def Created (n : ℕ) (id : String) (w : Office) : Prop := ∃ e ∈ w.effects, creates n id e

/-- The session `n` has written a reward. -/
def Granted (n : ℕ) (w : Office) : Prop := ∃ e ∈ w.effects, grants n e

instance (n : ℕ) (id : String) (w : Office) : Decidable (Created n id w) :=
  inferInstanceAs (Decidable (∃ e ∈ w.effects, _))

instance (n : ℕ) (w : Office) : Decidable (Granted n w) :=
  inferInstanceAs (Decidable (∃ e ∈ w.effects, _))

/-- The session `n` has written the transaction but not yet its reward. -/
def Halfway (n : ℕ) (id : String) (w : Office) : Prop := Created n id w ∧ ¬Granted n w

/-- A transaction without its reward is one whose creation is still on its way, a tick claims no such
transaction, a run finds the reward that it looks for, and a request that throws has written
nothing. -/
structure AllOrNothing (w : Office) : Prop where
  rewarded : ∀ t ∈ w.state.transactions, w.state.Rewarded t.id t.amountInPaise ∨
    ∃ n, Halfway n t.id w ∧ ∀ a, ¬w.Finished n a
  claimed : ∀ e ∈ w.effects, ∀ time at', e.op.op = .claimTransactions time at' →
    ∀ t ∈ e.found.transactions, Backend.claimable time t → e.found.Rewarded t.id t.amountInPaise
  found : ∀ n id i, ¬w.Answered n ⟨.run id, .findSpendReward i⟩ (.ok none)
  thrown : ∀ n e, w.Finished n (.error e) → (∀ id, ¬Created n id w) ∧ ¬Granted n w

/-- Amounts are a hundred rupees at least; once a creation has written its transaction, no call of it
fails that the database could answer; and no tick claims a transaction whose creation is halfway. -/
def thorough : OfficeCondition := fun _ e w r => match e with
  | .begin _ (.create _ dto) => 10000 ≤ dto.amountInPaise
  | .call n c => ((∃ id, Created n id w) → r.isOk ∨ ∀ v b, ¬Returns c w.state v b) ∧
      ∀ time at', c.op = .claimTransactions time at' → ∀ m id, Halfway m id w →
        ¬(w.state.transaction id).any (Backend.claimable time)
  | _ => True

/-- The rest of the system, which keeps rewards for what they are. -/
structure KeepsRewards (b b' : Backend) : Prop extends Backend.Other b b' where
  rewards : ∀ r ∈ b.rewards, ∃ r' ∈ b'.rewards, r'.transactionId = r.transactionId ∧
    r'.reason = r.reason ∧ r'.starAmount = r.starAmount

/-- A creation of a transaction that throws has not written it. -/
def Request.createsTransaction (c : Request) : Prop := ∃ t, c.op = .createTransaction t

/-! ### Rewards -/

section Rewards

variable {c : Request} {b b' : Backend} {id : String} {amountInPaise : ℤ}

lemma Backend.Rewarded.of_kept (h : b.Rewarded id amountInPaise)
    (hb : ∀ r ∈ b.rewards, ∃ r' ∈ b'.rewards, r'.transactionId = r.transactionId ∧
      r'.reason = r.reason ∧ r'.starAmount = r.starAmount) : b'.Rewarded id amountInPaise := by
  obtain ⟨r, hr, hid, hreason, hstar⟩ := h
  obtain ⟨r', hr', hid', hreason', hstar'⟩ := hb r hr
  exact ⟨r', hr', hid'.trans hid, hreason'.trans hreason, hstar'.trans hstar⟩

/-- No call takes a reward away. -/
lemma Evolves.rewarded (h : Evolves c b b') (hb : b.Rewarded id amountInPaise) :
    b'.Rewarded id amountInPaise := by
  apply hb.of_kept
  intro r hr
  by_cases hop : c.op.writesRewards
  · rcases h with rfl | ⟨v, o, hans⟩
    · exact ⟨r, hr, rfl, rfl, rfl⟩
    · obtain ⟨source, op⟩ := c
      cases op with
      | updateReward i data =>
        simp only [Backend.answer] at hans
        split_ifs at hans
        cases hans
        refine ⟨_, List.mem_map_of_mem hr, ?_⟩
        split_ifs
        · exact ⟨rfl, rfl, rfl⟩
        · exact ⟨rfl, rfl, rfl⟩
      | createReward new =>
        simp only [Backend.answer] at hans
        split_ifs at hans
        cases hans
        exact ⟨r, List.mem_append_left _ hr, rfl, rfl, rfl⟩
      | _ => cases hop
  · rw [Bool.not_eq_true] at hop
    rw [h.frame.rewards hop]
    exact ⟨r, hr, rfl, rfl, rfl⟩

/-- The row has its reward. -/
def Backend.Served (b : Backend) (id : String) : Prop :=
  ∃ t, b.transaction id = some t ∧ b.Rewarded id t.amountInPaise

/-- No call changes the amount of a row. -/
lemma Evolves.amount (h : Evolves c b b') {t : Transaction} (ht : b.transaction id = some t) :
    ∃ t', b'.transaction id = some t' ∧ t'.amountInPaise = t.amountInPaise := by
  rcases h.row id with heq | heq
  · exact ⟨t, heq.trans ht, rfl⟩
  · rw [heq, ht]
    obtain ⟨source, op⟩ := c
    cases op with
    | claimTransactions time authorizedAt =>
      refine ⟨_, rfl, ?_⟩
      dsimp only
      split_ifs
      · rfl
      · rfl
    | updateTransaction i data =>
      by_cases hi : i = id
      · exact ⟨t.update data, by simp [Op.row, hi], rfl⟩
      · exact ⟨t, by simp [Op.row, hi], rfl⟩
    | _ => exact ⟨t, rfl, rfl⟩

lemma Evolves.served (h : Evolves c b b') (hb : b.Served id) : b'.Served id := by
  obtain ⟨t, ht, hrewarded⟩ := hb
  obtain ⟨t', ht', hamount⟩ := h.amount ht
  exact ⟨t', ht', hamount ▸ h.rewarded hrewarded⟩

end Rewards

/-! ### The protocol -/

inductive Draft where
  | away
  | plain (n : ℕ)
  | working (n : ℕ) (ids : List String)
  | drafting (n : ℕ) (amountInPaise : ℤ)
  | pending (n : ℕ) (id : String) (amountInPaise : ℤ)
  | granted (n : ℕ)

def Draft.number : Draft → Option ℕ
  | .away => none
  | .plain n | .working n _ | .drafting n _ | .pending n _ _ | .granted n => some n

/-- What the sessions share: a transaction without its reward is pending and not `AUTHORIZED`, and
what is being run has its reward. -/
structure Honoured (w : Office) (f : Multiset Draft) : Prop where
  distinct : w.state.Distinct
  row : ∀ id t, w.state.transaction id = some t → w.state.Rewarded id t.amountInPaise ∨
    t.status ≠ .AUTHORIZED ∧ ∃ n, .pending n id t.amountInPaise ∈ f
  ran : ∀ n ids, .working n ids ∈ f → ∀ id ∈ ids, w.state.Served id
  claimed : ∀ e ∈ w.effects, ∀ time at', e.op.op = .claimTransactions time at' →
    ∀ t ∈ e.found.transactions, Backend.claimable time t → e.found.Rewarded t.id t.amountInPaise
  found : ∀ n id i, ¬w.Answered n ⟨.run id, .findSpendReward i⟩ (.ok none)

def drafts : Protocol Backend Asked Request Request.Res String Unit Draft where
  number := Draft.number
  idle := .away
  allowed e w r := thorough 0 e w r
  link ℓ c := c.Usual ∧ ∀ id, c.source = .run id → ∃ n ids, ℓ = .working n ids ∧ id ∈ ids
  base := Honoured
  mine ℓ w := match ℓ with
    | .away | .granted _ => True
    | .plain n | .working n _ => (∀ id, ¬Created n id w) ∧ ¬Granted n w
    | .drafting n a => 10000 ≤ a ∧ (∀ id, ¬Created n id w) ∧ ¬Granted n w
    | .pending n id a => 10000 ≤ a ∧ Created n id w ∧ ¬Granted n w
  ended n r w := ∀ e, r = .error e → (∀ id, ¬Created n id w) ∧ ¬Granted n w

section Agrees

variable {n : ℕ} {id : String} {w w' : Office}

lemma created_agrees (h : w.Agrees n w') : Created n id w' ↔ Created n id w := by
  apply h.exists_effect
  intro e he
  obtain ⟨m, ⟨source, op⟩, b⟩ := e
  cases op with
  | createTransaction t => exact (of_decide_eq_true he).1
  | _ => cases he

lemma granted_agrees (h : w.Agrees n w') : Granted n w' ↔ Granted n w := by
  apply h.exists_effect
  intro e he
  obtain ⟨m, ⟨source, op⟩, b⟩ := e
  cases op with
  | createReward r => exact of_decide_eq_true he
  | _ => cases he

end Agrees

lemma drafts_lawful : drafts.Lawful where
  idle := rfl
  mine n ℓ w w' hn h hmine := by
    cases ℓ with
    | away => cases hn
    | granted m => trivial
    | _ =>
      cases hn
      simp only [drafts, created_agrees h, granted_agrees h]
      exact hmine
  ended n a w w' h hover := by
    simp only [drafts, created_agrees h, granted_agrees h]
    exact hover

/-! ### Calls -/

section Calls

variable {lossless : Request → Prop} {c : Request} {w w' : Office} {r : Except String c.Res}
  {f : Multiset Draft} {ℓ ℓ' : Draft} {n : ℕ} {id : String}

lemma halfway_of_pending (hinv : drafts.Inv w f) {a : ℤ} (h : .pending n id a ∈ f) :
    Halfway n id w := by
  obtain ⟨-, hcreated, hgranted⟩ := (hinv.running _ h n rfl).2.2
  exact ⟨hcreated, hgranted⟩

lemma created_happens (h : Async.happens Returns Total lossless (.call n c) w r w') {m : ℕ}
    (hid : Created m id w') : Created m id w ∨ n = m ∧ ∃ t, c.op = .createTransaction t := by
  obtain ⟨x, hx, hcreates⟩ := hid
  rcases Async.happens_call h with ⟨-, heq⟩ | ⟨-, heq⟩
  · rw [heq] at hx
    exact .inl ⟨x, hx, hcreates⟩
  · rw [heq] at hx
    rcases List.mem_append.mp hx with hx | hx
    · exact .inl ⟨x, hx, hcreates⟩
    · obtain rfl := List.mem_singleton.mp hx
      obtain ⟨source, op⟩ := c
      cases op with
      | createTransaction t => exact .inr ⟨(of_decide_eq_true hcreates).1, t, rfl⟩
      | _ => cases hcreates

lemma granted_happens (h : Async.happens Returns Total lossless (.call n c) w r w') {m : ℕ}
    (hm : Granted m w') : Granted m w ∨ n = m ∧ ∃ reward, c.op = .createReward reward := by
  obtain ⟨x, hx, hgrants⟩ := hm
  rcases Async.happens_call h with ⟨-, heq⟩ | ⟨-, heq⟩
  · rw [heq] at hx
    exact .inl ⟨x, hx, hgrants⟩
  · rw [heq] at hx
    rcases List.mem_append.mp hx with hx | hx
    · exact .inl ⟨x, hx, hgrants⟩
    · obtain rfl := List.mem_singleton.mp hx
      obtain ⟨source, op⟩ := c
      cases op with
      | createReward reward => exact .inr ⟨of_decide_eq_true hgrants, reward, rfl⟩
      | _ => cases hgrants

lemma created_mono (h : Async.happens Returns Total lossless (.call n c) w r w') {m : ℕ}
    (hid : Created m id w) : Created m id w' := by
  obtain ⟨x, hx, hcreates⟩ := hid
  exact ⟨x, Async.happens_effects h hx, hcreates⟩

/-- What a run works on has its reward. -/
lemma Honoured.served (h : Honoured w (ℓ ::ₘ f)) (hlink : drafts.link ℓ c)
    (hid : c.source = .run id) : w.state.Served id := by
  obtain ⟨m, ids, rfl, hmem⟩ := hlink.2 id hid
  exact h.ran m ids (Multiset.mem_cons_self ..) id hmem

/-- What a tick claims has its reward. -/
lemma rewarded_of_claimable (h : drafts.Inv w f) (hthorough : thorough 0 (.call n c) w r)
    {time at' : ℕ} (hop : c.op = .claimTransactions time at') {t : Transaction}
    (ht : t ∈ w.state.transactions) (htime : Backend.claimable time t) :
    w.state.Rewarded t.id t.amountInPaise := by
  have hbase : Honoured w f := h.base
  have hrow := transaction_of_mem hbase.distinct ht
  rcases hbase.row t.id t hrow with hrewarded | ⟨-, m, hm⟩
  · exact hrewarded
  · refine absurd ?_ (hthorough.2 time at' hop m t.id (halfway_of_pending h hm))
    rw [hrow]
    exact htime

/-- A row that was there is still pending or has its reward, if its amount is the same and it is not
`AUTHORIZED` by the call without a reward. -/
lemma Honoured.row_kept (h : Honoured w (ℓ ::ₘ f)) (hevolves : Evolves c w.state w'.state)
    (hpending : ∀ m id a, .pending m id a ∈ ℓ ::ₘ f →
      .pending m id a ∈ ℓ' ::ₘ f ∨ w'.state.Rewarded id a) {t t' : Transaction}
    (ht : w.state.transaction id = some t) (hamount : t'.amountInPaise = t.amountInPaise)
    (hstatus : t'.status ≠ .AUTHORIZED ∨ w.state.Rewarded id t.amountInPaise ∨ t'.status = t.status) :
    w'.state.Rewarded id t'.amountInPaise ∨
      t'.status ≠ .AUTHORIZED ∧ ∃ n, .pending n id t'.amountInPaise ∈ ℓ' ::ₘ f := by
  rw [hamount]
  rcases h.row id t ht with hrewarded | ⟨hne, m, hm⟩
  · exact .inl (hevolves.rewarded hrewarded)
  · rcases hpending m id _ hm with hm | hrewarded
    · rcases hstatus with hstatus | hrewarded | heq
      · exact .inr ⟨hstatus, m, hm⟩
      · exact .inl (hevolves.rewarded hrewarded)
      · exact .inr ⟨heq ▸ hne, m, hm⟩
    · exact .inl hrewarded

/-- A fetched or a claimed row, a row that is written to, and a new one are each pending or have their
reward. -/
lemma Honoured.row_step (h : drafts.Inv w (ℓ ::ₘ f)) (hlink : drafts.link ℓ c)
    (hthorough : thorough 0 (.call n c) w r)
    (hhappens : Async.happens Returns Total lossless (.call n c) w r w')
    (hcreate : ∀ t, c.op = .createTransaction t → w'.state = w.state ∨
      .pending n t.row.id t.row.amountInPaise ∈ ℓ' ::ₘ f)
    (hpending : ∀ m id a, .pending m id a ∈ ℓ ::ₘ f →
      .pending m id a ∈ ℓ' ::ₘ f ∨ w'.state.Rewarded id a)
    {t' : Transaction} (ht' : w'.state.transaction id = some t') :
    w'.state.Rewarded id t'.amountInPaise ∨
      t'.status ≠ .AUTHORIZED ∧ ∃ n, .pending n id t'.amountInPaise ∈ ℓ' ::ₘ f := by
  have hbase : Honoured w (ℓ ::ₘ f) := h.base
  have hevolves := evolves_happens hhappens
  have husual := hlink.1
  have hold : ∀ t, w.state.transaction id = some t → t'.amountInPaise = t.amountInPaise →
      t'.status ≠ .AUTHORIZED ∨ w.state.Rewarded id t.amountInPaise ∨ t'.status = t.status →
      w'.state.Rewarded id t'.amountInPaise ∨
        t'.status ≠ .AUTHORIZED ∧ ∃ n, .pending n id t'.amountInPaise ∈ ℓ' ::ₘ f :=
    fun t => hbase.row_kept hevolves hpending
  rcases hevolves.row id with heq | heq
  · rw [heq] at ht'
    exact hold t' ht' rfl (.inr (.inr rfl))
  · rw [heq] at ht'
    obtain ⟨source, op⟩ := c
    cases op with
    -- the condition has a claimed row rewarded already
    | claimTransactions time authorizedAt =>
      obtain ⟨t, ht, hrow⟩ := Option.map_eq_some_iff.mp ht'
      by_cases htime : Backend.claimable time t
      · rw [if_pos htime] at hrow
        subst hrow
        have hid : t.id = id := id_of_transaction ht
        refine hold t ht rfl (.inr (.inl ?_))
        rw [← hid]
        exact rewarded_of_claimable h hthorough rfl (mem_of_transaction ht) htime
      · rw [if_neg htime] at hrow
        subst hrow
        exact hold t ht rfl (.inr (.inr rfl))
    -- a run has found the reward, and a request writes a status that is not `AUTHORIZED`
    | updateTransaction i data =>
      by_cases hi : i = id
      · simp only [Op.row, if_pos hi] at ht'
        obtain ⟨t, ht, hrow⟩ := Option.map_eq_some_iff.mp ht'
        subst hrow hi
        refine hold t ht rfl ?_
        cases source with
        | run j =>
          obtain ⟨rfl, -⟩ := husual
          obtain ⟨t₀, ht₀, hrewarded⟩ := hbase.served hlink rfl
          obtain rfl := Option.some.inj (ht.symm.trans ht₀)
          exact .inr (.inl hrewarded)
        | request =>
          left
          rw [status_update]
          rcases husual with hdata | hdata
          · simp [hdata]
          · simp [hdata]
        | _ => exact husual.elim
      · simp only [Op.row, if_neg hi] at ht'
        exact hold t' ht' rfl (.inr (.inr rfl))
    -- a new row is `CREATED`, and its session owes the reward
    | createTransaction new =>
      cases ht : w.state.transaction id with
      | some t =>
        rw [ht] at ht'
        obtain rfl : t = t' := Option.some.inj ht'
        exact hold t ht rfl (.inr (.inr rfl))
      | none =>
        rcases hcreate new rfl with hsame | hmem
        · rw [hsame, ht] at heq
          rw [ht, ← heq] at ht'
          cases ht'
        · rw [ht, Op.row, Option.none_or] at ht'
          by_cases hid : new.row.id = id
          · rw [if_pos hid] at ht'
            cases ht'
            subst hid
            refine .inr ⟨?_, n, hmem⟩
            cases source with
            | request => simp [husual.status]
            | _ => exact husual.elim
          · rw [if_neg hid] at ht'
            cases ht'
    | _ => exact hold t' ht' rfl (.inr (.inr rfl))

/-- A fetched or a claimed row, a row that is written to, and a new one: every call of a session keeps
what the sessions share, if a new row is pending and what is no longer pending has its reward. -/
theorem Honoured.step (h : drafts.Inv w (ℓ ::ₘ f)) (hlink : drafts.link ℓ c)
    (hthorough : thorough 0 (.call n c) w r)
    (hhappens : Async.happens Returns Total lossless (.call n c) w r w')
    (hcreate : ∀ t, c.op = .createTransaction t → w'.state = w.state ∨
      .pending n t.row.id t.row.amountInPaise ∈ ℓ' ::ₘ f)
    (hpending : ∀ m id a, .pending m id a ∈ ℓ ::ₘ f →
      .pending m id a ∈ ℓ' ::ₘ f ∨ w'.state.Rewarded id a)
    (hworking : ∀ m ids, .working m ids = ℓ' → .working m ids = ℓ ∨
      ∀ id ∈ ids, w'.state.Served id) : Honoured w' (ℓ' ::ₘ f) := by
  have hbase : Honoured w (ℓ ::ₘ f) := h.base
  have hevolves := evolves_happens hhappens
  refine ⟨hevolves.distinct hbase.distinct,
    fun id t' => Honoured.row_step h hlink hthorough hhappens hcreate hpending,
    fun m ids hmem id hid => ?_, fun x hx time at' hop t ht htime => ?_,
    fun m id i hanswered => ?_⟩
  · rcases Multiset.mem_cons.mp hmem with heq | hmem
    · rcases hworking m ids heq with heq' | hnew
      · exact hevolves.served (hbase.ran m ids (heq' ▸ Multiset.mem_cons_self ..) id hid)
      · exact hnew id hid
    · exact hevolves.served (hbase.ran m ids (Multiset.mem_cons_of_mem hmem) id hid)
  · rcases Async.happens_call hhappens with ⟨-, heq⟩ | ⟨-, heq⟩
    · rw [heq] at hx
      exact hbase.claimed x hx time at' hop t ht htime
    · rw [heq] at hx
      rcases List.mem_append.mp hx with hx | hx
      · exact hbase.claimed x hx time at' hop t ht htime
      · obtain rfl := List.mem_singleton.mp hx
        exact rewarded_of_claimable h hthorough hop ht htime
  · rw [Async.Journal.Answered, Async.happens_entries hhappens] at hanswered
    rcases List.mem_append.mp hanswered with hanswered | hnew
    · exact hbase.found m id i hanswered
    · cases List.mem_singleton.mp hnew
      obtain rfl : i = id := hlink.1
      obtain ⟨t, -, reward, hreward, hid, hreason, -⟩ := hbase.served hlink rfl
      obtain ⟨o, hans⟩ := hhappens.2.1
      have hnone := (Prod.mk.inj (Option.some.inj hans)).1
      exact List.find?_eq_none.mp hnone reward hreward (decide_eq_true ⟨hid, hreason⟩)

/-- A call that writes neither a transaction nor a reward. -/
def Request.Modest (c : Request) : Prop :=
  ¬c.createsTransaction ∧ ∀ reward, c.op ≠ .createReward reward

lemma mine_modest (hmine : drafts.mine ℓ w) (hc : c.Modest)
    (hhappens : Async.happens Returns Total lossless (.call n c) w r w') : drafts.mine ℓ w' := by
  have hcreated : ∀ m id, Created m id w' ↔ Created m id w := by
    refine fun m id => ⟨fun h => ?_, created_mono hhappens⟩
    rcases created_happens hhappens h with h | ⟨-, t, heq⟩
    · exact h
    · exact absurd ⟨t, heq⟩ hc.1
  have hgranted : ∀ m, Granted m w' ↔ Granted m w := by
    intro m
    constructor
    · intro h
      rcases granted_happens hhappens h with h | ⟨-, reward, heq⟩
      · exact h
      · exact absurd heq (hc.2 reward)
    · rintro ⟨x, hx, hgrants⟩
      exact ⟨x, Async.happens_effects hhappens hx, hgrants⟩
  cases ℓ with
  | away | granted => trivial
  | _ =>
    simp only [drafts, hcreated, hgranted]
    exact hmine

lemma base_modest (hinv : drafts.Inv w (ℓ ::ₘ f)) (hlink : drafts.link ℓ c) (hc : c.Modest)
    (hthorough : thorough 0 (.call n c) w r)
    (hhappens : Async.happens Returns Total lossless (.call n c) w r w') : Honoured w' (ℓ ::ₘ f) :=
  Honoured.step hinv hlink hthorough hhappens (fun t ht => absurd ⟨t, ht⟩ hc.1)
    (fun _ _ _ h => .inl h) fun _ _ h => .inl h

end Calls

/-! ### Safe programs -/

section Programs

variable {α : Type} {js : Js} {lossless : Request → Prop} {n : ℕ} {ℓ : Draft} {p : Service α}

/-- Calls that keep the ghost state. -/
lemma safe_modest (hn : ℓ.number = some n)
    (hp : p.All fun c => drafts.link ℓ c ∧ c.Modest) {R : Except String α → Draft → Prop}
    (hR : ∀ r, R r ℓ) : Safe ((drafts.discipline Returns Total lossless).at n) p ℓ R := by
  apply Protocol.safe_all drafts_lawful hp hR hn
  intro c hc
  refine ⟨hc.1, fun w f r w' hinv hmine hthorough hhappens => ?_⟩
  exact ⟨base_modest hinv hc.1 hc.2 hthorough hhappens, mine_modest hmine hc.2 hhappens⟩

/-- Usual calls that are made for no run. -/
lemma modest_of {source : Source} {P : Op → Prop} (hp : p.All (Request.By source P))
    (hsource : ∀ id, source ≠ .run id) (husual : ∀ op, P op → Request.Usual ⟨source, op⟩)
    (hcreate : ∀ t, ¬P (.createTransaction t)) (hreward : ∀ r, ¬P (.createReward r)) :
    p.All fun c => drafts.link ℓ c ∧ c.Modest := by
  refine hp.mono fun c hc => ?_
  obtain ⟨source, op⟩ := c
  obtain ⟨rfl, hop⟩ := hc
  refine ⟨⟨husual op hop, fun id hid => absurd hid (hsource id)⟩, ?_, fun reward heq => ?_⟩
  · rintro ⟨t, heq⟩
    exact hcreate t (heq ▸ hop)
  · exact hreward reward (heq ▸ hop)

lemma modest_ticking {op : Op} (hop : op.ticking) :
    (call .tick op).All fun c => drafts.link ℓ c ∧ c.Modest :=
  modest_of (P := Op.ticking) (all_call hop) (fun id h => by cases h) (fun _ h => h) (fun _ h => h)
    fun _ h => h

namespace Processor

lemma safe_fetchDrafts {since : ℕ} : Safe ((drafts.discipline Returns Total lossless).at n)
    (call .tick (.findAuthorized since)) (.plain n)
    (upon (fun rows ℓ => ℓ = .working n (List.map Transaction.id rows)) fun ℓ => ℓ = .plain n) := by
  have hlink : ∀ ℓ, drafts.link ℓ ⟨.tick, .findAuthorized since⟩ := fun ℓ =>
    ⟨trivial, fun id h => by cases h⟩
  have hmodest : Request.Modest ⟨.tick, .findAuthorized since⟩ :=
    ⟨fun ⟨_, h⟩ => (by cases h), fun _ h => by cases h⟩
  apply Protocol.safe_call drafts_lawful rfl (hlink _)
  intro w f r w' hinv hmine hthorough hhappens
  have hmine' := mine_modest hmine hmodest hhappens
  cases r with
  | error e =>
    exact ⟨.plain n, rfl, base_modest hinv (hlink _) hmodest hthorough hhappens, hmine', rfl⟩
  | ok rows =>
    refine ⟨.working n (List.map Transaction.id rows), rfl, ?_, hmine', rfl⟩
    apply Honoured.step hinv (hlink _) hthorough hhappens
    · intro t ht
      cases ht
    · intro m id a hm
      rcases Multiset.mem_cons.mp hm with heq | hm
      · cases heq
      · exact .inl (Multiset.mem_cons_of_mem hm)
    · intro m ids heq
      cases heq
      right
      intro id hid
      have hbase : Honoured w (.plain n ::ₘ f) := hinv.base
      obtain ⟨t, ht, rfl⟩ := List.mem_map.mp hid
      obtain ⟨hsame, hrows⟩ := fetched_rows hhappens.2.1
      rw [hrows] at ht
      obtain ⟨hmem, hmatch⟩ := List.mem_filter.mp (List.mem_of_mem_take ht)
      have hrow := transaction_of_mem hbase.distinct hmem
      rw [hsame]
      rcases hbase.row t.id t hrow with hrewarded | ⟨hne, -⟩
      · exact ⟨t, hrow, hrewarded⟩
      · exact absurd (of_decide_eq_true hmatch).1 hne

lemma safe_tickDrafts : Safe ((drafts.discipline Returns Total lossless).at n)
    (handlePendingTransactions js) (.plain n)
    (upon (fun _ ℓ => ℓ = .plain n ∨ ∃ ids, ℓ = .working n ids)
      fun ℓ => ℓ = .plain n ∨ ∃ ids, ℓ = .working n ids) := by
  have hcall : ∀ {op : Op}, op.ticking → Safe ((drafts.discipline Returns Total lossless).at n)
      (call .tick op) (.plain n) (upon (fun _ ℓ => ℓ = .plain n)
        fun ℓ => ℓ = .plain n ∨ ∃ ids, ℓ = .working n ids) := by
    intro op hop
    apply safe_modest rfl (modest_ticking hop)
    intro r
    cases r with
    | ok v => rfl
    | error e => exact .inl rfl
  have hfetch {since : ℕ} {ℓ : Draft} (hℓ : ℓ = .plain n) :
      Safe ((drafts.discipline Returns Total lossless).at n) (call .tick (.findAuthorized since)) ℓ
        (upon (fun rows ℓ => ℓ = .working n (List.map Transaction.id rows))
          fun ℓ => ℓ = .plain n ∨ ∃ ids, ℓ = .working n ids) := by
    rw [hℓ]
    exact safe_fetchDrafts.weaken (fun _ _ h => h) fun _ h => .inl h
  have hprocess {rows : List Transaction} (tx : Transaction) (htx : tx ∈ rows) :
      Safe ((drafts.discipline Returns Total lossless).at n) (processTransactionWithRetry js tx)
        (.working n (List.map Transaction.id rows))
        (upon (fun _ ℓ => ℓ = .working n (List.map Transaction.id rows))
          fun ℓ => ℓ = .plain n ∨ ∃ ids, ℓ = .working n ids) := by
    have hrun : (processTransactionWithRetry js tx).All (Running tx.id) := running_retryFrom
    apply safe_modest rfl
    · refine ((usual_run hrun).and hrun).mono fun c hc => ?_
      obtain ⟨source, op⟩ := c
      obtain ⟨husual, rfl, hop⟩ := hc
      refine ⟨⟨husual, fun id hid => ?_⟩, fun ⟨t, heq⟩ => ?_, fun reward heq => ?_⟩
      · cases hid
        exact ⟨n, _, rfl, List.mem_map_of_mem htx⟩
      · exact (heq ▸ hop : Op.running tx.id (.createTransaction t))
      · exact (heq ▸ hop : Op.running tx.id (.createReward reward))
    · intro r
      cases r with
      | ok v => rfl
      | error e => exact .inr ⟨_, rfl⟩
  have hticks := safe_ticks js (D := (drafts.discipline Returns Total lossless).at n)
    (I := fun ℓ => ℓ = .plain n) (E := fun ℓ => ℓ = .plain n ∨ ∃ ids, ℓ = .working n ids)
    (R := fun rows ℓ => ℓ = .working n (List.map Transaction.id rows)) (fun hop hℓ => hℓ ▸ hcall hop)
    (fun hℓ => hfetch hℓ) (fun tx htx hℓ => hℓ ▸ hprocess tx htx) rfl
  exact hticks.weaken (fun _ ℓ hℓ => hℓ.imp_right fun ⟨rows, h⟩ => ⟨_, h⟩) fun _ h => h

end Processor

namespace Transactions

variable {owner : Principal} {dto : CreateTransactionDto} {id : String} {a : ℤ}

lemma modest_checking (hp : p.All Checking) : p.All fun c => drafts.link ℓ c ∧ c.Modest := by
  apply modest_of hp (fun id h => by cases h) _ (fun _ h => h) fun _ h => h
  intro op hop
  cases op with
  | now | uuid | findWallet | findMerchant | findActiveQrCode | fetchRates => trivial
  | _ => exact hop.elim

/-- Nothing is written before the transaction is. -/
lemma safe_drafting (hp : p.All Checking) :
    Safe ((drafts.discipline Returns Total lossless).at n) p (.drafting n a)
      (upon (fun _ ℓ => ℓ = .drafting n a) fun ℓ => ℓ = .drafting n a) := by
  apply safe_modest rfl (modest_checking hp)
  intro r
  cases r with
  | ok v => rfl
  | error e => rfl

/-- The transaction is written with its amount, or not at all. -/
lemma safe_createTransaction {t : NewTransaction} (ht : t.Fresh) :
    Safe ((drafts.discipline Returns Total Request.createsTransaction).at n)
      (call .request (.createTransaction t)) (.drafting n t.row.amountInPaise)
      (upon (fun _ ℓ => ℓ = .pending n t.row.id t.row.amountInPaise)
        fun ℓ => ℓ = .drafting n t.row.amountInPaise) := by
  have hlink : ∀ ℓ, drafts.link ℓ ⟨.request, .createTransaction t⟩ := fun ℓ =>
    ⟨ht, fun id h => by cases h⟩
  apply Protocol.safe_call drafts_lawful rfl (hlink _)
  intro w f r w' hinv hmine hthorough hhappens
  obtain ⟨hamount, hcreated, hgranted⟩ := hmine
  have hgranted' : ¬Granted n w' := by
    intro h
    rcases granted_happens hhappens h with h | ⟨-, reward, heq⟩
    · exact hgranted h
    · cases heq
  have hothers : ∀ {ℓ' : Draft} m id b, .pending m id b ∈ Draft.drafting n t.row.amountInPaise ::ₘ f →
      .pending m id b ∈ ℓ' ::ₘ f ∨ w'.state.Rewarded id b := by
    intro ℓ' m id b hm
    rcases Multiset.mem_cons.mp hm with heq | hm
    · cases heq
    · exact .inl (Multiset.mem_cons_of_mem hm)
  cases r with
  | error e =>
    rcases hhappens.2.2 with ⟨hstate, heffects⟩ | ⟨hlost, -⟩
    · refine ⟨.drafting n t.row.amountInPaise, rfl, ?_, ⟨hamount, fun id h => ?_, hgranted'⟩, rfl⟩
      · exact Honoured.step hinv (hlink _) hthorough hhappens (fun _ _ => .inl hstate) hothers
          fun _ _ h => .inl h
      · rw [Created, heffects] at h
        exact hcreated id h
    · exact absurd ⟨t, rfl⟩ hlost
  | ok v =>
    have hnew : Created n t.row.id w' := by
      refine ⟨⟨n, ⟨.request, .createTransaction t⟩, w.state⟩, ?_, decide_eq_true ⟨rfl, rfl⟩⟩
      rw [hhappens.2.2]
      exact List.mem_append_right _ (List.mem_singleton_self _)
    refine ⟨.pending n t.row.id t.row.amountInPaise, rfl, ?_, ⟨hamount, hnew, hgranted'⟩, rfl⟩
    apply Honoured.step hinv (hlink _) hthorough hhappens _ hothers
    · intro m ids heq
      cases heq
    · intro t' ht'
      cases ht'
      exact .inr (Multiset.mem_cons_self ..)

/-- Between the transaction and its reward nothing fails. -/
lemma safe_pending {op : Op} (hlink : drafts.link (.pending n id a) ⟨.request, op⟩)
    (hmodest : Request.Modest ⟨.request, op⟩)
    (hanswered : Total ⟨.request, op⟩ ∨ ∀ b, ∃ v b', Returns ⟨.request, op⟩ b v b') :
    Safe ((drafts.discipline Returns Total lossless).at n) (call .request op) (.pending n id a)
      (upon (fun _ ℓ => ℓ = .pending n id a) fun _ => False) := by
  apply Protocol.safe_call drafts_lawful rfl hlink
  intro w f r w' hinv hmine hthorough hhappens
  cases r with
  | error e =>
    exfalso
    rcases hanswered with htotal | hanswered
    · exact hhappens.2.1 htotal
    · obtain ⟨v, b, hreturns⟩ := hanswered w.state
      rcases hthorough.1 ⟨id, hmine.2.1⟩ with hok | hnone
      · cases hok
      · exact hnone v b hreturns
  | ok v =>
    exact ⟨.pending n id a, rfl, base_modest hinv hlink hmodest hthorough hhappens,
      mine_modest hmine hmodest hhappens, rfl⟩

lemma safe_createReward {reward : Reward} (hid : reward.transactionId = some id)
    (hreason : reward.reason = .SPEND) (hstar : reward.starAmount = calculateSpendRewardStar a) :
    Safe ((drafts.discipline Returns Total lossless).at n) (call .request (.createReward reward))
      (.pending n id a) (upon (fun _ ℓ => ℓ = .granted n) fun _ => False) := by
  have hlink : ∀ ℓ, drafts.link ℓ ⟨.request, .createReward reward⟩ := fun ℓ =>
    ⟨trivial, fun id h => by cases h⟩
  apply Protocol.safe_call drafts_lawful rfl (hlink _)
  intro w f r w' hinv hmine hthorough hhappens
  have hpos : 0 < reward.starAmount := by
    rw [hstar]
    exact calculateSpendRewardStar_pos_iff.mpr hmine.1
  cases r with
  | error e =>
    exfalso
    rcases hthorough.1 ⟨id, hmine.2.1⟩ with hok | hnone
    · cases hok
    · exact hnone () _ ⟨OneOrder.oracle, if_pos hpos⟩
  | ok v =>
    have hrewarded : w'.state.Rewarded id a := by
      obtain ⟨o, hans⟩ := hhappens.2.1
      simp only [Backend.answer, if_pos hpos] at hans
      have hstate := (Prod.mk.inj (Option.some.inj hans)).2
      rw [← hstate]
      exact ⟨reward, List.mem_append_right _ (List.mem_singleton_self _), hid, hreason, hstar⟩
    refine ⟨.granted n, rfl, ?_, trivial, rfl⟩
    apply Honoured.step hinv (hlink _) hthorough hhappens
    · intro t ht
      cases ht
    · intro m i b hm
      rcases Multiset.mem_cons.mp hm with heq | hm
      · cases heq
        exact .inr hrewarded
      · exact .inl (Multiset.mem_cons_of_mem hm)
    · intro m ids heq
      cases heq

lemma safe_createResultDrafts :
    Safe ((drafts.discipline Returns Total Request.createsTransaction).at n)
      (createResult js owner dto) (.drafting n dto.amountInPaise) (upon (fun _ ℓ => ℓ = .granted n)
        fun ℓ => ℓ = .drafting n dto.amountInPaise) := by
  refine safe_bind (safe_drafting checking_resolvePayee) fun payee ℓ hℓ => ?_
  obtain rfl := hℓ
  refine safe_bind (safe_drafting checking_createQuote) fun quote ℓ hℓ => ?_
  obtain rfl := hℓ
  have huuid : (call .request .uuid).All Checking := all_call trivial
  refine safe_bind (safe_drafting huuid) fun i ℓ hℓ => ?_
  obtain rfl := hℓ
  refine safe_bind (safe_drafting huuid) fun publicId ℓ hℓ => ?_
  obtain rfl := hℓ
  refine safe_bind (safe_drafting huuid) fun settlementId ℓ hℓ => ?_
  obtain rfl := hℓ
  refine safe_bind (safe_createTransaction newTransaction_fresh) fun _ ℓ hℓ => ?_
  obtain rfl := hℓ
  have hrest : ∀ {β : Type} {q : Service β} {ℓ : Draft} {R : β → Draft → Prop},
      Safe ((drafts.discipline Returns Total Request.createsTransaction).at n) q ℓ
        (upon R fun _ => False) →
      Safe ((drafts.discipline Returns Total Request.createsTransaction).at n) q ℓ
        (upon R fun ℓ => ℓ = .drafting n dto.amountInPaise) :=
    fun h => h.weaken (fun _ _ h => h) fun _ h => h.elim
  refine safe_bind (hrest (safe_pending ⟨trivial, fun _ h => by cases h⟩
    ⟨fun ⟨_, h⟩ => (by cases h), fun _ h => by cases h⟩
    (.inr fun b => ⟨(), _, OneOrder.oracle, rfl⟩))) fun _ ℓ hℓ => ?_
  obtain rfl := hℓ
  refine safe_bind (hrest (safe_pending ⟨trivial, fun _ h => by cases h⟩
    ⟨fun ⟨_, h⟩ => (by cases h), fun _ h => by cases h⟩
    (.inl (.inr (.inl rfl))))) fun rewardId ℓ hℓ => ?_
  obtain rfl := hℓ
  exact safe_bind (hrest (safe_createReward rfl rfl rfl)) fun _ ℓ hℓ => safe_pure hℓ

lemma safe_createDrafts :
    Safe ((drafts.discipline Returns Total Request.createsTransaction).at n) (create js owner dto)
      (.drafting n dto.amountInPaise) (upon (fun _ ℓ => ℓ = .granted n)
        fun ℓ => ℓ = .drafting n dto.amountInPaise) :=
  safe_bind safe_createResultDrafts fun _ _ hℓ => safe_pure hℓ

end Transactions

/-! ### Sessions -/

/-- What is not a call keeps what the sessions share. -/
lemma Honoured.of_event {e : Happening} {w w' : Office} {r : Except String (Happening.Res e)}
    {f : Multiset Draft} {ℓ' : Draft} (h : Honoured w (ℓ ::ₘ f))
    (hhappens : Async.happens Returns Total lossless e w r w') (he : ∀ n c, e ≠ .call n c)
    (hpending : ∀ m id a, ℓ ≠ .pending m id a) (hworking : ∀ m ids, ℓ' ≠ .working m ids) :
    Honoured w' (ℓ' ::ₘ f) := by
  obtain ⟨hstate, heffects⟩ := happens_still hhappens he
  refine ⟨hstate ▸ h.distinct, ?_, fun m ids hmem => ?_, heffects ▸ h.claimed, fun m id i hm => ?_⟩
  · rw [hstate]
    intro id t ht
    rcases h.row id t ht with hrewarded | ⟨hne, m, hm⟩
    · exact .inl hrewarded
    · rcases Multiset.mem_cons.mp hm with heq | hm
      · exact absurd heq.symm (hpending _ _ _)
      · exact .inr ⟨hne, m, Multiset.mem_cons_of_mem hm⟩
  · rcases Multiset.mem_cons.mp hmem with heq | hmem
    · exact absurd heq.symm (hworking m ids)
    · rw [hstate]
      exact h.ran m ids (Multiset.mem_cons_of_mem hmem)
  · rw [Async.Journal.Answered, Async.happens_entries hhappens] at hm
    rcases List.mem_append.mp hm with hm | hm
    · exact h.found m id i hm
    · cases List.mem_singleton.mp hm
      exact he _ _ rfl

/-- The ghost states in which a session may end. -/
lemma ends_drafts {a : Except String Unit}
    (hℓ : match a with
      | .ok _ => ℓ = .granted n ∨ ℓ = .plain n ∨ ∃ ids, ℓ = .working n ids
      | .error _ => ℓ = .plain n ∨ (∃ b, ℓ = .drafting n b) ∨ ∃ ids, ℓ = .working n ids) :
    drafts.Ends Returns Total lossless n a ℓ := by
  have hnumber : ℓ.number = some n := by
    cases a with
    | ok v => rcases hℓ with rfl | rfl | ⟨ids, rfl⟩ <;> rfl
    | error e => rcases hℓ with rfl | ⟨b, rfl⟩ | ⟨ids, rfl⟩ <;> rfl
  refine ⟨hnumber, fun w f r w' hinv hmine _ hhappens => ⟨?_, ?_⟩⟩
  · apply Honoured.of_event hinv.base hhappens (fun _ _ h => by cases h) _ fun _ _ h => by cases h
    rintro m id b rfl
    cases a with
    | ok v => rcases hℓ with h | h | ⟨ids, h⟩ <;> cases h
    | error e => rcases hℓ with h | ⟨b, h⟩ | ⟨ids, h⟩ <;> cases h
  · rintro e rfl
    have heffects := (happens_still hhappens fun _ _ h => by cases h).2
    simp only [Created, Granted, heffects]
    rcases hℓ with rfl | ⟨b, rfl⟩ | ⟨ids, rfl⟩
    · exact hmine
    · exact hmine.2
    · exact hmine

/-- Every session follows the protocol. -/
lemma follows_drafts (q : Asked) :
    drafts.Follows Returns Total Request.createsTransaction n q (q.program js) := by
  intro w f r w' hinv hentries heffects hthorough hhappens
  have hstill := happens_still hhappens fun _ _ h => by cases h
  have hcreated : ∀ id, ¬Created n id w' := by
    rintro id ⟨x, hx, hcreates⟩
    rw [hstill.2] at hx
    apply heffects x hx
    obtain ⟨m, ⟨source, op⟩, b⟩ := x
    cases op with
    | createTransaction t => exact (of_decide_eq_true hcreates).1
    | _ => cases hcreates
  have hgranted : ¬Granted n w' := by
    rintro ⟨x, hx, hgrants⟩
    rw [hstill.2] at hx
    apply heffects x hx
    obtain ⟨m, ⟨source, op⟩, b⟩ := x
    cases op with
    | createReward reward => exact of_decide_eq_true hgrants
    | _ => cases hgrants
  have hbase : ∀ {ℓ : Draft}, (∀ m ids, ℓ ≠ .working m ids) → Honoured w' (ℓ ::ₘ f) :=
    fun hℓ => Honoured.of_event hinv.base hhappens (fun _ _ h => by cases h)
      (fun _ _ _ h => by cases h) hℓ
  have hplain : ∀ {p : Service Unit}, (p.All fun c => drafts.link (.plain n) c ∧ c.Modest) →
      Safe ((drafts.discipline Returns Total Request.createsTransaction).at n) p (.plain n)
        (drafts.Ends Returns Total Request.createsTransaction n) := by
    intro p hp
    apply safe_modest rfl hp
    intro a
    apply ends_drafts
    cases a with
    | ok v => exact .inr (.inl rfl)
    | error e => exact .inl rfl
  have hrequest : ∀ {p : Service Unit}, p.All Revising →
      p.All fun c => drafts.link (.plain n) c ∧ c.Modest := by
    intro p hp
    apply modest_of hp (fun id h => by cases h) _ (fun _ h => h) fun _ h => h
    intro op hop
    cases op with
    | updateTransaction i data => exact hop
    | maxEventSequence | createEvent | findTransaction => trivial
    | _ => exact hop.elim
  cases q with
  | tick =>
    refine ⟨.plain n, rfl, hbase (by simp), ⟨hcreated, hgranted⟩, ?_⟩
    refine Processor.safe_tickDrafts.mono fun a ℓ hℓ => ends_drafts ?_
    cases a with
    | ok v => exact .inr hℓ
    | error e => exact hℓ.imp_right .inr
  | poller =>
    refine ⟨.plain n, rfl, hbase (by simp), ⟨hcreated, hgranted⟩, hplain ?_⟩
    exact modest_of Processor.polling_handlePendingSettlements (fun id h => by cases h)
      (fun _ h => h) (fun _ h => h) fun _ h => h
  | create owner dto =>
    refine ⟨.drafting n dto.amountInPaise, rfl, hbase (by simp), ⟨hthorough, hcreated, hgranted⟩, ?_⟩
    refine Transactions.safe_createDrafts.mono fun a ℓ hℓ => ends_drafts ?_
    cases a with
    | ok v => exact .inl hℓ
    | error e => exact .inr (.inl ⟨_, hℓ⟩)
  | cancel owner id =>
    refine ⟨.plain n, rfl, hbase (by simp), ⟨hcreated, hgranted⟩, hplain ?_⟩
    exact hrequest Transactions.revising_cancel
  | fail owner id dto =>
    refine ⟨.plain n, rfl, hbase (by simp), ⟨hcreated, hgranted⟩, hplain ?_⟩
    exact hrequest Transactions.revising_fail

end Programs

/-! ### The office -/

section Office

variable {js : Js}

theorem drafts_governs : Async.Governs (drafts.discipline Returns Total Request.createsTransaction)
    (staffingAmid js KeepsRewards Request.createsTransaction thorough) := by
  apply Protocol.governs drafts_lawful _ _ _ (fun _ _ _ _ h => h) fun _ q => follows_drafts q
  · intro w hempty hentries heffects
    refine ⟨?_, fun id t ht => ?_, fun n ids h => absurd h (Multiset.notMem_zero _), ?_, ?_⟩
    · rw [Backend.Distinct, hempty.transactions]
      exact List.nodup_nil
    · rw [Backend.transaction, hempty.transactions] at ht
      cases ht
    · intro e he
      rw [heffects] at he
      cases he
    · intro n id i h
      rw [Async.Journal.Answered, hentries] at h
      cases h
  · intro w f h
    refine ⟨h.distinct, fun id t ht => ?_, fun n ids hmem => ?_, h.claimed, h.found⟩
    · refine (h.row id t ht).imp_right fun hpending => ?_
      obtain ⟨hne, n, hn⟩ := hpending
      exact ⟨hne, n, Multiset.mem_cons_of_mem hn⟩
    · rcases Multiset.mem_cons.mp hmem with heq | hmem
      · cases heq
      · exact h.ran n ids hmem
  · intro w w' f hentries heffects hother h
    have hrow : ∀ id, w'.state.transaction id = w.state.transaction id := fun id =>
      transaction_perm hother.transactions h.distinct
    have hrewarded : ∀ {id a}, w.state.Rewarded id a → w'.state.Rewarded id a := fun h =>
      h.of_kept hother.rewards
    refine ⟨other_distinct hother.toOther h.distinct, fun id t ht => ?_, fun n ids hmem id hid => ?_,
      ?_, fun n id i hi => ?_⟩
    · rw [hrow] at ht
      exact (h.row id t ht).imp_left hrewarded
    · obtain ⟨t, ht, hserved⟩ := h.ran n ids hmem id hid
      exact ⟨t, (hrow id).trans ht, hrewarded hserved⟩
    · rw [heffects]
      exact h.claimed
    · rw [Async.Journal.Answered, hentries] at hi
      exact h.found n id i hi

/-- **A creation is all or nothing**, if it is of a hundred rupees at least, does not fail halfway and
is not overtaken by a tick. -/
theorem creation_all_or_nothing {s : OfficeState}
    (h : (officeAmid js KeepsRewards Request.createsTransaction thorough).Reachable s) :
    AllOrNothing s.world := by
  obtain ⟨f, -, hinv⟩ := Async.reachable_sound drafts_governs h
  have hbase : Honoured s.world f := hinv.base
  refine ⟨fun t ht => ?_, hbase.claimed, hbase.found, fun n e he => hinv.ended n _ he e rfl⟩
  rcases hbase.row t.id t (transaction_of_mem hbase.distinct ht) with hrewarded | ⟨-, n, hn⟩
  · exact .inl hrewarded
  · exact .inr ⟨n, halfway_of_pending hinv hn, (hinv.running _ hn n rfl).2.1⟩

end Office

/-! ### The shop -/

lemma thorough_checkedBy (threads : Multiset InProgress) : thorough.CheckedBy threads fun e w r =>
    Async.unused e w && match e with
      | .begin _ (.create _ dto) => decide (10000 ≤ dto.amountInPaise)
      | .call _ ⟨_, .claimTransactions _ _⟩ => r.isOk && w.effects.all fun x => match x.op.op with
        | .createTransaction _ => decide (Granted x.session w)
        | _ => true
      | .call _ _ => r.isOk
      | _ => true := by
  intro e w r h
  rw [Bool.and_eq_true] at h
  refine ⟨h.1, ?_⟩
  cases e with
  | begin n q =>
    cases q with
    | create owner dto =>
      have hamount : 10000 ≤ dto.amountInPaise := of_decide_eq_true h.2
      exact hamount
    | _ => trivial
  | finish => trivial
  | call n c =>
    obtain ⟨source, op⟩ := c
    cases op with
    | claimTransactions time authorizedAt =>
      have hcheck := h.2
      simp only [Bool.and_eq_true, List.all_eq_true] at hcheck
      refine ⟨fun _ => .inl hcheck.1, ?_⟩
      rintro - - - m id ⟨⟨x, hx, hcreates⟩, hgranted⟩
      have hall := hcheck.2 x hx
      obtain ⟨k, ⟨source', op⟩, b⟩ := x
      cases op with
      | createTransaction t =>
        obtain ⟨rfl, -⟩ := of_decide_eq_true hcreates
        exact absurd (of_decide_eq_true hall) hgranted
      | _ => cases hcreates
    | _ => exact ⟨fun _ => .inl h.2, fun _ _ heq => by cases heq⟩

/-- The run of the transaction `id` was told that there is no reward. -/
def misses (id : String) : Async.Entry Asked Request Request.Res String Unit → Bool
  | ⟨.call _ ⟨.run i, .findSpendReward _⟩, .ok none⟩ => decide (i = id)
  | _ => false

/-- The session `n` has thrown. -/
def throws (n : ℕ) : Async.Entry Asked Request Request.Res String Unit → Bool
  | ⟨.finish m (.error _), .ok ()⟩ => decide (m = n)
  | _ => false

lemma finished_of_throws {n : ℕ} {w : Office} (h : ∃ e ∈ w.entries, throws n e) :
    ∃ e, w.Finished n (.error e) := by
  obtain ⟨⟨e, r⟩, he, hthrows⟩ := h
  cases e with
  | finish m a =>
    cases a with
    | error message =>
      cases r with
      | ok v =>
        obtain rfl : m = n := of_decide_eq_true hthrows
        exact ⟨message, he⟩
      | error e => cases hthrows
    | ok v => cases hthrows
  | begin | call => cases hthrows

namespace OneOrder

def smallOrder : CreateTransactionDto := { order with amountInPaise := 5000 }

/-- The customer orders for fifty rupees. -/
def smallOffice : InProgress × Office := attended 0 (.create customer smallOrder) 14 openedOffice

/-- A tick claims the order, fetches it and looks for its reward. -/
def smallTick : InProgress × Office := attended 1 .tick 10 smallOffice.2

/-- The same for an order of a hundred rupees. -/
def rewardedTick : InProgress × Office := attended 1 .tick 10 orderedOffice.2

end OneOrder

/-- In the shop a tick finds the reward of an order of a hundred rupees. -/
theorem creation_all_or_nothing_of_order : ∃ s,
    (officeAmid OneOrder.js KeepsRewards Request.createsTransaction thorough).Reachable s ∧
    Created 0 OneOrder.orderId s.world ∧ s.world.state.status OneOrder.orderId = some .AUTHORIZED ∧
    AllOrNothing s.world := by
  have hordered : (officeAmid OneOrder.js KeepsRewards Request.createsTransaction thorough).Reachable
      ⟨OneOrder.orderedOffice.2, OneOrder.orderedOffice.1 ::ₘ 0⟩ :=
    OneOrder.attended_reachable OneOrder.openedOffice_reachable (thorough_checkedBy 0) (by decide +kernel)
  have htick : (officeAmid OneOrder.js KeepsRewards Request.createsTransaction thorough).Reachable
      ⟨OneOrder.rewardedTick.2, OneOrder.rewardedTick.1 ::ₘ OneOrder.orderedOffice.1 ::ₘ 0⟩ :=
    OneOrder.attended_reachable hordered (thorough_checkedBy _) (by decide +kernel)
  have hcreated : Created 0 OneOrder.orderId OneOrder.rewardedTick.2 := by decide +kernel
  have hstatus : OneOrder.rewardedTick.2.state.status OneOrder.orderId = some .AUTHORIZED := by
    decide +kernel
  exact ⟨_, htick, hcreated, hstatus, creation_all_or_nothing htick⟩

/-- An order of fifty rupees: the database refuses the reward of zero, the request throws, and the
transaction is there. A tick claims it and finds no reward. -/
theorem small_order_unrewarded : ∃ s,
    (officeAmid OneOrder.js KeepsRewards Request.createsTransaction anyHappening).Reachable s ∧
    0 < OneOrder.smallOrder.amountInPaise ∧ (∃ e, s.world.Finished 0 (.error e)) ∧
    Created 0 OneOrder.orderId s.world ∧ (∃ e ∈ s.world.entries, misses OneOrder.orderId e) ∧
    ¬AllOrNothing s.world := by
  have hordered :
      (officeAmid OneOrder.js KeepsRewards Request.createsTransaction anyHappening).Reachable
        ⟨OneOrder.smallOffice.2, OneOrder.smallOffice.1 ::ₘ 0⟩ :=
    OneOrder.attended_reachable OneOrder.openedOffice_reachable (anyHappening_checkedBy 0)
      (by decide +kernel)
  have htick : (officeAmid OneOrder.js KeepsRewards Request.createsTransaction anyHappening).Reachable
      ⟨OneOrder.smallTick.2, OneOrder.smallTick.1 ::ₘ OneOrder.smallOffice.1 ::ₘ 0⟩ :=
    OneOrder.attended_reachable hordered (anyHappening_checkedBy _) (by decide +kernel)
  have hthrows : ∃ e ∈ OneOrder.smallTick.2.entries, throws 0 e := by decide +kernel
  have hcreated : Created 0 OneOrder.orderId OneOrder.smallTick.2 := by decide +kernel
  have hmisses : ∃ e ∈ OneOrder.smallTick.2.entries, misses OneOrder.orderId e := by decide +kernel
  obtain ⟨e, he⟩ := finished_of_throws hthrows
  exact ⟨_, htick, by decide, ⟨e, he⟩, hcreated, hmisses,
    fun h => (h.thrown 0 e he).1 OneOrder.orderId hcreated⟩

end PayEra.Api
