import PayEra.PaymentEngine.Effects

/-!
# The lifecycle of a payment

The abstract machine is a graph on the payment statuses and a relation `RecordStep` between the
records before and after a call. Every call refines it, whatever the registry and the reward
engine do: their state and their answers are arbitrary, and between two calls they may change in
any way. What a record's past has been is read off the run.
-/

namespace PayEra.PaymentEngine

open Soroban Soroban.Call Transition

/-! ### The abstract machine -/

/-- The graph of the statuses. -/
inductive Edge : PaymentStatus → PaymentStatus → Prop where
  | quote : Edge .created .quoted
  | convert : Edge .quoted .converted
  | settle : Edge .converted .settled
  | reward : Edge .settled .rewarded
  | complete : Edge .rewarded .completed
  | cancelCreated : Edge .created .cancelled
  | cancelQuoted : Edge .quoted .cancelled
  | fail {s : PaymentStatus} (h : s ≠ .completed ∧ s ≠ .cancelled ∧ s ≠ .failed) :
      Edge s .failed

/-- The fields that are fixed when the record is created. -/
structure SameTerms (r r' : PaymentRecord) : Prop where
  paymentId : r'.paymentId = r.paymentId
  payer : r'.payer = r.payer
  merchantId : r'.merchantId = r.merchantId
  asset : r'.asset = r.asset
  amountInPaise : r'.amountInPaise = r.amountInPaise
  qrHash : r'.qrHash = r.qrHash
  rewardId : r'.rewardId = r.rewardId
  createdLedger : r'.createdLedger = r.createdLedger

structure SameQuote (r r' : PaymentRecord) : Prop where
  assetAmount : r'.assetAmount = r.assetAmount
  usdcAmount : r'.usdcAmount = r.usdcAmount
  networkFeePaise : r'.networkFeePaise = r.networkFeePaise

structure PositiveQuote (r : PaymentRecord) : Prop where
  assetAmount : 0 < r.assetAmount.val
  usdcAmount : 0 < r.usdcAmount.val
  networkFeePaise : 0 ≤ r.networkFeePaise.val

/-- What one call may do to one record. -/
structure RecordStep (env : Env) (s : Storage) (r r' : PaymentRecord) : Prop where
  terms : SameTerms r r'
  edge : r'.status = r.status ∨ Edge r.status r'.status
  quote : SameQuote r r' ∧ r'.status ≠ .quoted ∨
    r.status = .created ∧ r'.status = .quoted ∧ PositiveQuote r'
  reward : r'.starReward = r.starReward ∧ r'.status ≠ .rewarded ∨
    r.status = .settled ∧ r'.status = .rewarded
  cancel : r'.status = .cancelled →
    (r.status = .created ∨ r.status = .quoted) ∧ env.auth r.payer = true
  fail : r'.status = .failed →
    r.status ≠ .completed ∧ r.status ≠ .cancelled ∧ ∃ operator, Operates env s operator
  clock : r'.updatedLedger = env.ledger

/-- A record as `create_payment` writes it. -/
structure Fresh (env : Env) (paymentId : Bytes32) (r : PaymentRecord) : Prop where
  paymentId : r.paymentId = paymentId
  amount_pos : 0 < r.amountInPaise.val
  status : r.status = .created
  assetAmount : r.assetAmount = 0
  usdcAmount : r.usdcAmount = 0
  starReward : r.starReward = 0
  createdLedger : r.createdLedger = env.ledger
  updatedLedger : r.updatedLedger = env.ledger

/-! ### The system -/

/-- Someone calls the engine, or the other contracts act among themselves. -/
inductive Label where
  | call (env : Env) (e : Entry)
  | peers (ledger : Nat)

variable {ω : Type} (clients : Clients ω)

def system : System (OnLedger (WithPeers Storage ω)) Label where
  Init c := ∃ env : Env, Deployed env c.state.own ∧ c.ledger = env.ledger
  Step c l d :=
    match l with
    | .call env e =>
      c.ledger ≤ env.ledger ∧ d.ledger = env.ledger ∧
        d.state = (exec clients e).commit env c.state
    | .peers ledger => c.ledger ≤ ledger ∧ d.ledger = ledger ∧ d.state.own = c.state.own

/-- The record stored under an id. -/
def paymentAt (c : OnLedger (WithPeers Storage ω)) (paymentId : Bytes32) :
    Option PaymentRecord := c.state.own.payment paymentId

/-- Records are stored under their own id. -/
def Keyed (s : Storage) : Prop := ∀ id r, s.payment id = some r → r.paymentId = id

variable {clients} {env : Env} {s : Storage}

/-! ### Each write refines the machine -/

lemma Written.keyed {e : Entry} {id : Bytes32} {r : PaymentRecord} (h : Written env s e id r)
    (hs : Keyed s) : r.paymentId = id := by
  cases h with
  | created => rfl
  | quoted _ _ hr _ =>
    have h := hs _ _ hr
    exact h
  | advanced _ hr _ =>
    have h := hs _ _ hr
    exact h
  | rewarded _ hr _ =>
    have h := hs _ _ hr
    exact h
  | cancelled _ hr _ _ =>
    have h := hs _ _ hr
    exact h
  | failed _ hr _ =>
    have h := hs _ _ hr
    exact h

/-- A write creates a record or does one `RecordStep` on it. -/
lemma Written.refines {e : Entry} {id : Bytes32} {r' : PaymentRecord}
    (h : Written env s e id r') :
    (s.payment id = none ∧ Fresh env id r') ∨
      ∃ r, s.payment id = some r ∧ RecordStep env s r r' := by
  cases h with
  | created hop hpos hnone => exact .inl ⟨hnone, rfl, hpos, rfl, rfl, rfl, rfl, rfl, rfl⟩
  | @quoted _ _ r _ _ _ hop hpos hr hst =>
    refine .inr ⟨r, hr, ⟨rfl, rfl, rfl, rfl, rfl, rfl, rfl, rfl⟩, .inr ?_,
      .inr ⟨hst, rfl, hpos.1, hpos.2.1, hpos.2.2⟩, .inl ⟨rfl, nofun⟩, nofun, nofun, rfl⟩
    rw [hst]
    exact .quote
  | @advanced _ _ r _ status hop hr hst =>
    refine .inr ⟨r, hr, ⟨rfl, rfl, rfl, rfl, rfl, rfl, rfl, rfl⟩, ?_, ?_, ?_, ?_, ?_, rfl⟩
    · right
      rcases hst with ⟨h, rfl, -⟩ | ⟨h, rfl, -⟩ | ⟨h, rfl, -⟩ <;> rw [h]
      · exact .convert
      · exact .settle
      · exact .complete
    · left
      refine ⟨⟨rfl, rfl, rfl⟩, ?_⟩
      rcases hst with ⟨-, rfl, -⟩ | ⟨-, rfl, -⟩ | ⟨-, rfl, -⟩ <;> nofun
    · left
      refine ⟨rfl, ?_⟩
      rcases hst with ⟨-, rfl, -⟩ | ⟨-, rfl, -⟩ | ⟨-, rfl, -⟩ <;> nofun
    · rcases hst with ⟨-, rfl, -⟩ | ⟨-, rfl, -⟩ | ⟨-, rfl, -⟩ <;> nofun
    · rcases hst with ⟨-, rfl, -⟩ | ⟨-, rfl, -⟩ | ⟨-, rfl, -⟩ <;> nofun
  | @rewarded _ _ r _ hop hr hst =>
    refine .inr ⟨r, hr, ⟨rfl, rfl, rfl, rfl, rfl, rfl, rfl, rfl⟩, .inr ?_,
      .inl ⟨⟨rfl, rfl, rfl⟩, nofun⟩, .inr ⟨hst, rfl⟩, nofun, nofun, rfl⟩
    rw [hst]
    exact .reward
  | @cancelled _ r hlive hr hauth hst =>
    refine .inr ⟨r, hr, ⟨rfl, rfl, rfl, rfl, rfl, rfl, rfl, rfl⟩, .inr ?_,
      .inl ⟨⟨rfl, rfl, rfl⟩, nofun⟩, .inl ⟨rfl, nofun⟩, fun _ => ⟨hst, hauth⟩, nofun, rfl⟩
    rcases hst with h | h <;> rw [h]
    · exact .cancelCreated
    · exact .cancelQuoted
  | @failed op _ r hop hr hst =>
    refine .inr ⟨r, hr, ⟨rfl, rfl, rfl, rfl, rfl, rfl, rfl, rfl⟩, ?_,
      .inl ⟨⟨rfl, rfl, rfl⟩, nofun⟩, .inl ⟨rfl, nofun⟩, nofun,
      fun _ => ⟨hst.1, hst.2, op, hop⟩, rfl⟩
    by_cases hf : r.status = .failed
    · exact .inl hf.symm
    · exact .inr (.fail ⟨hst.1, hst.2, hf⟩)

/-! ### Each step refines the machine -/

lemma keyed_of_reachable {c : OnLedger (WithPeers Storage ω)}
    (h : (system clients).Reachable c) : Keyed c.state.own := by
  refine h.invariant (P := fun c => Keyed c.state.own) ?_ ?_
  · rintro c ⟨env, ⟨adm, registry, rewardEngine, hd⟩, -⟩ id r hr
    obtain ⟨-, hown⟩ := run_constructor.mp hd
    rw [hown] at hr
    simp [Storage.publish, Storage.setOperator] at hr
  · rintro c l d - hc hstep
    cases l with
    | peers ledger =>
      rw [hstep.2.2]
      exact hc
    | call env e =>
      rw [hstep.2.2]
      rcases commit_cases (exec clients e) env c.state with ⟨u, hok⟩ | heq
      · rcases exec_effect hok with ⟨hsame, -⟩ | ⟨id, r, hw, hupd, -⟩
        · intro id r hr
          exact hc id r (hsame ▸ hr)
        · intro id' r' hr'
          rw [hupd] at hr'
          by_cases hid : id' = r.paymentId
          · subst hid
            rw [Function.update_self] at hr'
            cases hr'
            rfl
          · rw [Function.update_of_ne hid] at hr'
            exact hc id' r' hr'
      · rw [heq]
        exact hc

/-- What one step of the system does to the record under one id. -/
inductive Turn (c d : OnLedger (WithPeers Storage ω)) (id : Bytes32) : Label → Prop where
  | same {l : Label} (h : paymentAt d id = paymentAt c id) : Turn c d id l
  | create {env : Env} {e : Entry} {r : PaymentRecord} (hc : paymentAt c id = none)
      (hd : paymentAt d id = some r) (h : Fresh env id r) : Turn c d id (.call env e)
  | change {env : Env} {e : Entry} {r r' : PaymentRecord} (hc : paymentAt c id = some r)
      (hd : paymentAt d id = some r') (h : RecordStep env c.state.own r r') :
      Turn c d id (.call env e)

/-- **Refinement**: every step is a turn of the abstract machine. -/
theorem turn_of_step {c d : OnLedger (WithPeers Storage ω)} {l : Label}
    (hc : (system clients).Reachable c) (h : (system clients).Step c l d) (id : Bytes32) :
    Turn c d id l := by
  cases l with
  | peers ledger => exact .same (by rw [paymentAt, h.2.2, paymentAt])
  | call env e =>
    have hd := h.2.2
    rcases commit_cases (exec clients e) env c.state with ⟨u, hok⟩ | heq
    · rw [← hd] at hok
      rcases exec_effect hok with ⟨hsame, -⟩ | ⟨id', r', hw, hupd, -⟩
      · exact .same (by rw [paymentAt, hsame, paymentAt])
      · have hkey := hw.keyed (keyed_of_reachable hc)
        by_cases hid : id = id'
        · subst hid
          have hdid : paymentAt d id = some r' := by
            rw [paymentAt, hupd, hkey, Function.update_self]
          rcases hw.refines with ⟨hnone, hfresh⟩ | ⟨r, hr, hstep⟩
          · exact .create hnone hdid hfresh
          · exact .change hr hdid hstep
        · refine .same ?_
          rw [paymentAt, hupd, hkey, Function.update_of_ne hid, paymentAt]
    · exact .same (by rw [paymentAt, hd, heq, paymentAt])

namespace Turn

variable {c d : OnLedger (WithPeers Storage ω)} {id : Bytes32} {l : Label} {r r' : PaymentRecord}

/-- Two records before and after a turn are equal or related by a `RecordStep`. -/
lemma records (h : Turn c d id l) (hc : paymentAt c id = some r) (hd : paymentAt d id = some r') :
    r' = r ∨ ∃ env e, l = .call env e ∧ RecordStep env c.state.own r r' := by
  cases h with
  | same heq =>
    rw [heq, hc] at hd
    exact .inl (Option.some.inj hd).symm
  | create hnone _ _ => simp [hc] at hnone
  | @change env e _ _ hc₁ hd₁ hchange =>
    obtain rfl := Option.some.inj (hc₁.symm.trans hc)
    obtain rfl := Option.some.inj (hd₁.symm.trans hd)
    exact .inr ⟨env, e, rfl, hchange⟩

/-- A record stays where it is, with its terms. -/
lemma terms (h : Turn c d id l) (hc : paymentAt c id = some r) :
    ∃ r', paymentAt d id = some r' ∧ SameTerms r r' := by
  cases h with
  | same heq => exact ⟨r, heq.trans hc, rfl, rfl, rfl, rfl, rfl, rfl, rfl, rfl⟩
  | create hnone _ _ => simp [hc] at hnone
  | change hc₁ hd₁ hchange =>
    obtain rfl := Option.some.inj (hc₁.symm.trans hc)
    exact ⟨_, hd₁, hchange.terms⟩

lemma change_of_ne (h : Turn c d id l) (hc : paymentAt c id = some r)
    (hd : paymentAt d id = some r') (hne : r.status ≠ r'.status) :
    ∃ env e, l = .call env e ∧ RecordStep env c.state.own r r' := by
  refine (h.records hc hd).resolve_left fun heq => ?_
  rw [heq] at hne
  exact hne rfl

lemma quote (h : Turn c d id l) (hc : paymentAt c id = some r) (hd : paymentAt d id = some r') :
    SameQuote r r' ∨ r.status = .created ∧ r'.status = .quoted := by
  rcases h.records hc hd with rfl | ⟨env, e, -, hchange⟩
  · exact .inl ⟨rfl, rfl, rfl⟩
  · exact hchange.quote.imp And.left fun hq => ⟨hq.1, hq.2.1⟩

lemma reward (h : Turn c d id l) (hc : paymentAt c id = some r) (hd : paymentAt d id = some r') :
    r'.starReward = r.starReward ∨ r.status = .settled ∧ r'.status = .rewarded := by
  rcases h.records hc hd with rfl | ⟨env, e, -, hchange⟩
  · exact .inl rfl
  · exact hchange.reward.imp_left And.left

end Turn

/-! ### Runs -/

/-- The statuses the record under an id has had, state by state. -/
def history (id : Bytes32) (c₀ : OnLedger (WithPeers Storage ω))
    (tr : List (Move (OnLedger (WithPeers Storage ω)) Label)) : List PaymentStatus :=
  (states c₀ tr).filterMap fun c => (paymentAt c id).map PaymentRecord.status

/-- This transition creates the record. -/
def creates (id : Bytes32) (m : Move (OnLedger (WithPeers Storage ω)) Label) : Bool :=
  (paymentAt m.pre id).isNone && (paymentAt m.post id).isSome

/-- The fields of a record agree with its history. -/
structure Agrees (hist : List PaymentStatus) (ledger : Nat) (r : PaymentRecord) : Prop where
  amount_pos : 0 < r.amountInPaise.val
  unquoted : .quoted ∉ hist → r.assetAmount = 0 ∧ r.usdcAmount = 0
  quoted : .quoted ∈ hist → PositiveQuote r
  unrewarded : .rewarded ∉ hist → r.starReward = 0
  clock : r.createdLedger ≤ r.updatedLedger ∧ r.updatedLedger ≤ ledger

/-- The lifecycle of one payment along one run. -/
structure Lifecycle (id : Bytes32) (c₀ : OnLedger (WithPeers Storage ω))
    (tr : List (Move (OnLedger (WithPeers Storage ω)) Label))
    (c : OnLedger (WithPeers Storage ω)) : Prop where
  created_once : tr.countP (creates id) ≤ 1
  created_first : ∀ s ∈ (history id c₀ tr).head?, s = .created
  path : ((history id c₀ tr).destutter (· ≠ ·)).IsChain Edge
  terms : ∀ m ∈ tr, ∀ r, paymentAt m.pre id = some r →
    ∃ r', paymentAt m.post id = some r' ∧ SameTerms r r'
  cancelled : ∀ m ∈ tr, ∀ r r', paymentAt m.pre id = some r → paymentAt m.post id = some r' →
    r.status ≠ .cancelled → r'.status = .cancelled →
    (r.status = .created ∨ r.status = .quoted) ∧
      ∃ env e, m.label = .call env e ∧ env.auth r.payer = true
  failed : ∀ m ∈ tr, ∀ r r', paymentAt m.pre id = some r → paymentAt m.post id = some r' →
    r.status ≠ .failed → r'.status = .failed →
    r.status ≠ .completed ∧ r.status ≠ .cancelled ∧
      ∃ env e operator, m.label = .call env e ∧ Operates env m.pre.state.own operator
  quote_kept : ∀ m ∈ tr, ∀ r r', paymentAt m.pre id = some r → paymentAt m.post id = some r' →
    SameQuote r r' ∨ r.status = .created ∧ r'.status = .quoted
  reward_kept : ∀ m ∈ tr, ∀ r r', paymentAt m.pre id = some r → paymentAt m.post id = some r' →
    r'.starReward = r.starReward ∨ r.status = .settled ∧ r'.status = .rewarded
  agrees : ∀ r, paymentAt c id = some r → Agrees (history id c₀ tr) c.ledger r

section Runs

variable {id : Bytes32} {c₀ c d : OnLedger (WithPeers Storage ω)} {l : Label}
  {tr : List (Move (OnLedger (WithPeers Storage ω)) Label)}

lemma history_snoc : history id c₀ (tr ++ [⟨c, l, d⟩]) =
    history id c₀ tr ++ ((paymentAt d id).map PaymentRecord.status).toList := by
  simp only [history, states, List.map_append, List.map_cons, List.map_nil, ← List.cons_append,
    List.filterMap_append]
  rfl

/-- No payment has been created when the engine is deployed. -/
lemma paymentAt_init (h : (system clients).Init c₀) (id : Bytes32) : paymentAt c₀ id = none := by
  obtain ⟨env, ⟨adm, registry, rewardEngine, hd⟩, -⟩ := h
  obtain ⟨-, hown⟩ := run_constructor.mp hd
  rw [paymentAt, hown]
  rfl

lemma history_init (h : (system clients).Init c₀) (id : Bytes32) : history id c₀ [] = [] := by
  simp [history, states, paymentAt_init h]

/-- The history of a payment ends in its status. -/
lemma getLast?_history (id : Bytes32) (h₀ : (system clients).Init c₀) (h : (system clients).Run c₀ tr c) :
    (history id c₀ tr).getLast? = (paymentAt c id).map PaymentRecord.status := by
  refine h.invariant (P := fun tr c => (history id c₀ tr).getLast? =
    (paymentAt c id).map PaymentRecord.status) h₀ ?_ ?_
  · rw [history_init h₀, paymentAt_init h₀, List.getLast?_nil, Option.map_none]
  · intro tr t l u hreach ih hstep
    rw [history_snoc, List.getLast?_append]
    cases turn_of_step hreach hstep id with
    | same heq =>
      rw [heq, ih]
      cases paymentAt t id <;> rfl
    | create _ hd _ => simp [hd]
    | change _ hd _ => simp [hd]

/-- A payment with no record has no history. -/
lemma history_eq_nil (h₀ : (system clients).Init c₀) (h : (system clients).Run c₀ tr c)
    (hc : paymentAt c id = none) : history id c₀ tr = [] := by
  have hlast := getLast?_history id h₀ h
  rw [hc] at hlast
  exact List.getLast?_eq_none_iff.mp hlast

/-- A record is never removed, so it is created once. -/
lemma countP_creates (h₀ : (system clients).Init c₀) (h : (system clients).Run c₀ tr c) :
    tr.countP (creates id) = if (paymentAt c id).isSome then 1 else 0 := by
  refine h.invariant (P := fun tr c => tr.countP (creates id) =
    if (paymentAt c id).isSome then 1 else 0) h₀ ?_ ?_
  · rw [paymentAt_init h₀]
    rfl
  · intro tr t l u hreach ih hstep
    rw [List.countP_append, ih, List.countP_singleton]
    cases turn_of_step hreach hstep id with
    | same heq => cases hp : paymentAt t id <;> simp [creates, heq, hp]
    | create hc hd _ => simp [creates, hc, hd]
    | change hc hd _ => simp [creates, hc, hd]

/-- The first status is `Created`. -/
lemma head?_history (h₀ : (system clients).Init c₀) (h : (system clients).Run c₀ tr c) :
    ∀ s ∈ (history id c₀ tr).head?, s = .created := by
  induction h with
  | nil => simp [history_init h₀]
  | @snoc t u tr l hrun hstep ih =>
    rw [history_snoc]
    cases hp : paymentAt t id with
    | some r =>
      -- the history is not empty, so what is appended is not its head
      have hlast := getLast?_history id h₀ hrun
      rw [hp] at hlast
      have hne : history id c₀ tr ≠ [] := by
        intro hnil
        simp [hnil] at hlast
      rw [List.head?_append_of_ne_nil _ hne]
      exact ih
    | none =>
      rw [history_eq_nil h₀ hrun hp, List.nil_append]
      cases turn_of_step (hrun.reachable h₀) hstep id with
      | same heq => simp [heq, hp]
      | create _ hd hfresh => simp [hd, hfresh.status]
      | change hc _ _ => simp [hp] at hc

/-- Neighbours in the history are equal or joined by an edge. -/
lemma isChain_history (h₀ : (system clients).Init c₀) (h : (system clients).Run c₀ tr c) :
    (history id c₀ tr).IsChain fun a b => a = b ∨ Edge a b := by
  induction h with
  | nil => simp [history_init h₀]
  | @snoc t u tr l hrun hstep ih =>
    rw [history_snoc]
    refine List.isChain_append.mpr ⟨ih, ?_, ?_⟩
    · cases paymentAt u id <;> simp
    · rw [getLast?_history id h₀ hrun]
      intro a ha b hb
      cases turn_of_step (hrun.reachable h₀) hstep id with
      | same heq =>
        rw [heq] at hb
        cases hp : paymentAt t id with
        | none => simp [hp] at ha
        | some r => 
          left
          simp_all
      | create hc _ _ => simp [hc] at ha
      | change hc hd hchange =>
        simp only [hc, hd, Option.map_some, Option.mem_def, Option.some.injEq, Option.toList_some,
          List.head?_cons] at ha hb
        rw [← ha, ← hb]
        exact hchange.edge.imp_left Eq.symm

lemma Fresh.agrees {r : PaymentRecord} (h : Fresh env id r) :
    Agrees [.created] env.ledger r where
  amount_pos := h.amount_pos
  unquoted _ := ⟨h.assetAmount, h.usdcAmount⟩
  quoted hmem := by simp at hmem
  unrewarded _ := h.starReward
  clock := by rw [h.createdLedger, h.updatedLedger]; exact ⟨le_rfl, le_rfl⟩

lemma RecordStep.agrees {hist : List PaymentStatus} {n : Nat} {s : Storage} {r r' : PaymentRecord}
    (h : RecordStep env s r r') (ha : Agrees hist n r) (hn : n ≤ env.ledger) :
    Agrees (hist ++ [r'.status]) env.ledger r' where
  amount_pos := by
    rw [h.terms.amountInPaise]
    exact ha.amount_pos
  unquoted hmem := by
    rw [List.mem_append, not_or, List.mem_singleton] at hmem
    rcases h.quote with ⟨hsame, -⟩ | ⟨-, hst, -⟩
    · rw [hsame.assetAmount, hsame.usdcAmount]
      exact ha.unquoted hmem.1
    · exact absurd hst.symm hmem.2
  quoted hmem := by
    rcases h.quote with ⟨hsame, hst⟩ | ⟨-, -, hpos⟩
    · rw [List.mem_append, List.mem_singleton] at hmem
      have hq := ha.quoted (hmem.resolve_right fun h => hst h.symm)
      exact ⟨hsame.assetAmount ▸ hq.assetAmount, hsame.usdcAmount ▸ hq.usdcAmount,
        hsame.networkFeePaise ▸ hq.networkFeePaise⟩
    · exact hpos
  unrewarded hmem := by
    rw [List.mem_append, not_or, List.mem_singleton] at hmem
    rcases h.reward with ⟨hsame, -⟩ | ⟨-, hst⟩
    · rw [hsame]
      exact ha.unrewarded hmem.1
    · exact absurd hst.symm hmem.2
  clock := by
    rw [h.terms.createdLedger, h.clock]
    exact ⟨ha.clock.1.trans (ha.clock.2.trans hn), le_rfl⟩

lemma Agrees.later {hist : List PaymentStatus} {n m : Nat} {r : PaymentRecord}
    (h : Agrees hist n r) (hmem : r.status ∈ hist) (hn : n ≤ m) :
    Agrees (hist ++ [r.status]) m r := by
  have hiff : ∀ x, x ∈ hist ++ [r.status] ↔ x ∈ hist := by
    intro x
    rw [List.mem_append, List.mem_singleton]
    exact or_iff_left_of_imp fun hx => hx ▸ hmem
  exact ⟨h.amount_pos, by rw [hiff]; exact h.unquoted, by rw [hiff]; exact h.quoted,
    by rw [hiff]; exact h.unrewarded, h.clock.1, h.clock.2.trans hn⟩

lemma ledger_mono {c d : OnLedger (WithPeers Storage ω)} {l : Label}
    (h : (system clients).Step c l d) : c.ledger ≤ d.ledger := by
  cases l with
  | call env e =>
    rw [h.2.1]
    exact h.1
  | peers ledger =>
    rw [h.2.1]
    exact h.1

lemma agrees_of_run (h₀ : (system clients).Init c₀) (h : (system clients).Run c₀ tr c) :
    ∀ r, paymentAt c id = some r → Agrees (history id c₀ tr) c.ledger r := by
  induction h with
  | nil => simp [paymentAt_init h₀]
  | @snoc t u tr l hrun hstep ih =>
    intro r hr
    rw [history_snoc, hr]
    cases turn_of_step (hrun.reachable h₀) hstep id with
    | same heq =>
      rw [heq] at hr
      have hlast := getLast?_history id h₀ hrun
      rw [hr] at hlast
      exact (ih r hr).later (List.mem_of_getLast? hlast) (ledger_mono hstep)
    | create hc hd hfresh =>
      obtain rfl : _ = r := Option.some.inj (hd.symm.trans hr)
      rw [history_eq_nil h₀ hrun hc, hstep.2.1, Option.map_some, hfresh.status]
      exact hfresh.agrees
    | change hc hd hchange =>
      obtain rfl : _ = r := Option.some.inj (hd.symm.trans hr)
      rw [hstep.2.1]
      exact hchange.agrees (ih _ hc) hstep.1

/-- **Lifecycle.** Every payment of every run, whatever the registry and the reward engine do. -/
theorem payment_lifecycle (clients : Clients ω) (id : Bytes32)
    (c₀ c : OnLedger (WithPeers Storage ω))
    (tr : List (Move (OnLedger (WithPeers Storage ω)) Label))
    (h₀ : (system clients).Init c₀) (h : (system clients).Run c₀ tr c) :
    Lifecycle id c₀ tr c := by
  have hturn : ∀ m ∈ tr, Turn m.pre m.post id m.label := by
    intro m hm
    obtain ⟨hreach, hstep⟩ := h.of_mem h₀ hm
    exact turn_of_step hreach hstep id
  refine ⟨?_, head?_history h₀ h, isChain_destutter (isChain_history h₀ h), ?_, ?_, ?_, ?_, ?_,
    agrees_of_run h₀ h⟩
  · rw [countP_creates h₀ h]
    split_ifs <;> simp
  · intro m hm r hr
    exact (hturn m hm).terms hr
  · intro m hm r r' hr hr' hne hst
    obtain ⟨env, e, hl, hchange⟩ := (hturn m hm).change_of_ne hr hr' (by rw [hst]; exact hne)
    exact ⟨(hchange.cancel hst).1, env, e, hl, (hchange.cancel hst).2⟩
  · intro m hm r r' hr hr' hne hst
    obtain ⟨env, e, hl, hchange⟩ := (hturn m hm).change_of_ne hr hr' (by rw [hst]; exact hne)
    obtain ⟨hcompleted, hcancelled, operator, hop⟩ := hchange.fail hst
    exact ⟨hcompleted, hcancelled, env, e, operator, hl, hop⟩
  · intro m hm r r' hr hr'
    exact (hturn m hm).quote hr hr'
  · intro m hm r r' hr hr'
    exact (hturn m hm).reward hr hr'

/-- Anyone may call any entrypoint next. -/
lemma run_call (h : (system clients).Run c₀ tr c) (env : Env) (e : Entry)
    (hl : c.ledger ≤ env.ledger) :
    (system clients).Run c₀
      (tr ++ [⟨c, .call env e, ⟨env.ledger, (exec clients e).commit env c.state⟩⟩])
      ⟨env.ledger, (exec clients e).commit env c.state⟩ := h.snoc ⟨hl, rfl, rfl⟩

end Runs

/-- A registry that approves everyone and a reward engine that always fails. -/
def approving : Clients Unit := ⟨fun _ _ _ w => some (true, w), fun _ _ _ _ => none⟩

/-- A payment that is created, quoted and paid for, and gets no reward. -/
theorem payment_lifecycle_of_completed_payment :
    ∃ c₀ tr c, (system approving).Run c₀ tr c ∧
      history (.fill 1) c₀ tr = [.created, .quoted, .converted, .settled, .rewarded, .completed] ∧
      Lifecycle (.fill 1) c₀ tr c := by
  let adm : Address := ⟨1⟩
  let env : Env := ⟨7, fun a => decide (a = adm), none, ⟨100⟩⟩
  let c₀ : OnLedger (WithPeers Storage Unit) :=
    ⟨7, ⟨(constructor adm ⟨101⟩ ⟨102⟩).commit env {}, ()⟩⟩
  have h₀ : (system approving).Init c₀ := ⟨env, ⟨adm, ⟨101⟩, ⟨102⟩, rfl⟩, rfl⟩
  have h : (system approving).Run c₀ [] c₀ := .nil c₀
  have h := run_call h env (.createPayment adm ⟨2⟩ (.fill 1) (.fill 2) .XLM (.lit 5000) (.fill 3)
    (.fill 4)) (by decide)
  have h := run_call h env (.quotePayment adm (.fill 1) (.lit 10) (.lit 10) (.lit 0)) (by decide)
  have h := run_call h env (.markConverted adm (.fill 1)) (by decide)
  have h := run_call h env (.markSettled adm (.fill 1)) (by decide)
  have h := run_call h env (.issueReward adm (.fill 1)) (by decide)
  have h := run_call h env (.completePayment adm (.fill 1)) (by decide)
  exact ⟨c₀, _, _, h, by decide, payment_lifecycle approving (.fill 1) c₀ _ _ h₀ h⟩

end PayEra.PaymentEngine
