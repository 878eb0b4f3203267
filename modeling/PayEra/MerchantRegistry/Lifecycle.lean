import PayEra.MerchantRegistry.Roles

/-!
# The lifecycle of a merchant

The abstract machine is a graph on the statuses and a relation `RecordStep` between the records
before and after a call. Every call of the registry refines it. What `is_approved` answers is then
a matter of the run: it is the outcome of the last status call.
-/

namespace PayEra.MerchantRegistry

open Soroban Soroban.Call Transition

/-! ### The abstract machine -/

/-- The graph of the statuses. -/
inductive Edge : MerchantStatus → MerchantStatus → Prop where
  | approve : Edge .pending .approved
  | suspend : Edge .approved .suspended
  | resume : Edge .suspended .approved
  | reject : Edge .pending .rejected

/-- The statuses that a status call may start from. -/
inductive Admissible : MerchantStatus → MerchantStatus → Prop where
  | approve {s : MerchantStatus} (h : s = .pending ∨ s = .suspended ∨ s = .approved) :
      Admissible s .approved
  | suspend : Admissible .approved .suspended
  | reject : Admissible .pending .rejected

/-- The fields that are fixed when the merchant is registered. -/
structure SameTerms (r r' : MerchantRecord) : Prop where
  merchantId : r'.merchantId = r.merchantId
  upiIdHash : r'.upiIdHash = r.upiIdHash
  createdLedger : r'.createdLedger = r.createdLedger

/-- What one call may do to one record. -/
structure RecordStep (env : Env) (s : Storage) (e : Entry) (id : Bytes32)
    (r r' : MerchantRecord) : Prop where
  terms : SameTerms r r'
  status : e.review id = none ∧ r'.status = r.status ∨
    e.review id = some r'.status ∧ Admissible r.status r'.status ∧
      ∃ adm, s.admin = some adm ∧ env.auth adm = true
  owned : r'.owner = r.owner ∧ r'.metadataHash = r.metadataHash ∨
    e.review id = none ∧ env.auth r.owner = true

variable {env : Env} {s t : Storage} {e : Entry} {id : Bytes32} {r r' : MerchantRecord}
  {c₀ c d : OnLedger Storage} {l : Env × Entry}
  {tr : List (Move (OnLedger Storage) (Env × Entry))}

lemma Admissible.edge {a b : MerchantStatus} (h : Admissible a b) : a = b ∨ Edge a b := by
  cases h with
  | approve h =>
    rcases h with rfl | rfl | rfl
    · exact .inr .approve
    · exact .inr .resume
    · exact .inl rfl
  | suspend => exact .inr .suspend
  | reject => exact .inr .reject

/-! ### Each write refines the machine -/

/-- Records are stored under their own id. -/
def Keyed (s : Storage) : Prop := ∀ id r, s.merchant id = some r → r.merchantId = id

lemma Written.keyed (h : Written env s e id r) (hs : Keyed s) : r.merchantId = id := by
  cases h with
  | registered => rfl
  | reviewed _ hr _ =>
    have h := hs _ _ hr
    exact h
  | metadata hr _ =>
    have h := hs _ _ hr
    exact h
  | owner hr _ =>
    have h := hs _ _ hr
    exact h

/-- A call reviews the merchant that it writes. -/
lemma Written.review_of_ne {id' : Bytes32} (h : Written env s e id r) (hne : id ≠ id') :
    e.review id' = none := by
  cases h with
  | registered => rfl
  | reviewed _ _ hst =>
    rcases hst with ⟨rfl, -, -⟩ | ⟨rfl, -, -⟩ | ⟨rfl, -, -⟩
    · exact if_neg hne
    · exact if_neg hne
    · exact if_neg hne
  | metadata => rfl
  | owner => rfl

/-- A write registers a merchant or does one `RecordStep` on it. -/
lemma Written.refines (h : Written env s e id r') :
    (s.merchant id = none ∧ r'.status = .pending ∧ e.review id = none) ∨
      ∃ r, s.merchant id = some r ∧ RecordStep env s e id r r' := by
  cases h with
  | registered _ hnone => exact .inl ⟨hnone, rfl, rfl⟩
  | @reviewed adm _ r _ status hadm hr hst =>
    refine .inr ⟨r, hr, ⟨rfl, rfl, rfl⟩, .inr ⟨?_, ?_, adm, hadm.admin, hadm.auth⟩, .inl ⟨rfl, rfl⟩⟩
    · rcases hst with ⟨rfl, rfl, -⟩ | ⟨rfl, rfl, -⟩ | ⟨rfl, rfl, -⟩
      · exact if_pos rfl
      · exact if_pos rfl
      · exact if_pos rfl
    · rcases hst with ⟨-, rfl, hne⟩ | ⟨-, rfl, heq⟩ | ⟨-, rfl, heq⟩
      · refine .approve ?_
        cases hstatus : r.status with
        | pending => exact .inl rfl
        | approved => exact .inr (.inr rfl)
        | suspended => exact .inr (.inl rfl)
        | rejected => exact absurd hstatus hne
      · rw [heq]
        exact .suspend
      · rw [heq]
        exact .reject
  | @metadata _ _ r hr hauth =>
    exact .inr ⟨r, hr, ⟨rfl, rfl, rfl⟩, .inl ⟨rfl, rfl⟩, .inr ⟨rfl, hauth⟩⟩
  | @owner _ _ r hr hauth =>
    exact .inr ⟨r, hr, ⟨rfl, rfl, rfl⟩, .inl ⟨rfl, rfl⟩, .inr ⟨rfl, hauth⟩⟩

/-! ### Each step refines the machine -/

def system : System (OnLedger Storage) (Env × Entry) := contract Deployed exec

/-- The record stored under an id. -/
def merchantAt (id : Bytes32) (c : OnLedger Storage) : Option MerchantRecord := c.state.merchant id

def statusAt (id : Bytes32) (c : OnLedger Storage) : Option MerchantStatus :=
  (merchantAt id c).map MerchantRecord.status

/-- The status call that a transition made on a merchant, if it returned. -/
def reviewed (id : Bytes32) (m : Move (OnLedger Storage) (Env × Entry)) : Option MerchantStatus :=
  (host.called m).bind fun p => p.2.review id

/-- The outcomes of the status calls on a merchant, in order. -/
def reviews (id : Bytes32) (tr : List (Move (OnLedger Storage) (Env × Entry))) :
    List MerchantStatus := tr.filterMap (reviewed id)

lemma reviewed_of_called {m : Move (OnLedger Storage) (Env × Entry)}
    (h : host.called m = some (env, e)) : reviewed id m = e.review id := by
  rw [reviewed, h, Option.bind_some]

lemma keyed_of_reachable (h : system.Reachable c) : Keyed c.state := by
  refine contract_invariant (P := Keyed) ?_ ?_ h
  · rintro env s ⟨adm, hd⟩ id r hr
    obtain ⟨-, rfl⟩ := run_constructor.mp hd
    cases hr
  · intro env e s t hs hok id r hr
    rcases exec_effect hok with ⟨hsame, -⟩ | ⟨id', r', -, hupd⟩
    · rw [hsame] at hr
      exact hs id r hr
    · rw [hupd, update_eq_some] at hr
      rcases hr with ⟨rfl, rfl⟩ | ⟨-, hr⟩
      · rfl
      · exact hs id r hr

/-- What one transition does to the record under one id. -/
inductive RecordTurn (id : Bytes32) (m : Move (OnLedger Storage) (Env × Entry)) : Prop where
  | same (hreviewed : reviewed id m = none) (h : merchantAt id m.post = merchantAt id m.pre)
  | create {r : MerchantRecord} (hreviewed : reviewed id m = none)
      (hpre : merchantAt id m.pre = none) (hpost : merchantAt id m.post = some r)
      (h : r.status = .pending)
  | change {env : Env} {e : Entry} {r r' : MerchantRecord} (hcalled : host.called m = some (env, e))
      (hpre : merchantAt id m.pre = some r) (hpost : merchantAt id m.post = some r')
      (h : RecordStep env m.pre.state e id r r')

/-- **Refinement**: every step is a turn of the abstract machine. -/
theorem turn_of_step (hreach : system.Reachable c) (h : system.Step c l d) (id : Bytes32) :
    RecordTurn id ⟨c, l, d⟩ := by
  rcases Hosted.moves (H := host) h with ⟨hnone, heq⟩ | ⟨env, e, hcalled, hok⟩
  · have hstate : d.state = c.state := heq
    refine .same ?_ ?_
    · rw [reviewed, hnone]
      rfl
    · show d.state.merchant id = c.state.merchant id
      rw [hstate]
  · have hrev : reviewed id ⟨c, l, d⟩ = e.review id := reviewed_of_called hcalled
    have hrun : (exec e).run env c.state = .ok ((), d.state) := hok
    rcases exec_effect hrun with ⟨hsame, hreview⟩ | ⟨id', r', hw, hupd⟩
    · exact .same (hrev.trans (hreview id)) (congrFun hsame id)
    · have hkey := hw.keyed (keyed_of_reachable hreach)
      by_cases hid : id' = id
      · subst hid
        have hpost : merchantAt id' d = some r' := by
          rw [merchantAt, hupd, hkey, Function.update_self]
        rcases hw.refines with ⟨hnone, hst, hreview⟩ | ⟨r, hr, hstep⟩
        · exact .create (hrev.trans hreview) hnone hpost hst
        · exact .change hcalled hr hpost hstep
      · refine .same (hrev.trans (hw.review_of_ne hid)) ?_
        show d.state.merchant id = c.state.merchant id
        rw [hupd, hkey, Function.update_of_ne (Ne.symm hid)]

namespace RecordTurn

variable {m : Move (OnLedger Storage) (Env × Entry)}

/-- A record stays where it is, with its terms. -/
lemma terms (h : RecordTurn id m) (hr : merchantAt id m.pre = some r) :
    ∃ r', merchantAt id m.post = some r' ∧ SameTerms r r' := by
  cases h with
  | same _ heq => exact ⟨r, heq.trans hr, rfl, rfl, rfl⟩
  | create _ hpre _ _ =>
    rw [hpre] at hr
    cases hr
  | change _ hpre hpost hstep =>
    obtain rfl := Option.some.inj (hpre.symm.trans hr)
    exact ⟨_, hpost, hstep.terms⟩

/-- Two records before and after a turn are equal or related by a `RecordStep`. -/
lemma records (h : RecordTurn id m) (hr : merchantAt id m.pre = some r)
    (hr' : merchantAt id m.post = some r') :
    r' = r ∨ ∃ env e, host.called m = some (env, e) ∧ RecordStep env m.pre.state e id r r' := by
  cases h with
  | same _ heq =>
    rw [heq, hr] at hr'
    exact .inl (Option.some.inj hr').symm
  | create _ hpre _ _ =>
    rw [hpre] at hr
    cases hr
  | @change env e _ _ hcalled hpre hpost hstep =>
    obtain rfl := Option.some.inj (hpre.symm.trans hr)
    obtain rfl := Option.some.inj (hpost.symm.trans hr')
    exact .inr ⟨env, e, hcalled, hstep⟩

/-- The status appears as `Pending` and moves along the edges. -/
lemma status (h : RecordTurn id m) :
    Turn (· = MerchantStatus.pending) Edge (statusAt id m.pre) (statusAt id m.post) := by
  cases h with
  | same _ heq =>
    rw [statusAt, statusAt, heq]
    exact .same _
  | create _ hpre hpost hst =>
    rw [statusAt, statusAt, hpre, hpost]
    exact .appear hst
  | change _ hpre hpost hstep =>
    rw [statusAt, statusAt, hpre, hpost, Option.map_some, Option.map_some]
    rcases hstep.status with ⟨-, hsame⟩ | ⟨-, hadmissible, -⟩
    · rw [hsame]
      exact .same _
    · rcases hadmissible.edge with hsame | hedge
      · rw [← hsame]
        exact .same _
      · exact .change hedge

end RecordTurn

/-! ### Runs -/

lemma initialized_of_reachable (h : system.Reachable c) : c.state.isInitialized = true := by
  have hinit : c.state.initialized = some true := by
    refine contract_invariant (P := fun s => s.initialized = some true) ?_ ?_ h
    · rintro env s ⟨adm, hd⟩
      obtain ⟨-, rfl⟩ := run_constructor.mp hd
      rfl
    · intro env e s t hs hok
      exact (exec_initialized hok).trans hs
  rw [Storage.isInitialized, hinit]
  rfl

lemma merchantAt_init (h : system.Init c₀) (id : Bytes32) : merchantAt id c₀ = none := by
  obtain ⟨env, ⟨adm, hd⟩, -⟩ := h
  obtain ⟨-, hstate⟩ := run_constructor.mp hd
  rw [merchantAt, hstate]
  rfl

/-- The lifecycle of one merchant along one run. -/
structure Lifecycle (id : Bytes32) (c₀ : OnLedger Storage)
    (tr : List (Move (OnLedger Storage) (Env × Entry))) (c : OnLedger Storage) : Prop where
  created_once : tr.countP (appears (statusAt id)) ≤ 1
  created_pending : ∀ s ∈ (observed (statusAt id) c₀ tr).head?, s = .pending
  path : ((observed (statusAt id) c₀ tr).destutter (· ≠ ·)).IsChain Edge
  terms : ∀ m ∈ tr, ∀ r, merchantAt id m.pre = some r →
    ∃ r', merchantAt id m.post = some r' ∧ SameTerms r r'
  /-- A status call returns only from the statuses that admit it. -/
  admitted : ∀ m ∈ tr, ∀ s, reviewed id m = some s → ∃ r r', merchantAt id m.pre = some r ∧
    merchantAt id m.post = some r' ∧ r'.status = s ∧ Admissible r.status s
  status : ∀ m ∈ tr, ∀ r r', merchantAt id m.pre = some r → merchantAt id m.post = some r' →
    r'.status ≠ r.status → Edge r.status r'.status ∧ reviewed id m = some r'.status ∧
      ∃ env e adm, host.called m = some (env, e) ∧ m.pre.state.admin = some adm ∧
        env.auth adm = true
  owned : ∀ m ∈ tr, ∀ r r', merchantAt id m.pre = some r → merchantAt id m.post = some r' →
    r'.owner ≠ r.owner ∨ r'.metadataHash ≠ r.metadataHash → reviewed id m = none ∧
      ∃ env e, host.called m = some (env, e) ∧ env.auth r.owner = true
  approved : ∀ env, (isApproved id).run env c.state = .ok (true, c.state) ↔
    (reviews id tr).getLast? = some .approved

/-- The status of a merchant is the outcome of the last status call on it. -/
lemma status_of_reviews (h₀ : system.Init c₀) (h : system.Run c₀ tr c) (id : Bytes32) :
    (statusAt id c = none ∧ reviews id tr = []) ∨
      statusAt id c = some ((reviews id tr).getLast?.getD .pending) := by
  refine h.invariant (P := fun tr c => (statusAt id c = none ∧ reviews id tr = []) ∨
    statusAt id c = some ((reviews id tr).getLast?.getD .pending)) h₀ ?_ ?_
  · left
    rw [statusAt, merchantAt_init h₀]
    exact ⟨rfl, rfl⟩
  · intro tr t l u hreach ih hstep
    have hsnoc : reviews id (tr ++ [⟨t, l, u⟩]) =
        reviews id tr ++ (reviewed id ⟨t, l, u⟩).toList := by
      rw [reviews, List.filterMap_append]
      cases h : reviewed id ⟨t, l, u⟩ <;> simp [reviews, h]
    rw [hsnoc]
    cases turn_of_step hreach hstep id with
    | same hreviewed heq =>
      have hstatus : statusAt id u = statusAt id t := congrArg (Option.map _) heq
      rw [hreviewed, hstatus, Option.toList_none, List.append_nil]
      exact ih
    | create hreviewed hpre hpost hst =>
      right
      have hnone : statusAt id t = none := congrArg (Option.map _) hpre
      have hsome : statusAt id u = _ := congrArg (Option.map _) hpost
      rcases ih with ⟨-, hnil⟩ | ih
      · rw [hsome, hreviewed, hnil, Option.map_some, hst]
        rfl
      · rw [hnone] at ih
        cases ih
    | change hcalled hpre hpost hrecord =>
      right
      have hold : statusAt id t = _ := congrArg (Option.map _) hpre
      have hnew : statusAt id u = _ := congrArg (Option.map _) hpost
      have hreviewed : reviewed id ⟨t, l, u⟩ = _ := reviewed_of_called hcalled
      rcases ih with ⟨hnone, -⟩ | ih
      · rw [hold] at hnone
        cases hnone
      · rcases hrecord.status with ⟨hnoreview, hsame⟩ | ⟨hreview, -, -⟩
        · rw [hreviewed, hnoreview, hnew, Option.map_some, hsame, Option.toList_none,
            List.append_nil, ← ih, hold, Option.map_some]
        · rw [hreviewed, hreview, hnew, Option.map_some, Option.toList_some,
            List.getLast?_append]
          rfl

/-- What `is_approved` answers. -/
lemma run_isApproved_iff (hreach : system.Reachable c) (env : Env) (id : Bytes32) :
    (isApproved id).run env c.state = .ok (true, c.state) ↔ statusAt id c = some .approved := by
  rw [run_isApproved, statusAt, Option.map_eq_some_iff]
  constructor
  · rintro ⟨-, r, hr, hst, -⟩
    exact ⟨r, hr, of_decide_eq_true hst.symm⟩
  · rintro ⟨r, hr, hst⟩
    exact ⟨initialized_of_reachable hreach, r, hr, (decide_eq_true hst).symm, rfl⟩

/-- **Lifecycle.** Every merchant of every run. -/
theorem merchant_lifecycle (id : Bytes32) (c₀ c : OnLedger Storage)
    (tr : List (Move (OnLedger Storage) (Env × Entry))) (h₀ : system.Init c₀)
    (h : system.Run c₀ tr c) : Lifecycle id c₀ tr c := by
  have hrecord : ∀ m ∈ tr, RecordTurn id m := by
    intro m hm
    obtain ⟨hreach, hstep⟩ := h.of_mem h₀ hm
    exact turn_of_step hreach hstep id
  have hturn := fun m hm => (hrecord m hm).status
  have hinit : statusAt id c₀ = none := congrArg (Option.map _) (merchantAt_init h₀ id)
  refine ⟨?_, h.head?_observed hinit hturn, h.isChain_observed hinit hturn, ?_, ?_, ?_, ?_, ?_⟩
  · rw [h.countP_appears hinit hturn]
    split_ifs <;> simp
  · intro m hm r hr
    exact (hrecord m hm).terms hr
  · intro m hm s hs
    cases hrecord m hm with
    | same hreviewed _ =>
      rw [hreviewed] at hs
      cases hs
    | create hreviewed _ _ _ =>
      rw [hreviewed] at hs
      cases hs
    | @change env e r r' hcalled hpre hpost hstep =>
      rw [reviewed_of_called hcalled] at hs
      rcases hstep.status with ⟨hnone, -⟩ | ⟨hsome, hadmissible, -⟩
      · rw [hnone] at hs
        cases hs
      · rw [hsome] at hs
        obtain rfl := Option.some.inj hs
        exact ⟨r, r', hpre, hpost, rfl, hadmissible⟩
  · intro m hm r r' hr hr' hne
    rcases (hrecord m hm).records hr hr' with rfl | ⟨env, e, hcalled, hstep⟩
    · exact absurd rfl hne
    · rcases hstep.status with ⟨-, hsame⟩ | ⟨hreview, hadmissible, adm, hadm, hauth⟩
      · exact absurd hsame hne
      · refine ⟨hadmissible.edge.resolve_left (Ne.symm hne), ?_, env, e, adm, hcalled, hadm, hauth⟩
        rw [reviewed_of_called hcalled, hreview]
  · intro m hm r r' hr hr' hne
    rcases (hrecord m hm).records hr hr' with rfl | ⟨env, e, hcalled, hstep⟩
    · exact absurd hne (by simp)
    · rcases hstep.owned with ⟨howner, hmetadata⟩ | ⟨hreview, hauth⟩
      · exact absurd hne (by simp [howner, hmetadata])
      · refine ⟨?_, env, e, hcalled, hauth⟩
        rw [reviewed_of_called hcalled, hreview]
  · intro env
    rw [run_isApproved_iff (h.reachable h₀)]
    rcases status_of_reviews h₀ h id with ⟨hnone, hnil⟩ | hstatus
    · rw [hnone, hnil]
      simp
    · rw [hstatus, Option.some.injEq]
      cases (reviews id tr).getLast? with
      | none => simp
      | some s => simp

/-- A merchant that is registered, approved, suspended and approved again. -/
theorem merchant_lifecycle_of_resumed_merchant :
    ∃ c₀ tr c, system.Run c₀ tr c ∧ reviews (.fill 1) tr = [.approved, .suspended, .approved] ∧
      Lifecycle (.fill 1) c₀ tr c := by
  let env : Env := ⟨7, fun a => decide (a = ⟨1⟩), none, ⟨100⟩⟩
  let c₀ : OnLedger Storage := ⟨7, (constructor ⟨1⟩).commit env {}⟩
  have h₀ : system.Init c₀ := ⟨env, ⟨⟨1⟩, rfl⟩, rfl⟩
  have h : system.Run c₀ [] c₀ := .nil c₀
  have h := contract_run_call h env (.registerMerchant (.fill 1) ⟨2⟩ (.fill 2) (.fill 3)) (by decide)
  have h := contract_run_call h env (.approveMerchant (.fill 1)) (by decide)
  have h := contract_run_call h env (.suspendMerchant (.fill 1)) (by decide)
  have h := contract_run_call h env (.approveMerchant (.fill 1)) (by decide)
  exact ⟨c₀, _, _, h, by decide, merchant_lifecycle (.fill 1) c₀ _ _ h₀ h⟩

end PayEra.MerchantRegistry
