import PayEra.PaymentEngine.Answers
import Mathlib.Data.Set.Insert

/-!
# What can still become of a payment

In every reachable state a payment can reach exactly the statuses that the graph promises: no pause, no
lost operator and no failure of the registry or of the reward engine holds it back. The admin alone can
see to it, and the payer has to sign for nothing but a cancellation.
-/

namespace PayEra.PaymentEngine

open Soroban Soroban.Call Transition Relation

variable {ω : Type} {clients : Clients ω}

/-- Nobody but the given addresses signs anything. -/
def SignedBy (who : Set Address) (tr : List (Move (OnLedger (WithPeers Storage ω)) Label)) : Prop :=
  ∀ m ∈ tr, ∃ env e, m.label = .call env e ∧ ∀ x, env.auth x = true → x ∈ who

/-- Who has to sign for a status. -/
def needed (adm payer : Address) (status : PaymentStatus) : Set Address :=
  if status = .cancelled then {adm, payer} else {adm}

/-- With these signatures a payment can get to a status. -/
def Attains (clients : Clients ω) (c : OnLedger (WithPeers Storage ω)) (id : Bytes32)
    (who : Set Address) (status : PaymentStatus) : Prop :=
  ∃ tr d r, (system clients).Run c tr d ∧ SignedBy who tr ∧ paymentAt d id = some r ∧ r.status = status

/-- The prospects of a payment. -/
structure Prospects (clients : Clients ω) (c : OnLedger (WithPeers Storage ω)) (id : Bytes32)
    (r : PaymentRecord) (adm : Address) : Prop where
  attainable : ∀ status, ReflTransGen Edge r.status status →
    Attains clients c id (needed adm r.payer status) status
  /-- The payer needs nobody as long as the engine is not paused. -/
  cancellable : c.state.own.isPaused = false → r.status = .created ∨ r.status = .quoted →
    Attains clients c id {r.payer} .cancelled
  bounded : ∀ tr d r', (system clients).Run c tr d → paymentAt d id = some r' →
    ReflTransGen Edge r.status r'.status

/-- Nothing keeps the admin from operating. -/
structure Ready (s : Storage) (adm : Address) : Prop where
  live : s.Live
  admin : s.admin = some adm
  operator : s.isOperator adm = true
  rewardEngine : s.rewardEngine ≠ none

/-- A call that only `x` signs. -/
def envOf (ledger : Nat) (x : Address) : Env := ⟨ledger, fun a => decide (a = x), none, ⟨0⟩⟩

@[simp] lemma auth_envOf {ledger : Nat} {x a : Address} : (envOf ledger x).auth a = true ↔ a = x := by
  simp [envOf, Env.auth]

variable {c d : OnLedger (WithPeers Storage ω)} {id : Bytes32} {r : PaymentRecord} {adm x : Address}
  {tr tr' : List (Move (OnLedger (WithPeers Storage ω)) Label)} {who who' : Set Address} {e : Entry}

lemma SignedBy.nil : SignedBy who ([] : List (Move (OnLedger (WithPeers Storage ω)) Label)) := by
  simp [SignedBy]

lemma SignedBy.mono (h : SignedBy who tr) (hwho : who ⊆ who') : SignedBy who' tr := by
  intro m hm
  obtain ⟨env, e, hl, hauth⟩ := h m hm
  exact ⟨env, e, hl, fun x hx => hwho (hauth x hx)⟩

lemma SignedBy.append (h : SignedBy who tr) (h' : SignedBy who tr') : SignedBy who (tr ++ tr') := by
  intro m hm
  rcases List.mem_append.mp hm with hm | hm
  · exact h m hm
  · exact h' m hm

/-- One call that `x` signs, and what it leaves. -/
lemma run_signed {t : WithPeers Storage ω}
    (h : (exec clients e).run (envOf c.ledger x) c.state = .ok ((), t)) :
    ∃ tr d, (system clients).Run c tr d ∧ SignedBy {x} tr ∧ d.state = t := by
  have hrun := run_call (.nil c : (system clients).Run c [] c) (envOf c.ledger x) e le_rfl
  refine ⟨_, _, hrun, fun m hm => ?_, commit_of_ok h⟩
  obtain rfl := List.mem_singleton.mp hm
  exact ⟨_, _, rfl, fun a ha => auth_envOf.mp ha⟩

/-- The same, for a call on the engine's own storage. -/
lemma run_own_signed (clients : Clients ω) {t : Storage} {call : Engine Unit}
    (he : exec clients e = own call)
    (h : call.run (envOf c.ledger x) c.state.own = .ok ((), t)) :
    ∃ tr d, (system clients).Run c tr d ∧ SignedBy {x} tr ∧ d.state.own = t := by
  have hrun : (exec clients e).run (envOf c.ledger x) c.state = .ok ((), ⟨t, c.state.peers⟩) := by
    rw [he]
    exact run_own.mpr ⟨t, h, rfl⟩
  obtain ⟨tr, d, hd, hsigned, hstate⟩ := run_signed hrun
  exact ⟨tr, d, hd, hsigned, congrArg WithPeers.own hstate⟩

/-! ### Preparation -/

/-- The invariant that the prospects rest on. -/
lemma sound_of_reachable (h : (system clients).Reachable c) :
    Sound c.state.own ∧ c.state.own.isInitialized = true := by
  refine h.invariant (P := fun c => Sound c.state.own ∧ c.state.own.isInitialized = true) ?_ ?_
  · rintro c ⟨env, ⟨adm, registry, rewardEngine, hd⟩, -⟩
    obtain ⟨-, hown⟩ := run_constructor.mp hd
    rw [hown]
    exact ⟨⟨Option.some_ne_none adm, Option.some_ne_none registry, Option.some_ne_none rewardEngine⟩,
      rfl⟩
  · rintro c l d - ⟨hs, hi⟩ hstep
    cases l with
    | peers ledger =>
      rw [hstep.2.2]
      exact ⟨hs, hi⟩
    | call env e =>
      rw [hstep.2.2]
      rcases commit_cases (exec clients e) env c.state with ⟨u, hok⟩ | heq
      · refine ⟨sound_exec hs hok, ?_⟩
        rwa [Storage.isInitialized, exec_initialized hok]
      · rw [heq]
        exact ⟨hs, hi⟩

/-- The admin ends a pause and makes itself an operator. -/
lemma exists_ready (h : (system clients).Reachable c) (hadm : c.state.own.admin = some adm) :
    ∃ tr d, (system clients).Run c tr d ∧ SignedBy {adm} tr ∧ Ready d.state.own adm ∧
      paymentAt d = paymentAt c := by
  obtain ⟨hs, hi⟩ := sound_of_reachable h
  obtain ⟨tr, b, hrun, hsigned, hb⟩ := run_own_signed clients (c := c) (x := adm)
    (e := .unpause) rfl (run_unpause.mpr ⟨adm, hadm, auth_envOf.mpr rfl, rfl⟩)
  have hlive : b.state.own.Live := by
    rw [hb]
    exact ⟨hi, rfl⟩
  have hadm' : b.state.own.admin = some adm := by
    rw [hb]
    exact hadm
  obtain ⟨tr', d, hrun', hsigned', hd⟩ := run_own_signed clients (c := b) (x := adm)
    (e := .setOperator adm true) rfl (run_setOperator.mpr ⟨hlive, adm, hadm', auth_envOf.mpr rfl, rfl⟩)
  refine ⟨_, d, hrun.append hrun', hsigned.append hsigned', ?_, ?_⟩
  · rw [hd]
    refine ⟨hlive, hadm', ?_, ?_⟩
    · simp [Storage.isOperator, Storage.setOperator, Storage.publish]
    · rw [hb]
      exact hs.rewardEngine
  · funext id
    rw [paymentAt, hd, paymentAt, ← show b.state.own.payment = c.state.own.payment by rw [hb]; rfl]
    rfl

/-! ### One edge -/

lemma Ready.operates (h : Ready c.state.own adm) : Operates (envOf c.ledger adm) c.state.own adm :=
  ⟨h.live, auth_envOf.mpr rfl, h.operator⟩

/-- A record is written and an event published: nothing else has changed. -/
lemma Ready.written {s : Storage} (h : Ready s adm) (r : PaymentRecord) (ev : Event) :
    Ready ((s.writePayment r).publish ev) adm := ⟨h.live, h.admin, h.operator, h.rewardEngine⟩

/-- The admin has moved a payment to another status. -/
def Moves (clients : Clients ω) (c : OnLedger (WithPeers Storage ω)) (id : Bytes32) (r : PaymentRecord)
    (adm : Address) (who : Set Address) (status : PaymentStatus) : Prop :=
  ∃ tr d r', (system clients).Run c tr d ∧ SignedBy who tr ∧ Ready d.state.own adm ∧
    paymentAt d id = some r' ∧ r'.status = status ∧ r'.payer = r.payer

/-- A call writes the record of a payment. -/
lemma moves_of_run {t : WithPeers Storage ω} {r' : PaymentRecord} {ev : Event} {status : PaymentStatus}
    (hready : Ready c.state.own adm)
    (h : (exec clients e).run (envOf c.ledger x) c.state = .ok ((), t))
    (ht : t.own = (c.state.own.writePayment r').publish ev) (hid : r'.paymentId = id)
    (hstatus : r'.status = status) (hpayer : r'.payer = r.payer) :
    Moves clients c id r adm {x} status := by
  obtain ⟨tr, d, hrun, hsigned, hd⟩ := run_signed h
  refine ⟨tr, d, r', hrun, hsigned, ?_, ?_, hstatus, hpayer⟩
  · rw [hd, ht]
    exact hready.written r' ev
  · rw [paymentAt, hd, ht]
    subst hid
    exact Function.update_self ..

/-- Every edge of the graph can be taken, and only a cancellation needs the payer. -/
lemma moves_of_edge (hready : Ready c.state.own adm) (hkey : r.paymentId = id)
    (hr : paymentAt c id = some r) {status : PaymentStatus} (h : Edge r.status status) :
    Moves clients c id r adm (if status = .cancelled then {r.payer} else {adm}) status := by
  have hop := hready.operates
  generalize hfrom : r.status = a at h
  cases h with
  | quote =>
    exact moves_of_run (e := .quotePayment adm id (.lit 1) (.lit 1) 0) hready
      (run_own.mpr ⟨_, run_quotePayment.mpr ⟨hop, ⟨by decide, by decide, by decide⟩, r, hr, hfrom, rfl⟩,
        rfl⟩) rfl hkey rfl rfl
  | convert =>
    exact moves_of_run (e := .markConverted adm id) hready
      (run_own.mpr ⟨_, run_transitionOperator.mpr ⟨hop, r, hr, hfrom, rfl⟩, rfl⟩) rfl hkey rfl rfl
  | settle =>
    exact moves_of_run (e := .markSettled adm id) hready
      (run_own.mpr ⟨_, run_transitionOperator.mpr ⟨hop, r, hr, hfrom, rfl⟩, rfl⟩) rfl hkey rfl rfl
  | reward =>
    -- the reward engine may fail: the payment goes on with no reward
    obtain ⟨eng, heng⟩ := Option.ne_none_iff_exists'.mp hready.rewardEngine
    exact moves_of_run (e := .issueReward adm id) hready
      (run_void.mpr ⟨_, run_issueReward.mpr ⟨hop, r, eng, hr, hfrom, heng, rfl, rfl⟩⟩) rfl hkey rfl rfl
  | complete =>
    exact moves_of_run (e := .completePayment adm id) hready
      (run_own.mpr ⟨_, run_transitionOperator.mpr ⟨hop, r, hr, hfrom, rfl⟩, rfl⟩) rfl hkey rfl rfl
  | cancelCreated =>
    exact moves_of_run (e := .cancelPayment r.payer id) hready
      (run_own.mpr ⟨_, run_cancelPayment.mpr ⟨hready.live, auth_envOf.mpr rfl, r, hr, rfl, .inl hfrom, rfl⟩,
        rfl⟩) rfl hkey rfl rfl
  | cancelQuoted =>
    exact moves_of_run (e := .cancelPayment r.payer id) hready
      (run_own.mpr ⟨_, run_cancelPayment.mpr ⟨hready.live, auth_envOf.mpr rfl, r, hr, rfl, .inr hfrom, rfl⟩,
        rfl⟩) rfl hkey rfl rfl
  | fail hne =>
    subst hfrom
    exact moves_of_run (e := .failPayment adm id) hready
      (run_own.mpr ⟨_, run_failPayment.mpr ⟨hop, r, hr, ⟨hne.1, hne.2.1⟩, rfl⟩, rfl⟩) rfl hkey rfl rfl

/-! ### Paths -/

/-- A status that is left again is not a cancellation. -/
lemma Edge.ne_cancelled {a b : PaymentStatus} (h : Edge a b) : a ≠ .cancelled := by
  rintro rfl
  cases h with
  | fail hne => exact hne.2.1 rfl

/-- The admin takes a payment along a path of the graph, edge by edge. -/
lemma moves_of_path (hreach : (system clients).Reachable c) (hadm : c.state.own.admin = some adm)
    (hr : paymentAt c id = some r) {status : PaymentStatus} (h : ReflTransGen Edge r.status status) :
    Moves clients c id r adm (needed adm r.payer status) status := by
  induction h with
  | refl =>
    obtain ⟨tr, d, hrun, hsigned, hready, hpay⟩ := exists_ready hreach hadm
    refine ⟨tr, d, r, hrun, hsigned.mono ?_, hready, by rw [hpay, hr], rfl, rfl⟩
    unfold needed
    split_ifs <;> simp
  | @tail a b hpath hedge ih =>
    obtain ⟨tr, d, r', hrun, hsigned, hready, hr', hst, hpayer⟩ := ih
    have hkey := keyed_of_reachable (hreach.run hrun) id r' hr'
    obtain ⟨tr', d', r'', hrun', hsigned', hready', hr'', hst', hpayer'⟩ :=
      moves_of_edge hready hkey hr' (hst ▸ hedge : Edge r'.status b)
    rw [needed, if_neg hedge.ne_cancelled] at hsigned
    refine ⟨tr ++ tr', d', r'', hrun.append hrun', ?_, hready', hr'', hst', hpayer'.trans hpayer⟩
    refine (hsigned.mono ?_).append (hsigned'.mono ?_)
    · unfold needed
      split_ifs <;> simp
    · unfold needed
      split_ifs <;> simp [hpayer]

/-- Whatever happens, a payment stays on the paths of the graph. -/
lemma path_of_run (hreach : (system clients).Reachable c) (hr : paymentAt c id = some r)
    (h : (system clients).Run c tr d) :
    ∃ r', paymentAt d id = some r' ∧ ReflTransGen Edge r.status r'.status := by
  induction h with
  | nil => exact ⟨r, hr, .refl⟩
  | snoc hrun hstep ih =>
    obtain ⟨r', hr', hpath⟩ := ih
    cases turn_of_step (hreach.run hrun) hstep id with
    | same heq => exact ⟨r', heq.trans hr', hpath⟩
    | create hnone => simp [hr'] at hnone
    | change hpre hpost hchange =>
      obtain rfl := Option.some.inj (hpre.symm.trans hr')
      refine ⟨_, hpost, ?_⟩
      rcases hchange.edge with heq | hedge
      · rwa [heq]
      · exact hpath.tail hedge

/-- **Prospects.** In every reachable state there is an admin who can take every payment, whatever the
registry and the reward engine do, to exactly the statuses that lie ahead of it. -/
theorem payment_prospects (clients : Clients ω) (c : OnLedger (WithPeers Storage ω)) (id : Bytes32)
    (r : PaymentRecord) (hreach : (system clients).Reachable c) (hr : paymentAt c id = some r) :
    ∃ adm, c.state.own.admin = some adm ∧ Prospects clients c id r adm := by
  obtain ⟨hs, hi⟩ := sound_of_reachable hreach
  obtain ⟨adm, hadm⟩ := Option.ne_none_iff_exists'.mp hs.admin
  refine ⟨adm, hadm, fun status hpath => ?_, fun hpaused hst => ?_, fun tr d r' hrun hr' => ?_⟩
  · obtain ⟨tr, d, r', hrun, hsigned, -, hr', hst, -⟩ := moves_of_path hreach hadm hr hpath
    exact ⟨tr, d, r', hrun, hsigned, hr', hst⟩
  · have hkey := keyed_of_reachable hreach id r hr
    have hrun : (exec clients (.cancelPayment r.payer id)).run (envOf c.ledger r.payer) c.state =
        .ok ((), _) :=
      run_own.mpr ⟨_, run_cancelPayment.mpr ⟨⟨hi, hpaused⟩, auth_envOf.mpr rfl, r, hr, rfl, hst, rfl⟩, rfl⟩
    obtain ⟨tr, d, hrun, hsigned, hd⟩ := run_signed hrun
    refine ⟨tr, d, { r with status := .cancelled, updatedLedger := c.ledger }, hrun, hsigned, ?_, rfl⟩
    rw [paymentAt, hd]
    subst hkey
    exact Function.update_self ..
  · obtain ⟨r'', hr'', hpath⟩ := path_of_run hreach hr hrun
    obtain rfl := Option.some.inj (hr''.symm.trans hr')
    exact hpath

/-- A payment that is created before the engine is paused. -/
theorem payment_prospects_of_paused_engine :
    ∃ c r, c.state.own.isPaused = true ∧ r.status = .created ∧
      ∃ adm, Prospects approving c (.fill 1) r adm := by
  let env : Env := ⟨7, fun a => decide (a = ⟨1⟩), none, ⟨100⟩⟩
  let c₀ : OnLedger (WithPeers Storage Unit) :=
    ⟨7, ⟨(constructor ⟨1⟩ ⟨101⟩ ⟨102⟩).commit env {}, ()⟩⟩
  have h₀ : (system approving).Init c₀ := ⟨env, ⟨⟨1⟩, ⟨101⟩, ⟨102⟩, rfl⟩, rfl⟩
  have h : (system approving).Run c₀ [] c₀ := .nil c₀
  have h := run_call h env (.createPayment ⟨1⟩ ⟨2⟩ (.fill 1) (.fill 2) .XLM (.lit 5000) (.fill 3)
    (.fill 4)) le_rfl
  have h := run_call h env .pause le_rfl
  obtain ⟨adm, -, hprospects⟩ := payment_prospects approving _ (.fill 1) _ (h.reachable h₀) rfl
  exact ⟨_, _, rfl, rfl, adm, hprospects⟩

end PayEra.PaymentEngine
