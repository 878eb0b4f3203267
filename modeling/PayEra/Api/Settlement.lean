import PayEra.Api.Answers
import PayEra.Api.Playback

/-!
# What the status of a settlement says

Two writers give a settlement instruction its final status: the poller, from the provider's answer,
and the last step of a run, whatever the provider has said. Neither looks at the row first. Under the
condition that a final status is only written over a row that allows it, `CONFIRMED` means that the
provider said so, and a final status stays.

An owner has created the payment on chain and not yet written the reference of its payout; a poller
knows the instructions that it has fetched and the reference that the provider has confirmed to it.
-/

namespace PayEra.Api

open Async (Program Safe Discipline upon safe_pure safe_throw safe_bind safe_attempt safe_perform
  safe_forM)
open Async.Program

/-! ### Confirmed settlements -/

/-- The provider answered that the payout with this reference is done. -/
def confirms (reference : String) : (Σ c : Request, Except String c.Res) → Bool
  | ⟨⟨_, .checkPayoutStatus i⟩, .ok result⟩ =>
    let result : PayoutStatus := result
    decide (i = reference ∧ (result.status = "SUCCESS" ∨ result.status = "COMPLETED"))
  | _ => false

/-- The provider has confirmed the settlement's payout, which has a reference. -/
def SettlementInstruction.confirmedIn (s : SettlementInstruction) (w : World) : Bool :=
  s.settlementReference.any fun reference => w.calls.any (confirms reference)

/-- Each instruction has one row, and a confirmed one was confirmed by the provider. -/
structure Truthful (w : World) : Prop where
  nodup : (w.state.settlementInstructions.map (·.id)).Nodup
  confirmed : ∀ s ∈ w.state.settlementInstructions, s.status = .CONFIRMED → s.confirmedIn w

def SettlementStatus.Final (s : SettlementStatus) : Prop := s = .CONFIRMED ∨ s = .FAILED

/-- Final statuses stay. -/
def Absorbed (w w' : World) : Prop :=
  ∀ s ∈ w.state.settlementInstructions, s.status.Final →
    ∃ s' ∈ w'.state.settlementInstructions, s'.id = s.id ∧ s'.status = s.status

/-- A run confirms only what the provider has confirmed and has not failed, and the poller does not
write one final status over the other. -/
def mayWrite (op : Op) (w : World) : Bool :=
  match op with
  | .updateSettlements i data => decide (data.status = some .CONFIRMED →
      ∀ s ∈ w.state.settlementInstructions, s.transactionId = i →
        s.status = .CONFIRMED ∨ s.status ≠ .FAILED ∧ s.confirmedIn w)
  | .updateSettlement i data => decide (∀ s ∈ w.state.settlementInstructions, s.id = i →
      (data.status = some .CONFIRMED → s.status ≠ .FAILED) ∧
      (data.status = some .FAILED → s.status ≠ .CONFIRMED))
  | _ => true

def guarded : Condition := fun _ c w _ => mayWrite c.op w

/-! ### The discipline -/

inductive Clerk where
  | idle
  | owner (id : String)
  | poller (known : List SettlementInstruction) (checked : Option String)
  deriving DecidableEq

/-- The row of an instruction that a poller has fetched still has its reference. -/
def Finds (b : Backend) (s : SettlementInstruction) : Prop :=
  s.settlementReference.isSome ∧ ∃ s' ∈ b.settlementInstructions,
    s'.id = s.id ∧ s'.settlementReference = s.settlementReference

structure Settled (w : World) (f : Multiset Clerk) : Prop where
  truthful : Truthful w
  owned : ∀ id, f.count (.owner id) ≤ if (w.state.payments id).isSome then 1 else 0
  touched : ∀ s ∈ w.state.settlementInstructions, s.Untouched ∨
    (w.state.payments s.transactionId).isSome ∧ Clerk.owner s.transactionId ∉ f
  known : ∀ known checked, Clerk.poller known checked ∈ f → ∀ s ∈ known, Finds w.state s
  checked : ∀ known reference, Clerk.poller known (some reference) ∈ f →
    w.calls.any (confirms reference)

def settlement : Discipline World Request Request.Res String Clerk where
  env := env
  inv := Settled
  link ℓ c := match c.op with
    | .updateSettlements i data => data.status = some .CONFIRMED ∨ ℓ = .owner i
    | .updateSettlement _ data =>
      data.status = none ∨ data.status = some .CONFIRMED ∨ data.status = some .FAILED
    | .createTransaction t => t.Fresh
    | _ => True
  allowed _ c w _ := mayWrite c.op w
  halt _ := True

/-! ### Single calls -/

section Calls

variable {c : Request} {w w' : World} {r : Except String c.Res} {f : Multiset Clerk} {ℓ : Clerk}

lemma calls_any_mono (henv : env c w r w') {P : (Σ c : Request, Except String c.Res) → Bool}
    (h : w.calls.any P) : w'.calls.any P := by
  rw [henv.1, List.any_append, h, Bool.true_or]

lemma confirmedIn_mono {s s' : SettlementInstruction}
    (hcalls : ∀ reference, w.calls.any (confirms reference) → w'.calls.any (confirms reference))
    (href : s'.settlementReference = s.settlementReference) (h : s.confirmedIn w) :
    s'.confirmedIn w' := by
  rw [SettlementInstruction.confirmedIn, Option.any_eq_true] at h ⊢
  obtain ⟨reference, hs, hconfirmed⟩ := h
  exact ⟨reference, href.trans hs, hcalls reference hconfirmed⟩

/-- A poller's instruction was sent, so its row is not the untouched one of an owner. -/
lemma Finds.of_ref {b b' : Backend} {s : SettlementInstruction} (h : Finds b s)
    (hrow : ∀ s' ∈ b.settlementInstructions, s'.settlementReference.isSome →
      ∃ s'' ∈ b'.settlementInstructions, s''.id = s'.id ∧
        s''.settlementReference = s'.settlementReference) : Finds b' s := by
  obtain ⟨hsome, s', hs', hid, href⟩ := h
  obtain ⟨s'', hs'', hid', href'⟩ := hrow s' hs' (href ▸ hsome)
  exact ⟨hsome, s'', hs'', hid'.trans hid, href'.trans href⟩

/-- What a write has to respect. -/
structure Respects (w' : World) (s s' : SettlementInstruction) : Prop where
  settlementReference : s'.settlementReference = s.settlementReference
  untouched : s.Untouched → s'.Untouched
  confirmed : s'.status = .CONFIRMED → s.status = .CONFIRMED ∨ s'.confirmedIn w'

lemma Respects.refl (w' : World) (s : SettlementInstruction) : Respects w' s s :=
  ⟨rfl, fun h => h, .inl⟩

/-- Steps whose writes respect the rows. -/
lemma Settled.step {T : SettlementInstruction → SettlementInstruction → Prop} (h : Settled w f)
    (hrows : SettlementsStep T w.state w'.state) (hgrow : PaymentsGrow w.state w'.state)
    (hcalls : ∀ reference, w.calls.any (confirms reference) → w'.calls.any (confirms reference))
    (hT : ∀ s ∈ w.state.settlementInstructions, ∀ s', s'.id = s.id → T s s' → Respects w' s s') :
    Settled w' f := by
  refine ⟨⟨hrows.nodup h.truthful.nodup, fun s' hs' hst => ?_⟩, fun id => ?_, fun s' hs' => ?_,
    fun known checked hf s hs => ?_, fun known reference hf => ?_⟩
  · rcases hrows.backward s' hs' with hnew | ⟨s, hs, hid, -, hss'⟩
    · rw [hnew.status] at hst
      cases hst
    · have hrespects := hT s hs s' hid hss'
      rcases hrespects.confirmed hst with hold | hnow
      · have hconfirmed := h.truthful.confirmed s hs hold
        exact confirmedIn_mono hcalls hrespects.settlementReference hconfirmed
      · exact hnow
  · exact (h.owned id).trans (bound_mono hgrow id)
  · rcases hrows.backward s' hs' with hnew | ⟨s, hs, hid, htx, hss'⟩
    · exact .inl hnew
    · rw [htx]
      rcases h.touched s hs with huntouched | ⟨hrecord, howner⟩
      · exact .inl ((hT s hs s' hid hss').untouched huntouched)
      · exact .inr ⟨hgrow _ hrecord, howner⟩
  · refine (h.known known checked hf s hs).of_ref fun s₁ hs₁ _ => ?_
    obtain ⟨s₂, hs₂, hid, hss'⟩ := hrows.forward s₁ hs₁
    exact ⟨s₂, hs₂, hid, (hT s₁ hs₁ s₂ hid hss').settlementReference⟩
  · exact hcalls reference (h.checked known reference hf)

/-- Another ghost state that claims nothing new. -/
lemma Settled.replace {ℓ' : Clerk} (h : Settled w (ℓ ::ₘ f)) (howner : ∀ id, ℓ' ≠ .owner id)
    (hknown : ∀ known checked, ℓ' = .poller known checked → ∀ s ∈ known, Finds w.state s)
    (hchecked : ∀ known reference, ℓ' = .poller known (some reference) →
      w.calls.any (confirms reference)) : Settled w (ℓ' ::ₘ f) := by
  refine ⟨h.truthful, fun id => ?_, fun s hs => ?_, fun known checked hf => ?_,
    fun known reference hf => ?_⟩
  · rw [Multiset.count_cons_of_ne (howner id).symm]
    exact (Multiset.count_le_count_cons ..).trans (h.owned id)
  · refine (h.touched s hs).imp_right fun ⟨hrecord, hnone⟩ => ⟨hrecord, fun hmem => hnone ?_⟩
    rcases Multiset.mem_cons.mp hmem with heq | hmem
    · exact absurd heq.symm (howner _)
    · exact Multiset.mem_cons_of_mem hmem
  · rcases Multiset.mem_cons.mp hf with heq | hf
    · exact hknown known checked heq.symm
    · exact h.known known checked (Multiset.mem_cons_of_mem hf)
  · rcases Multiset.mem_cons.mp hf with heq | hf
    · exact hchecked known reference heq.symm
    · exact h.checked known reference (Multiset.mem_cons_of_mem hf)

lemma Settled.toIdle (h : Settled w (ℓ ::ₘ f)) : Settled w (.idle ::ₘ f) := by
  refine h.replace ?_ ?_ ?_
  · intro id hid
    cases hid
  · intro known checked hid
    cases hid
  · intro known reference hid
    cases hid

/-- Becoming the owner of a payment that had no record before. -/
lemma Settled.own {id : String} (h : Settled w' (.idle ::ₘ f)) (hbefore : Settled w (.idle ::ₘ f))
    (hrows : w'.state.settlementInstructions = w.state.settlementInstructions)
    (hnew : w.state.payments id = none) (hrecord : (w'.state.payments id).isSome) :
    Settled w' (.owner id ::ₘ f) := by
  have hsub : ∀ {ℓ'}, ℓ' ∈ Clerk.owner id ::ₘ f → ℓ' ≠ .owner id → ℓ' ∈ Clerk.idle ::ₘ f := by
    intro ℓ' hmem hne
    rcases Multiset.mem_cons.mp hmem with heq | hmem
    · exact absurd heq hne
    · exact Multiset.mem_cons_of_mem hmem
  refine ⟨h.truthful, fun i => ?_, fun s hs => ?_, fun known checked hf => ?_,
    fun known reference hf => ?_⟩
  · by_cases hi : i = id
    · subst hi
      have hzero := hbefore.owned i
      rw [hnew, Multiset.count_cons_of_ne (by simp)] at hzero
      simp only [Option.isSome_none, Bool.false_eq_true, if_false] at hzero
      rw [if_pos hrecord, Multiset.count_cons_self]
      omega
    · have hne : Clerk.owner i ≠ .owner id := fun h => hi (Clerk.owner.inj h)
      rw [Multiset.count_cons_of_ne hne]
      exact (Multiset.count_le_count_cons ..).trans (h.owned i)
  · have hbefore' : s ∈ w.state.settlementInstructions := hrows ▸ hs
    rcases hbefore.touched s hbefore' with huntouched | ⟨hold, -⟩
    · exact .inl huntouched
    · refine (h.touched s hs).imp_right fun ⟨hrec, hnone⟩ => ⟨hrec, fun hmem => ?_⟩
      rcases Multiset.mem_cons.mp hmem with heq | hmem
      · rw [Clerk.owner.inj heq, hnew] at hold
        cases hold
      · exact hnone (Multiset.mem_cons_of_mem hmem)
  · exact h.known known checked (hsub hf (by simp))
  · exact h.checked known reference (hsub hf (by simp))

/-- The owner writes the reference of its payout: the row is untouched, since there is no other
owner before it. -/
lemma Settled.send {id : String} {data : SettlementData}
    (h : Settled w (.owner id ::ₘ f)) (hstatus : data.status = some .SENT)
    (hrows : SettlementsStep (Op.mayRewrite (.updateSettlements id data)) w.state w'.state)
    (hgrow : PaymentsGrow w.state w'.state)
    (hcalls : ∀ reference, w.calls.any (confirms reference) → w'.calls.any (confirms reference)) :
    Settled w' (.idle ::ₘ f) := by
  have hmem : Clerk.owner id ∈ Clerk.owner id ::ₘ f := Multiset.mem_cons_self ..
  obtain ⟨hrecord, hsingle⟩ := alone_of_bound (h.owned id)
  have huntouched : ∀ s ∈ w.state.settlementInstructions, s.transactionId = id → s.Untouched := by
    intro s hs htx
    refine (h.touched s hs).resolve_right fun htouched => htouched.2 ?_
    rw [htx]
    exact hmem
  have hcases : ∀ s ∈ w.state.settlementInstructions, ∀ s',
      Op.mayRewrite (.updateSettlements id data) s s' →
      s' = s ∨ s.transactionId = id ∧ s.Untouched ∧ s' = s.update data := by
    intro s hs s' hss'
    exact hss'.imp_right fun ⟨htx, heq⟩ => ⟨htx, huntouched s hs htx, heq⟩
  refine ⟨⟨hrows.nodup h.truthful.nodup, fun s' hs' hst => ?_⟩, fun i => ?_, fun s' hs' => ?_,
    fun known checked hf s hs => ?_, fun known reference hf => ?_⟩
  · rcases hrows.backward s' hs' with hnew | ⟨s, hs, -, -, hss'⟩
    · rw [hnew.status] at hst
      cases hst
    · rcases hcases s hs s' hss' with rfl | ⟨-, -, rfl⟩
      · exact confirmedIn_mono hcalls rfl (h.truthful.confirmed _ hs hst)
      · rw [SettlementInstruction.update, hstatus] at hst
        cases hst
  · rw [Multiset.count_cons_of_ne (by simp)]
    exact ((Multiset.count_le_count_cons ..).trans (h.owned i)).trans (bound_mono hgrow i)
  · have hnone : ∀ i, Clerk.owner i ∉ Clerk.owner id ::ₘ f ∨ i = id →
        Clerk.owner i ∉ Clerk.idle ::ₘ f := by
      rintro i hi hmem'
      have hf : Clerk.owner i ∈ f := by simpa using hmem'
      rcases hi with hi | rfl
      · exact hi (Multiset.mem_cons_of_mem hf)
      · exact hsingle hf
    rcases hrows.backward s' hs' with hnew | ⟨s, hs, -, htx, hss'⟩
    · exact .inl hnew
    · rw [htx]
      rcases hcases s hs s' hss' with rfl | ⟨hid, -, rfl⟩
      · refine (h.touched _ hs).imp_right fun ⟨hrec, hno⟩ => ⟨hgrow _ hrec, hnone _ (.inl hno)⟩
      · rw [hid]
        exact .inr ⟨hgrow _ hrecord, hnone id (.inr rfl)⟩
  · have hf' : Clerk.poller known checked ∈ f := by simpa using hf
    have hfinds := h.known known checked (Multiset.mem_cons_of_mem hf') s hs
    refine hfinds.of_ref fun s₁ hs₁ hsome => ?_
    obtain ⟨s₂, hs₂, hid, hss'⟩ := hrows.forward s₁ hs₁
    rcases hcases s₁ hs₁ s₂ hss' with rfl | ⟨-, hun, -⟩
    · exact ⟨_, hs₂, rfl, rfl⟩
    · rw [hun.settlementReference] at hsome
      cases hsome
  · have hf' : Clerk.poller known (some reference) ∈ f := by simpa using hf
    exact hcalls reference (h.checked known reference (Multiset.mem_cons_of_mem hf'))

/-- The calls that any thread may make, as far as settlements go. -/
def Op.Routine : Op → Prop
  | .updateSettlements _ data => data.status = some .CONFIRMED ∧ data.settlementReference = none
  | .updateSettlement _ _ => False
  | .createTransaction t => t.Fresh
  | _ => True

lemma Op.Routine.fresh {op : Op} (h : op.Routine) : op.createsFresh := by
  cases op with
  | createTransaction t => exact h
  | _ => trivial

lemma Op.Routine.link (h : c.op.Routine) : settlement.link ℓ c := by
  obtain ⟨source, op⟩ := c
  cases op with
  | updateSettlements i data => exact .inl h.1
  | updateSettlement i data => exact h.elim
  | createTransaction t => exact h
  | _ => trivial

lemma not_confirmedIn_of_untouched {s : SettlementInstruction} (h : s.Untouched) :
    ¬s.confirmedIn w := by
  rw [SettlementInstruction.confirmedIn, h.settlementReference]
  exact Bool.false_ne_true

/-- The last step of a run writes over what the provider has confirmed. -/
lemma Settled.routine (h : Settled w f) (henv : env c w r w') (hop : c.op.Routine)
    (hallowed : mayWrite c.op w) : Settled w' f := by
  have hcalls : ∀ reference, w.calls.any (confirms reference) →
      w'.calls.any (confirms reference) := fun _ => calls_any_mono henv
  refine h.step (env_settlements hop.fresh henv) (env_frame henv).payments hcalls ?_
  intro s hs s' _ hss'
  rcases hss' with rfl | hrewrites
  · exact .refl w' _
  · obtain ⟨source, op⟩ := c
    cases op with
    | updateSettlements i data =>
      obtain ⟨htx, rfl⟩ := hrewrites
      obtain ⟨hstatus, hreference⟩ := hop
      have href : (s.update data).settlementReference = s.settlementReference := by
        rw [SettlementInstruction.update, hreference]
        rfl
      have hbefore := of_decide_eq_true hallowed hstatus s hs htx
      refine ⟨href, fun huntouched => ?_, fun _ => ?_⟩
      · rcases hbefore with hconfirmed | ⟨-, hconfirmed⟩
        · rw [huntouched.status] at hconfirmed
          cases hconfirmed
        · exact absurd hconfirmed (not_confirmedIn_of_untouched huntouched)
      · exact hbefore.imp_right fun hconfirmed => confirmedIn_mono hcalls href hconfirmed.2
    | updateSettlement i data => exact hop.elim
    | _ => exact hrewrites.elim

/-- A poller writes to a row whose reference it knows. -/
lemma Settled.poll {known : List SettlementInstruction} {checked : Option String}
    {s : SettlementInstruction} {data : SettlementData} {source : Source}
    {r : Except String Unit} (h : Settled w f) (hf : Clerk.poller known checked ∈ f)
    (hs : s ∈ known) (henv : env ⟨source, .updateSettlement s.id data⟩ w r w')
    (hreference : data.settlementReference = none)
    (hstatus : data.status = some .CONFIRMED → checked = s.settlementReference) :
    Settled w' f := by
  have hcalls : ∀ reference, w.calls.any (confirms reference) →
      w'.calls.any (confirms reference) := fun _ => calls_any_mono henv
  obtain ⟨hsome, row, hrow, hid, href⟩ := h.known known checked hf s hs
  have hrows := env_settlements (c := ⟨source, .updateSettlement s.id data⟩) trivial henv
  refine h.step hrows (env_frame henv).payments hcalls ?_
  intro s₁ hs₁ s' _ hss'
  rcases hss' with rfl | ⟨hid₁, rfl⟩
  · exact .refl w' _
  · obtain rfl : s₁ = row :=
      List.inj_on_of_nodup_map h.truthful.nodup hs₁ hrow (hid₁.trans hid.symm)
    have href' : (s₁.update data).settlementReference = s₁.settlementReference := by
      rw [SettlementInstruction.update, hreference]
      rfl
    refine ⟨href', fun huntouched => ?_, fun hst => ?_⟩
    · rw [← href, huntouched.settlementReference] at hsome
      cases hsome
    · cases hdata : data.status with
      | none =>
        rw [SettlementInstruction.update, hdata] at hst
        exact .inl hst
      | some status =>
        rw [SettlementInstruction.update, hdata] at hst
        obtain rfl : status = .CONFIRMED := hst
        obtain ⟨reference, hreference'⟩ := Option.isSome_iff_exists.mp hsome
        refine .inr ?_
        rw [SettlementInstruction.confirmedIn, Option.any_eq_true]
        refine ⟨reference, href'.trans (href.trans hreference'), hcalls reference ?_⟩
        rw [hstatus hdata, hreference'] at hf
        exact h.checked known reference hf

/-- A call never writes over a final status. -/
lemma Settled.absorbed (h : Settled w (ℓ ::ₘ f)) (hlink : settlement.link ℓ c)
    (hallowed : mayWrite c.op w) (henv : env c w r w') : Absorbed w w' := by
  have hfresh : c.op.createsFresh := by
    obtain ⟨source, op⟩ := c
    cases op with
    | createTransaction t => exact hlink
    | _ => trivial
  intro s hs hfinal
  obtain ⟨s', hs', hid, hss'⟩ := (env_settlements hfresh henv).forward s hs
  refine ⟨s', hs', hid, ?_⟩
  rcases hss' with rfl | hrewrites
  · rfl
  · obtain ⟨source, op⟩ := c
    cases op with
    | updateSettlements i data =>
      obtain ⟨htx, rfl⟩ := hrewrites
      rcases hlink with hstatus | rfl
      · have hconfirmed : s.status = .CONFIRMED := by
          rcases of_decide_eq_true hallowed hstatus s hs htx with hold | ⟨hnot, -⟩
          · exact hold
          · exact hfinal.resolve_right hnot
        rw [SettlementInstruction.update, hstatus, hconfirmed]
        rfl
      · rcases h.touched s hs with huntouched | ⟨-, hnone⟩
        · rcases hfinal with hf | hf
          · cases huntouched.status.symm.trans hf
          · cases huntouched.status.symm.trans hf
        · rw [htx] at hnone
          exact absurd (Multiset.mem_cons_self ..) hnone
    | updateSettlement i data =>
      obtain ⟨hid', rfl⟩ := hrewrites
      obtain ⟨hnotFailed, hnotConfirmed⟩ := of_decide_eq_true hallowed s hs hid'
      rcases hlink with hstatus | hstatus | hstatus
      · rw [SettlementInstruction.update, hstatus]
        rfl
      · rw [SettlementInstruction.update, hstatus, hfinal.resolve_right (hnotFailed hstatus)]
        rfl
      · rw [SettlementInstruction.update, hstatus, hfinal.resolve_left (hnotConfirmed hstatus)]
        rfl
    | _ => exact hrewrites.elim

end Calls

/-! ### Programs -/

/-- A class of calls that rewrite no settlement but to confirm it, and whose new rows are fresh. -/
lemma Op.routine_of {P : Op → Prop} {op : Op}
    (hconfirm : ∀ i data, P (.updateSettlements i data) →
      data.status = some .CONFIRMED ∧ data.settlementReference = none)
    (hrewrite : ∀ i data, ¬P (.updateSettlement i data))
    (hcreate : ∀ t, P (.createTransaction t) → t.Fresh) (h : P op) : op.Routine := by
  cases op with
  | updateSettlements i data => exact hconfirm i data h
  | updateSettlement i data => exact hrewrite i data h
  | createTransaction t => exact hcreate t h
  | _ => trivial

lemma Op.plain.routine {id : String} {op : Op} (h : op.plain id) : op.Routine :=
  Op.routine_of (fun _ _ => False.elim) (fun _ _ h => h) (fun _ => False.elim) h

lemma Op.closing.routine {id : String} {op : Op} (h : op.closing id) : op.Routine :=
  Op.routine_of (fun _ _ h => h.2) (fun _ _ h => h) (fun _ => False.elim) h

lemma Op.failing.routine {id : String} {op : Op} (h : op.failing id) : op.Routine :=
  Op.routine_of (fun _ _ => False.elim) (fun _ _ h => h) (fun _ => False.elim) h

lemma Op.ticking.routine {op : Op} (h : op.ticking) : op.Routine :=
  Op.routine_of (fun _ _ => False.elim) (fun _ _ h => h) (fun _ => False.elim) h

lemma Op.requested.routine {op : Op} (h : op.requested) : op.Routine :=
  Op.routine_of (fun _ _ => False.elim) (fun _ _ h => h) (fun _ h => h) h

section Programs

variable {α : Type} {js : Js} {tx : Transaction} {ℓ : Clerk} {p : Service α}

/-- The ghost state stays as it is. -/
lemma safe_routine {source : Source} {P : Op → Prop} (hP : ∀ op, P op → op.Routine)
    (hp : p.All (Request.By source P)) :
    Safe settlement p ℓ (upon (fun _ ℓ' => ℓ' = ℓ) fun ℓ' => ℓ' = ℓ) := by
  refine Safe.of_all hp (fun r => ?_) fun c hc => ⟨(hP _ hc.2).link, ?_⟩
  · cases r with
    | ok a => rfl
    | error e => rfl
  · intro w f r w' hinv hallowed henv
    exact hinv.routine henv (hP _ hc.2) hallowed

/-- No postcondition. -/
abbrev whatever {α : Type} : Except String α → Clerk → Prop :=
  upon (fun _ _ => True) fun _ => True

lemma safe_whatever {source : Source} {P : Op → Prop} (hP : ∀ op, P op → op.Routine)
    (hp : p.All (Request.By source P)) : Safe settlement p ℓ whatever :=
  (safe_routine hP hp).weaken (fun _ _ _ => trivial) fun _ _ => trivial

/-- Nothing is lost when only the result of a program matters. -/
lemma safe_keeping {source : Source} {P : Op → Prop} (hP : ∀ op, P op → op.Routine)
    (hp : p.All (Request.By source P)) :
    Safe settlement p ℓ (upon (fun _ ℓ' => ℓ' = ℓ) fun _ => True) :=
  (safe_routine hP hp).weaken (fun _ _ h => h) fun _ _ => trivial

namespace Processor

lemma safe_createClerk {q : CreatePayment} (hq : q.paymentId = tx.id) :
    Safe settlement (call (.run tx.id) (.createPayment q)) ℓ
      (upon (fun _ ℓ' => ℓ' = .owner tx.id) fun _ => True) := by
  refine safe_perform trivial ?_
  intro w f r w' hinv hallowed henv
  have hop : Op.Routine (.createPayment q) := trivial
  have hinv' : Settled w' (ℓ ::ₘ f) := hinv.routine henv hop hallowed
  cases r with
  | error e => exact ⟨ℓ, hinv', trivial⟩
  | ok hash =>
    obtain ⟨hnew, hrecord⟩ := env_createPayment henv
    rw [hq] at hnew hrecord
    have hrows := (env_frame henv).settlements rfl
    exact ⟨_, hinv'.toIdle.own hinv.toIdle hrows hnew hrecord, rfl⟩

lemma safe_routeClerk : Safe settlement (route js tx) ℓ
    (upon (fun _ ℓ' => ℓ' = .owner tx.id) fun _ => True) := by
  refine safe_bind (safe_keeping (fun _ => Op.plain.routine) plain_prepare) fun lookup ℓ _ => ?_
  refine safe_bind (safe_createClerk rfl) fun hash ℓ hℓ => ?_
  obtain rfl := hℓ
  refine safe_bind (safe_keeping (fun _ => Op.plain.routine) plain_quote) fun _ ℓ hℓ => ?_
  obtain rfl := hℓ
  exact safe_keeping (fun _ => Op.plain.routine) plain_convert

/-- The write of the payout's reference. -/
lemma safe_send {data : SettlementData} (hdata : data.status = some .SENT) :
    Safe settlement (call (.run tx.id) (.updateSettlements tx.id data)) (.owner tx.id)
      whatever := by
  refine safe_perform (.inr rfl) ?_
  intro w f r w' hinv _ henv
  have hrows := env_settlements (c := ⟨.run tx.id, .updateSettlements tx.id data⟩) trivial henv
  have hinv' : Settled w' (.idle ::ₘ f) :=
    hinv.send hdata hrows (env_frame henv).payments fun _ => calls_any_mono henv
  refine ⟨.idle, hinv', ?_⟩
  cases r with
  | ok v => trivial
  | error e => trivial

lemma safe_payMerchantClerk : Safe settlement (payMerchant tx) (.owner tx.id) whatever := by
  have hfind : (call (.run tx.id) (.findMerchant tx.merchantId)).All (Plain tx.id) :=
    all_call trivial
  refine safe_bind (safe_keeping (fun _ => Op.plain.routine) hfind) fun merchant ℓ hℓ => ?_
  obtain rfl := hℓ
  cases merchant with
  | none => exact safe_pure trivial
  | some merchant =>
    dsimp only
    cases truthy merchant.defaultUpiVpa with
    | none => exact safe_pure trivial
    | some vpa =>
      have hpay : (call (.run tx.id) (.initiateUpiPayout
          (payoutRequest tx vpa merchant.displayName))).All (Request.By (.run tx.id) Op.Routine) :=
        all_call trivial
      refine safe_bind (safe_keeping (fun _ h => h) hpay) fun result ℓ hℓ => ?_
      obtain rfl := hℓ
      exact safe_bind (safe_send rfl) fun _ ℓ _ => safe_pure trivial

lemma safe_settleClerk {stellar : StellarResult} {attempt : ℕ} :
    Safe settlement (settle tx stellar attempt) (.owner tx.id) whatever := by
  refine safe_bind (safe_keeping (fun _ => Op.plain.routine) plain_markSettled) fun _ ℓ hℓ => ?_
  obtain rfl := hℓ
  refine safe_bind safe_payMerchantClerk fun _ ℓ _ => ?_
  refine safe_bind (safe_whatever (fun _ => Op.plain.routine) plain_issueStarRewards)
    fun rewardResult ℓ _ => ?_
  exact safe_whatever (fun _ => Op.closing.routine) closing_complete

lemma safe_processClerk {attempt : ℕ} :
    Safe settlement (processTransaction js tx attempt) ℓ whatever := by
  refine safe_attempt safe_routeClerk (fun stellar ℓ hℓ => ?_) fun message ℓ _ => ?_
  · obtain rfl := hℓ
    refine safe_attempt safe_settleClerk (fun _ ℓ _ => safe_pure trivial) fun message ℓ _ => ?_
    exact safe_whatever (fun _ => Op.failing.routine) failing_abort
  · exact safe_whatever (fun _ => Op.failing.routine) failing_abort

lemma safe_retryClerk {remaining : ℕ} :
    Safe settlement (retryFrom js tx remaining) ℓ whatever := by
  have hsleep : ∀ ms, (call (.run tx.id) (.sleep ms)).All (Plain tx.id) := fun ms => all_call trivial
  exact safe_attempts (I := fun _ => True) (fun _ _ _ => safe_processClerk)
    (fun _ _ _ => safe_whatever (fun _ => Op.failing.routine) failing_giveUp)
    (fun ms _ _ => safe_whatever (fun _ => Op.plain.routine) (hsleep ms)) trivial

lemma safe_tickClerk : Safe settlement (handlePendingTransactions js) ℓ whatever := by
  have htick : ∀ {op : Op} {ℓ : Clerk}, op.ticking → Safe settlement (call .tick op) ℓ whatever :=
    fun hop => safe_whatever (fun _ => Op.ticking.routine) (all_call hop)
  have hticks := safe_ticks js (D := settlement) (I := fun _ => True) (R := fun _ _ => True)
    (E := fun _ => True) (ℓ := ℓ) (fun hop _ => htick hop) (fun _ => htick trivial)
    (fun tx _ _ => safe_retryClerk) trivial
  exact hticks.weaken (fun _ _ _ => trivial) fun _ h => h

/-! ### The poller -/

/-- A poller goes on knowing what it has fetched. -/
def Polls (known : List SettlementInstruction) (ℓ : Clerk) : Prop :=
  ∃ checked, ℓ = .poller known checked

variable {known : List SettlementInstruction} {s : SettlementInstruction}

lemma safe_findSent : Safe settlement (call .poller .findSentSettlements) ℓ
    (upon (fun known ℓ' => ℓ' = .poller known none ∧
      ∀ s ∈ (known : List SettlementInstruction), s.settlementReference.isSome) fun _ => True) := by
  refine safe_perform trivial ?_
  intro w f r w' hinv hallowed henv
  have hop : Op.Routine .findSentSettlements := trivial
  have hinv' : Settled w' (ℓ ::ₘ f) := hinv.routine henv hop hallowed
  cases r with
  | error e => exact ⟨ℓ, hinv', trivial⟩
  | ok known =>
    obtain ⟨o, hans⟩ := henv.2
    have hlist := congrArg Prod.fst (Option.some.inj hans)
    have hmem : ∀ s ∈ (known : List SettlementInstruction),
        s ∈ w'.state.settlementInstructions ∧ s.settlementReference.isSome := by
      intro s hs
      have hs' : s ∈ (known, w'.state).1 := hs
      rw [← hlist] at hs'
      have hfilter := List.mem_filter.mp (List.mem_of_mem_take hs')
      rw [(env_frame henv).settlements rfl]
      exact ⟨hfilter.1, (of_decide_eq_true hfilter.2).2⟩
    refine ⟨.poller known none, hinv'.replace ?_ ?_ ?_, rfl, fun s hs => (hmem s hs).2⟩
    · intro id hid
      cases hid
    · intro known' checked heq s hs
      cases heq
      exact ⟨(hmem s hs).2, s, (hmem s hs).1, rfl, rfl⟩
    · intro known' reference heq
      cases heq

/-- After a positive answer the poller knows that the payout is done. -/
lemma safe_check (hs : s.settlementReference.isSome) (hℓ : Polls known ℓ) :
    Safe settlement (call .poller (.checkPayoutStatus (s.settlementReference.getD ""))) ℓ
      (upon (fun result ℓ' => ∃ checked, ℓ' = .poller known checked ∧
        ((result : PayoutStatus).status = "SUCCESS" ∨ result.status = "COMPLETED" →
          checked = s.settlementReference)) (Polls known)) := by
  obtain ⟨checked, rfl⟩ := hℓ
  obtain ⟨reference, href⟩ := Option.isSome_iff_exists.mp hs
  refine safe_perform trivial ?_
  intro w f r w' hinv hallowed henv
  have hop : Op.Routine (.checkPayoutStatus (s.settlementReference.getD "")) := trivial
  have hinv' : Settled w' (.poller known checked ::ₘ f) := hinv.routine henv hop hallowed
  cases r with
  | error e => exact ⟨_, hinv', checked, rfl⟩
  | ok result =>
    by_cases hdone : (result : PayoutStatus).status = "SUCCESS" ∨ result.status = "COMPLETED"
    · refine ⟨.poller known (some reference), hinv'.replace ?_ ?_ ?_, _, rfl, fun _ => href.symm⟩
      · intro id hid
        cases hid
      · intro known' checked' heq
        cases heq
        exact hinv'.known known checked (Multiset.mem_cons_self ..)
      · intro known' reference' heq
        cases heq
        rw [henv.1, List.any_append, List.any_cons]
        have hconfirms : confirms reference ⟨⟨.poller, .checkPayoutStatus
            (s.settlementReference.getD "")⟩, .ok result⟩ := by
          rw [href]
          exact decide_eq_true ⟨rfl, hdone⟩
        rw [hconfirms, Bool.true_or, Bool.or_true]
    · exact ⟨_, hinv', checked, rfl, fun h => absurd h hdone⟩

lemma safe_nowClerk {source : Source} :
    Safe settlement (now source) ℓ (upon (fun _ ℓ' => ℓ' = ℓ) fun ℓ' => ℓ' = ℓ) :=
  safe_routine (P := Op.Routine) (fun _ h => h) (all_now trivial)

lemma safe_updateSettlement {data : SettlementData} {checked : Option String} (hs : s ∈ known)
    (hlink : data.status = none ∨ data.status = some .CONFIRMED ∨ data.status = some .FAILED)
    (hreference : data.settlementReference = none)
    (hstatus : data.status = some .CONFIRMED → checked = s.settlementReference) :
    Safe settlement (call .poller (.updateSettlement s.id data)) (.poller known checked)
      (upon (fun _ => Polls known) (Polls known)) := by
  refine safe_perform hlink ?_
  intro w f r w' hinv _ henv
  refine ⟨.poller known checked, ?_, ?_⟩
  · exact hinv.poll (Multiset.mem_cons_self ..) hs henv hreference hstatus
  · cases r with
    | ok v => exact ⟨checked, rfl⟩
    | error e => exact ⟨checked, rfl⟩

lemma safe_pollSettlement (hs : s ∈ known) (hsome : s.settlementReference.isSome)
    (hℓ : Polls known ℓ) :
    Safe settlement (pollSettlement js s) ℓ (upon (fun _ => Polls known) (Polls known)) := by
  have hpolls : ∀ {checked : Option String} {ℓ : Clerk}, ℓ = .poller known checked →
      Polls known ℓ := fun h => ⟨_, h⟩
  refine safe_bind (safe_check hsome hℓ) fun result ℓ h => ?_
  obtain ⟨checked, rfl, hchecked⟩ := h
  rw [recordStatus]
  split_ifs with hdone hfailed
  · refine safe_bind (safe_nowClerk.weaken (fun _ _ h => h) fun _ => hpolls) fun date ℓ hℓ => ?_
    obtain rfl := hℓ
    exact safe_updateSettlement hs (.inr (.inl rfl)) rfl fun _ => hchecked hdone
  · exact safe_updateSettlement hs (.inr (.inr rfl)) rfl fun h => by cases h
  · refine safe_bind (safe_nowClerk.weaken (fun _ _ h => h) fun _ => hpolls) fun date ℓ hℓ => ?_
    obtain rfl := hℓ
    exact safe_updateSettlement hs (.inl rfl) rfl fun h => by cases h

lemma safe_poller : Safe settlement (handlePendingSettlements js) ℓ whatever := by
  refine safe_bind safe_findSent fun known ℓ h => ?_
  obtain ⟨hℓ, hsome⟩ := h
  have hloop : ∀ s ∈ (known : List SettlementInstruction), ∀ ℓ, Polls known ℓ →
      Safe settlement ((pollSettlement js s).attempt >>= fun _ => pure ()) ℓ
        (upon (fun _ => Polls known) fun _ => True) := by
    intro s hs ℓ hℓ
    refine safe_attempt (safe_pollSettlement hs (hsome s hs) hℓ) (fun _ ℓ hℓ => ?_)
      fun e ℓ hℓ => ?_
    · exact safe_pure hℓ
    · exact safe_pure hℓ
  exact (safe_forM ⟨none, hℓ⟩ hloop).weaken (fun _ _ _ => trivial) fun _ h => h

end Processor

/-! ### The pipeline -/

lemma safe_startsClerk {w : World} {q : Service Unit} (h : Starts js w q) :
    Safe settlement q ℓ whatever := by
  obtain rfl | rfl | hrequest := h.job_or_requested
  · exact Processor.safe_tickClerk
  · exact Processor.safe_poller
  · exact safe_whatever (fun _ => Op.requested.routine) hrequest

lemma Settled.started {w : World} (h : Started w) : Settled w 0 := by
  have hnone : ∀ {ℓ : Clerk}, ℓ ∉ (0 : Multiset Clerk) := fun {ℓ} => Multiset.notMem_zero ℓ
  refine ⟨⟨?_, ?_⟩, fun id => Nat.zero_le _, ?_, fun _ _ hf => absurd hf hnone,
    fun _ _ hf => absurd hf hnone⟩
  · rw [h.settlementInstructions]
    exact .nil
  · rw [h.settlementInstructions]
    exact fun s hs => absurd hs List.not_mem_nil
  · rw [h.settlementInstructions]
    exact fun s hs => absurd hs List.not_mem_nil

theorem settlement_governs : Async.Governs settlement (setting js guarded) where
  env _ _ _ _ h := h
  init _ h := .started h
  start w q h := by
    refine ⟨.idle, (safe_startsClerk h).mono fun _ _ _ => trivial, fun f hf => ?_⟩
    refine ⟨hf.truthful, fun id => ?_, fun s hs => ?_, fun known checked hmem => ?_,
      fun known reference hmem => ?_⟩
    · rw [Multiset.count_cons_of_ne (by simp)]
      exact hf.owned id
    · refine (hf.touched s hs).imp_right fun h => ⟨h.1, fun hmem => h.2 ?_⟩
      simpa using hmem
    · exact hf.known known checked (by simpa using hmem)
    · exact hf.checked known reference (by simpa using hmem)
  world w w' f h hf := by
    have hrows : SettlementsStep (fun s s' => s' = s) w.state w'.state :=
      .of_perm (fun _ => rfl) h.2.settlementInstructions
    refine hf.step hrows h.2.paymentsGrow (fun _ hc => ?_) fun s _ s' _ heq => ?_
    · rw [h.1]
      exact hc
    · rw [heq]
      exact .refl w' s
  cond _ _ _ _ _ _ h := h

/-- No step of a guarded run writes over a final status. -/
lemma step_absorbed {s t : Async.Pool World Request Request.Res String}
    {l : Async.Label Request Request.Res String} (h : (pipeline js guarded).Reachable s)
    (hstep : (pipeline js guarded).Step s l t) : Absorbed s.world t.world := by
  have hsame : ∀ {w w' : World},
      w'.state.settlementInstructions.Perm w.state.settlementInstructions → Absorbed w w' := by
    intro w w' hperm s hs _
    exact ⟨s, hperm.mem_iff.mpr hs, rfl, rfl⟩
  cases l with
  | call c r =>
    obtain ⟨k, rest, hs, hcond, henv, -⟩ := hstep
    obtain ⟨ℓ, f, hlink, hinv, -⟩ := Async.ghost_of_call settlement_governs h hs
    exact hinv.absorbed hlink hcond henv
  | start p =>
    obtain ⟨-, hw, -⟩ := hstep
    exact hsame (by rw [hw])
  | world => exact hsame hstep.1.2.settlementInstructions

/-- **A settlement's status is true**, in runs that write a final status only over a row that allows
it: whatever is confirmed has a reference that the provider has confirmed, and a final status is
never written over. -/
theorem settlement_truthful {s : Async.Pool World Request Request.Res String}
    (h : (pipeline js guarded).Reachable s) :
    Truthful s.world ∧ ∀ t tr, (pipeline js guarded).Run s tr t → Absorbed s.world t.world := by
  refine ⟨?_, fun t tr hrun => ?_⟩
  · obtain ⟨f, -, hinv⟩ := Async.reachable_sound settlement_governs h
    exact hinv.truthful
  · refine hrun.relates (R := fun s t => Absorbed s.world t.world) ?_ ?_ ?_ h
    · intro s i hi _
      exact ⟨i, hi, rfl, rfl⟩
    · intro s t u hst htu i hi hfinal
      obtain ⟨i', hi', hid, hstatus⟩ := hst i hi hfinal
      obtain ⟨i'', hi'', hid', hstatus'⟩ := htu i' hi' (hstatus ▸ hfinal)
      exact ⟨i'', hi'', hid'.trans hid, hstatus'.trans hstatus⟩
    · intro s l t hs hstep
      exact step_absorbed hs hstep

end Programs

/-! ### The shop -/

namespace OneOrder

/-- The provider answers a status check. -/
def provider (status : String) : (c : Request) → World → Except String c.Res × World :=
  respond { oracle with payoutStatus := { status, utrNumber := none } } fun _ => false

lemma provider_env (status : String) (c : Request) (w : World) :
    env c w (provider status c w).1 (provider status c w).2 :=
  respond_env _ (fun _ h => absurd h Bool.false_ne_true) c w

/-- After the tick, a poller that asks a provider. -/
def polling (status : String) (n : ℕ) (w : World) : Service Unit × World :=
  (Processor.handlePendingSettlements js).runFor (provider status) n w

/-- A first poller and then a second one have fetched the order's settlement. -/
def fetched : World := (polling "FAILED" 1 (processing order 50).2).2

def fetchedTwice : World := (polling "SUCCESS" 1 fetched).2

/-- The first poller goes on, and the provider says that the payout has failed. -/
def failed : World :=
  ((polling "FAILED" 1 (processing order 50).2).1.runFor (provider "FAILED") 5 fetchedTwice).2

/-- The second poller goes on, and the provider says that it has succeeded. -/
def confirmed : World := ((polling "SUCCESS" 1 fetched).1.runFor (provider "SUCCESS") 5 failed).2

def statuses (w : World) : List SettlementStatus :=
  w.state.settlementInstructions.map (·.status)

end OneOrder

lemma guarded_checkedBy : guarded.CheckedBy fun c w _ => mayWrite c.op w := fun _ _ _ _ _ h => h

/-- The order is processed, and then polled once: its settlement is confirmed, and truthfully so. -/
theorem settlement_truthful_of_order : ∃ s, (pipeline OneOrder.js guarded).Reachable s ∧
    OneOrder.statuses s.world = [.CONFIRMED] ∧ Truthful s.world ∧
    ∀ t tr, (pipeline OneOrder.js guarded).Run s tr t → Absorbed s.world t.world := by
  have hordered : Idle OneOrder.js guarded (OneOrder.ordered OneOrder.order) :=
    OneOrder.ordered_idle guarded_checkedBy (by decide +kernel) (by decide +kernel)
  obtain ⟨threads, -, hreach⟩ :=
    OneOrder.processing_reachable (n := 50) hordered guarded_checkedBy (by decide +kernel)
  have hcheck : (Processor.handlePendingSettlements OneOrder.js).checkFor (OneOrder.provider "SUCCESS")
      (fun c w _ => mayWrite c.op w) 10 (OneOrder.processing OneOrder.order 50).2 := by decide +kernel
  have hpolled := Async.reachable_runFor (fun c w _ => OneOrder.provider_env "SUCCESS" c w)
    (fun _ _ _ h => h) hcheck
    (Async.reachable_start hreach (.poller _))
  have hstatus :
      OneOrder.statuses (OneOrder.polling "SUCCESS" 10 (OneOrder.processing OneOrder.order 50).2).2 =
      [.CONFIRMED] := by decide +kernel
  exact ⟨_, hpolled, hstatus, settlement_truthful hpolled⟩

/-- Two overlapping polls of one settlement: it is `FAILED`, and then it is `CONFIRMED`. -/
theorem failed_settlement_confirmed : ∃ s t tr, (pipeline OneOrder.js anyAnswer).Reachable s ∧
    (pipeline OneOrder.js anyAnswer).Run s tr t ∧
    OneOrder.statuses s.world = [.FAILED] ∧ OneOrder.statuses t.world = [.CONFIRMED] := by
  obtain ⟨threads, hreach⟩ := OneOrder.processed_reachable
  have hany : ∀ {rest} (c : Request) (w : World) (r : Except String c.Res), true →
      (setting OneOrder.js anyAnswer).cond rest c w r := fun _ _ _ _ => trivial
  have hfetched := Async.reachable_runFor (n := 1)
    (fun c w _ => OneOrder.provider_env "FAILED" c w) hany (checkFor_true ..)
    (Async.reachable_start hreach (.poller _))
  have hfetchedTwice := Async.reachable_runFor (n := 1)
    (fun c w _ => OneOrder.provider_env "SUCCESS" c w) hany (checkFor_true ..)
    (Async.reachable_start hfetched (.poller _))
  rw [Multiset.cons_swap] at hfetchedTwice
  have hfailed := Async.reachable_runFor (n := 5)
    (fun c w _ => OneOrder.provider_env "FAILED" c w) hany (checkFor_true ..) hfetchedTwice
  rw [Multiset.cons_swap] at hfailed
  have hcheck : (OneOrder.polling "SUCCESS" 1 OneOrder.fetched).1.checkFor (OneOrder.provider "SUCCESS")
      (fun _ _ _ => true) 5 OneOrder.failed := checkFor_true ..
  obtain ⟨tr, hrun⟩ := Async.run_runFor (S := setting OneOrder.js anyAnswer)
    (fun c w _ => OneOrder.provider_env "SUCCESS" c w) hany hcheck
  have hbefore : OneOrder.statuses OneOrder.failed = [.FAILED] := by decide +kernel
  have hafter : OneOrder.statuses OneOrder.confirmed = [.CONFIRMED] := by decide +kernel
  exact ⟨_, _, tr, hfailed, hrun, hbefore, hafter⟩

end PayEra.Api
