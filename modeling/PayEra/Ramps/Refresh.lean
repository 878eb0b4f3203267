import PayEra.Ramps.Openings

/-!
# What one refresh does

`refreshStatus` by itself, from its start to its end: an idle row is left alone, and another one is
written once, after the provider has answered.
-/

namespace PayEra.Ramps

open Async (Program Executes)
open Async.Program
open MoneyGramProvider RampsService

/-- An execution beside which only time passes for the ramps. -/
abbrev Ran {α : Type} (p : Service α) (s : Rails) (tr : List Attempted) (r : Except Thrown α)
    (s' : Rails) : Prop :=
  Executes Returns Total Rails.Other p s tr r s'

/-- The transaction that the provider has reported. -/
def Attempted.reported : Attempted → Option AnchorTransaction
  | ⟨.fetchTransaction _ _, .ok response, _, _, _⟩ =>
    if response.ok then response.body.toOption else none
  | _ => none

/-- A row that is not polled: it is terminal, or nothing was opened at the provider. -/
def RampTransaction.Idle (t : RampTransaction) : Prop :=
  isTerminal t.status = true ∨ given t.providerTxId = none

/-- The row is as before but for the status and the other columns that a poll writes. -/
structure Refreshed (status : RampStatus) (polledAt : ℕ) (t t' : RampTransaction) : Prop where
  status_eq : t'.status = status
  lastPolledAt : t'.lastPolledAt = some polledAt
  providerTxId : t'.providerTxId = t.providerTxId
  createdAt : t'.createdAt = t.createdAt
  provider : t'.provider = t.provider

/-- A call that does not write the row. -/
def Op.Spares (i : String) (op : Op) : Prop := ∀ data, op ≠ .updateRamp i data

lemma Op.spares_of_writes {i : String} {op : Op} (h : op.writes = false) : op.Spares i := by
  rintro data rfl
  cases h

/-- A call that creates no row keeps the columns that are never written. -/
lemma column_returns {β : Type} {column : RampTransaction → β}
    (hcolumn : ∀ t data, column (t.update data) = column t) {op : Op} {v : op.Res} {s s' : Rails}
    (h : Returns op s v s') (hop : ∀ data, op ≠ .createRamp data) :
    s'.ramps.map column = s.ramps.map column := by
  obtain ⟨o, ho⟩ := h
  cases op with
  | createRamp data => exact absurd rfl (hop data)
  | updateRamp id data =>
    simp only [Rails.answer] at ho
    split_ifs at ho
    obtain ⟨t, -, heq⟩ := Option.map_eq_some_iff.mp ho
    cases heq
    change List.map _ (Api.updateWhere _ _ _) = _
    rw [Api.updateWhere, List.map_map]
    refine List.map_congr_left fun t _ => ?_
    rw [Function.comp_apply]
    split_ifs
    · exact hcolumn t data
    · rfl
  | createEvent _ | postInteractive _ _ _ | findPending _ =>
    simp only [Rails.answer] at ho
    split_ifs at ho
    cases ho
    rfl
  | _ =>
    cases ho
    rfl

section Refresh

variable {α : Type} {p : Service α} {anchor : Anchor} {s s' : Rails} {tr : List Attempted}
  {r : Except Thrown α} {i id : String} {t : RampTransaction} {result : RampStatusResult}

/-! ### Programs that write no row -/

/-- A program that does not write a row keeps it. -/
lemma ramp_of_ran (hp : p.All (Op.Spares i)) (h : Ran p s tr r s') (ht : s.ramp i = some t) :
    s'.ramp i = some t := by
  refine h.keeps (J := fun s => s.ramp i = some t) (fun a ha hgoes => ?_) (fun s s' hother => ?_) ht
  · exact ramp_of_goes hgoes (h.all hp a ha)
  · rw [ramp_congr hother.ramps]
    exact id

lemma ramp_of_silent (hp : p.All fun op => op.writes = false) (h : Ran p s tr r s')
    (ht : s.ramp i = some t) : s'.ramp i = some t :=
  ramp_of_ran (hp.mono fun _ => Op.spares_of_writes) h ht

/-- A program that creates no row keeps the identifiers. -/
lemma ids_of_ran (hp : p.All fun op => ∀ data, op ≠ .createRamp data) (h : Ran p s tr r s') :
    s'.ramps.map (·.id) = s.ramps.map (·.id) := by
  refine h.keeps (J := fun s' => s'.ramps.map (·.id) = s.ramps.map (·.id)) (fun a ha hgoes heq => ?_)
    (fun s₁ s₂ hother heq => by rw [hother.ramps, heq]) rfl
  rcases hgoes.left with hleft | ⟨-, v, hv⟩
  · rw [hleft, heq]
  · rw [column_returns (fun _ _ => rfl) hv (h.all hp a ha), heq]

/-- Only passing time moves the clock. -/
lemma clock_returns {op : Op} {v : op.Res} (h : Returns op s v s') : s'.clock = s.clock := by
  obtain ⟨o, ho⟩ := h
  cases op with
  | createRamp data =>
    simp only [Rails.answer] at ho
    split_ifs at ho
    cases ho
    rfl
  | updateRamp id data =>
    simp only [Rails.answer] at ho
    split_ifs at ho
    obtain ⟨t, -, heq⟩ := Option.map_eq_some_iff.mp ho
    cases heq
    rfl
  | createEvent _ | postInteractive _ _ _ | findPending _ =>
    simp only [Rails.answer] at ho
    split_ifs at ho
    cases ho
    rfl
  | _ =>
    cases ho
    rfl

lemma clock_of_ran (h : Ran p s tr r s') : s.clock ≤ s'.clock := by
  refine h.keeps (J := fun s' => s.clock ≤ s'.clock) (fun a _ hgoes hle => ?_)
    (fun s₁ s₂ hother hle => hle.trans hother.clock) le_rfl
  rcases hgoes.left with heq | ⟨-, v, hv⟩
  · rw [heq]
    exact hle
  · rw [clock_returns hv]
    exact hle

/-! ### What the provider is asked -/

lemma outside_getStatus (token providerTxId : String) :
    (getStatus anchor token providerTxId).All fun op => op.outside ∧ op.asks = false := by
  refine all_bind outside_getToml fun toml => all_bind (all_perform ⟨rfl, rfl⟩) fun response => ?_
  split_ifs
  · exact all_bind trivial fun tx => all_pure _
  · exact all_throw _

lemma outside_fetchStatus (t : RampTransaction) (providerTxId : String) :
    (fetchStatus anchor t providerTxId).All fun op => op.outside ∧ op.asks = false := by
  rw [fetchStatus]
  cases hget : RampProviderRegistry.get (RAMP_PROVIDERS anchor) t.provider with
  | error e => exact all_throw e
  | ok provider =>
    obtain rfl := provider_of_get hget
    change (authenticate anchor t.userStellarAddress >>= fun token =>
      getStatus anchor token providerTxId).All _
    exact all_bind (outside_authenticate _) fun token => outside_getStatus _ _

/-- A status is the one that the provider has reported. -/
lemma getStatus_ok {token providerTxId : String}
    (h : Ran (getStatus anchor token providerTxId) s tr (.ok result) s') :
    ∃ a ∈ tr, ∃ tx, a.reported = some tx ∧ result.status = mapStatus tx.status := by
  obtain ⟨toml, s₁, tr₁, tr₂, rfl, -, h₁⟩ := h.of_bind_ok
  obtain ⟨response, s₂, tr₃, tr₄, rfl, hfetch, h₂⟩ := h₁.of_bind_ok
  obtain ⟨took, s₃, rfl, -, -⟩ := hfetch.of_perform
  split_ifs at h₂ with hok
  · obtain ⟨tx, s₄, tr₅, tr₆, -, hbody, h₃⟩ := h₂.of_bind_ok
    obtain ⟨-, hbody, -⟩ := hbody.of_done
    obtain ⟨-, hresult, -⟩ := h₃.of_done
    obtain rfl := Except.ok.inj hresult
    refine ⟨_, List.mem_append_right _ (List.mem_append_left _ (List.mem_singleton_self _)), tx, ?_, rfl⟩
    rw [Attempted.reported, if_pos hok, ← hbody]
    rfl
  · obtain ⟨-, heq, -⟩ := h₂.of_done
    cases heq

lemma fetchStatus_ok {providerTxId : String}
    (h : Ran (fetchStatus anchor t providerTxId) s tr (.ok result) s') :
    ∃ a ∈ tr, ∃ tx, a.reported = some tx ∧ result.status = mapStatus tx.status := by
  obtain ⟨provider, s₁, tr₁, tr₂, rfl, hget, h₁⟩ := h.of_bind_ok
  obtain ⟨-, hget, -⟩ := hget.of_done
  obtain rfl := provider_of_get hget.symm
  obtain ⟨token, s₂, tr₃, tr₄, rfl, -, h₂⟩ := h₁.of_bind_ok
  obtain ⟨a, ha, hreported⟩ := getStatus_ok h₂
  exact ⟨a, List.mem_append_right _ (List.mem_append_right _ ha), hreported⟩

/-! ### What is written -/

/-- What `applyStatus` writes. -/
def written (previousStatus : RampStatus) (result : RampStatusResult) (lastPolledAt : ℕ)
    (completedAt : Option ℕ) : RampTransactionData :=
  if result.status ≠ previousStatus then
    changedData result.status result.rawStatus completedAt (polledData result lastPolledAt)
  else polledData result lastPolledAt

lemma refreshed (t : RampTransaction) (result : RampStatusResult) (lastPolledAt : ℕ)
    (completedAt : Option ℕ) : Refreshed result.status lastPolledAt t
      (t.update (written t.status result lastPolledAt completedAt)) := by
  rw [written]
  split_ifs with hchanged
  · exact ⟨rfl, rfl, rfl, rfl, rfl⟩
  · exact ⟨(not_not.mp hchanged).symm, rfl, rfl, rfl, rfl⟩

lemma silent_appendEvent {status : Option RampStatus} {eventType source : String}
    {payload : Api.Metadata} :
    (appendEvent id status eventType source payload).All fun op => op.writes = false :=
  all_bind (all_perform rfl) fun _ => all_perform rfl

lemma silent_completionDate {status : RampStatus} :
    (completionDate status).All fun op => op.writes = false := by
  rw [completionDate]
  split_ifs
  · exact all_bind (all_perform rfl) fun _ => all_pure _
  · exact all_pure _

/-- A write that returns is there. -/
lemma ramp_of_updated {data : RampTransactionData} {v : RampTransaction}
    (h : Ran (call (.updateRamp id data)) s tr (.ok v) s') (ht : s.ramp id = some t) :
    s'.ramp id = some (t.update data) := by
  obtain ⟨took, s₁, -, hgoes, hother⟩ := h.of_perform
  rw [ramp_congr hother.ramps]
  rcases ramp_of_update hgoes ht with ⟨hno, -⟩ | ⟨-, hrow⟩
  · obtain ⟨hyes, -⟩ : took = true ∧ _ := hgoes
    rw [hno] at hyes
    cases hyes
  · exact hrow

lemma applyStatus_ok {source : String} {st : RampStatus}
    (h : Ran (applyStatus id t.status result source) s tr (.ok st) s') (ht : s.ramp id = some t) :
    ∃ t' lastPolledAt, s'.ramp id = some t' ∧ s.clock ≤ lastPolledAt ∧
      Refreshed result.status lastPolledAt t t' := by
  obtain ⟨lastPolledAt, s₁, tr₁, tr₂, -, hnow, h₁⟩ := h.of_bind_ok
  have ht₁ := ramp_of_silent (all_perform rfl) hnow ht
  have hclock : s.clock = lastPolledAt := by
    obtain ⟨took, s₂, -, ⟨-, o, hanswer⟩, -⟩ := hnow.of_perform
    exact congrArg Prod.fst (Option.some.inj hanswer)
  dsimp only at h₁
  split_ifs at h₁ with hchanged
  · obtain ⟨completedAt, s₂, tr₃, tr₄, -, hdate, h₂⟩ := h₁.of_bind_ok
    have ht₂ := ramp_of_silent silent_completionDate hdate ht₁
    obtain ⟨v, s₃, tr₅, tr₆, -, hwrite, h₃⟩ := h₂.of_bind_ok
    have ht₃ := ramp_of_updated hwrite ht₂
    obtain ⟨_, s₄, tr₇, tr₈, -, hevent, h₄⟩ := h₃.of_bind_ok
    have ht₄ := ramp_of_silent silent_appendEvent hevent ht₃
    obtain ⟨-, -, rfl⟩ := h₄.of_done
    have hrefreshed := refreshed t result lastPolledAt completedAt
    rw [written, if_pos hchanged] at hrefreshed
    exact ⟨_, _, ht₄, hclock.le, hrefreshed⟩
  · obtain ⟨v, s₂, tr₃, tr₄, -, hwrite, h₂⟩ := h₁.of_bind_ok
    have ht₂ := ramp_of_updated hwrite ht₁
    obtain ⟨-, -, rfl⟩ := h₂.of_done
    have hrefreshed := refreshed t result lastPolledAt none
    rw [written, if_neg hchanged] at hrefreshed
    exact ⟨_, _, ht₂, hclock.le, hrefreshed⟩

/-! ### The refresh -/

/-- A refresh that returns leaves an idle row alone and everything else as well; it gives any other
row the status that the provider has reported. -/
theorem refreshStatus_ok {st : RampStatus} (h : Ran (refreshStatus anchor id) s tr (.ok st) s')
    (ht : s.ramp id = some t) :
    t.Idle ∧ s'.ramps = s.ramps ∧ s'.events = s.events ∨
    ¬t.Idle ∧ ∃ a ∈ tr, ∃ tx, a.reported = some tx ∧ ∃ t' lastPolledAt, s'.ramp id = some t' ∧
      s.clock ≤ lastPolledAt ∧ Refreshed (mapStatus tx.status) lastPolledAt t t' := by
  obtain ⟨found, s₁, tr₁, tr₂, rfl, hfind, h₁⟩ := h.of_bind_ok
  have ht₁ := ramp_of_silent (all_perform rfl) hfind ht
  have hclock := clock_of_ran hfind
  obtain ⟨took, s₂, rfl, ⟨-, hreturns⟩, hother⟩ := hfind.of_perform
  obtain ⟨hfound, hs₂⟩ := returns_find hreturns
  rw [ht] at hfound
  obtain rfl : found = some t := hfound
  obtain rfl : s₂ = s := hs₂
  dsimp only at h₁
  split_ifs at h₁ with hterminal
  · obtain ⟨-, -, rfl⟩ := h₁.of_done
    exact .inl ⟨.inl hterminal, hother.ramps, hother.events⟩
  · cases hgiven : given t.providerTxId with
    | none =>
      rw [hgiven] at h₁
      obtain ⟨-, -, rfl⟩ := h₁.of_done
      exact .inl ⟨.inr hgiven, hother.ramps, hother.events⟩
    | some providerTxId =>
      rw [hgiven] at h₁
      obtain ⟨result, s₃, tr₃, tr₄, rfl, hfetch, h₂⟩ := h₁.of_bind_ok
      have ht₂ := ramp_of_silent ((outside_fetchStatus t providerTxId).mono
        fun op hop => op.writes_of_outside hop.1) hfetch ht₁
      obtain ⟨a, ha, tx, hreported, hstatus⟩ := fetchStatus_ok hfetch
      rw [id_of_ramp ht] at h₂
      obtain ⟨t', lastPolledAt, ht', hle, hrefreshed⟩ := applyStatus_ok h₂ ht₂
      rw [hstatus] at hrefreshed
      refine .inr ⟨?_, a, List.mem_append_right _ (List.mem_append_left _ ha), tx, hreported, t',
        lastPolledAt, ht', (hclock.trans (clock_of_ran hfetch)).trans hle, hrefreshed⟩
      rintro (hidle | hidle)
      · exact hterminal hidle
      · rw [hgiven] at hidle
        cases hidle

/-! ### The other rows -/

lemma spares_applyStatus {previousStatus : RampStatus} {source : String} (hi : i ≠ id) :
    (applyStatus id previousStatus result source).All (Op.Spares i) := by
  have hupdate : ∀ data, (Op.updateRamp id data).Spares i := by
    intro data data' heq
    exact hi (Op.updateRamp.inj heq).1.symm
  have hevent {status : RampStatus} {eventType : String} {payload : Api.Metadata} :
      (appendEvent id (some status) eventType source payload).All (Op.Spares i) :=
    silent_appendEvent.mono fun _ => Op.spares_of_writes
  refine all_bind (all_perform (Op.spares_of_writes rfl)) fun at_ => ?_
  dsimp only
  split_ifs
  · refine all_bind (silent_completionDate.mono fun _ => Op.spares_of_writes) fun date => ?_
    exact all_bind (all_perform (hupdate _)) fun _ => all_bind hevent fun _ => all_pure _
  · exact all_bind (all_perform (hupdate _)) fun _ => all_pure _

/-- A refresh keeps the other rows, whatever becomes of it. -/
lemma refreshStatus_spares {r : Except Thrown RampStatus}
    (h : Ran (refreshStatus anchor id) s tr r s') (hi : i ≠ id) (ht : s.ramp i = some t) :
    s'.ramp i = some t := by
  rcases h.of_bind with ⟨found, s₁, tr₁, tr₂, rfl, hfind, hrest⟩ | ⟨e, rfl, hfind⟩
  · have ht₁ := ramp_of_silent (all_perform rfl) hfind ht
    obtain ⟨took, s₂, rfl, ⟨-, hreturns⟩, -⟩ := hfind.of_perform
    obtain ⟨hfound, -⟩ := returns_find hreturns
    refine ramp_of_ran ?_ hrest ht₁
    cases found with
    | none => exact all_throw _
    | some ramp =>
      dsimp only
      split_ifs
      · exact all_pure _
      · split
        · exact all_pure _
        · refine all_bind ((outside_fetchStatus ramp _).mono
            fun op hop => Op.spares_of_writes (op.writes_of_outside hop.1)) fun result => ?_
          rw [id_of_ramp hfound.symm]
          exact spares_applyStatus hi
  · exact ramp_of_silent (all_perform rfl) hfind ht

lemma creates_refreshStatus :
    (refreshStatus anchor id).All fun op => ∀ data, op ≠ .createRamp data := by
  have houtside {op : Op} (h : op.outside) : ∀ data, op ≠ .createRamp data := by
    rintro data rfl
    cases h
  have hevent {status : Option RampStatus} {eventType source i : String} {payload : Api.Metadata} :
      (appendEvent i status eventType source payload).All fun op => ∀ data, op ≠ .createRamp data :=
    all_bind (all_perform (by simp)) fun _ => all_perform (by simp)
  refine all_bind (all_perform (by simp)) fun found => ?_
  cases found with
  | none => exact all_throw _
  | some ramp =>
    dsimp only
    split_ifs
    · exact all_pure _
    · split
      · exact all_pure _
      · refine all_bind ((outside_fetchStatus ramp _).mono fun _ h => houtside h.1) fun result => ?_
        refine all_bind (all_perform (by simp)) fun at_ => ?_
        dsimp only
        split_ifs
        · refine all_bind ?_ fun date => all_bind (all_perform (by simp)) fun _ =>
            all_bind hevent fun _ => all_pure _
          rw [completionDate]
          split_ifs
          · exact all_bind (all_perform (by simp)) fun _ => all_pure _
          · exact all_pure _
        · exact all_bind (all_perform (by simp)) fun _ => all_pure _

end Refresh

namespace PlayedRamps

/-- Every call is answered that can be, by an oracle. -/
def answeringBy (o : Op → Rails → Oracle) (op : Op) (s : Rails) :
    Except Thrown op.Res × Bool × Rails :=
  match Rails.answer (o op s) op s with
  | none => (.error (.error "refused"), false, s)
  | some (v, s') => (.ok v, true, s')

lemma goes_answeringBy (o : Op → Rails → Oracle) (op : Op) (s : Rails) : Attempted.Goes
    ⟨op, (answeringBy o op s).1, (answeringBy o op s).2.1, s, (answeringBy o op s).2.2⟩ := by
  rw [answeringBy]
  cases hanswer : Rails.answer _ op s with
  | none =>
    refine ⟨?_, .inl ⟨rfl, rfl⟩⟩
    rintro (rfl | ⟨ms, rfl⟩)
    · cases hanswer
    · cases hanswer
  | some vs => exact ⟨rfl, _, hanswer⟩

lemma ran_answeringBy {α : Type} (o : Op → Rails → Oracle) (p : Service α) (s : Rails) :
    Ran p s (p.play (answeringBy o) s).1 (p.play (answeringBy o) s).2.1
      (p.play (answeringBy o) s).2.2 :=
  Async.executes_play (answeringBy o) p s (goes_answeringBy o) fun _ =>
    ⟨rfl, rfl, List.Subset.refl _, le_rfl⟩

/-- The provider reports the given status. -/
abbrev answering (raw : String) : (op : Op) → Rails → Except Thrown op.Res × Bool × Rails :=
  answeringBy fun _ s => { oracle s with transaction := { status := 200, body := .ok { status := raw } } }

/-- A ramp that waits for the provider. -/
def waiting : Rails where
  ramps :=
    [{ publicId := "ONRAMP_1", userId := "customer", provider := "MONEYGRAM", type := .ONRAMP
       status := .PENDING_ANCHOR, userStellarAddress := "address", assetCode := "USDC"
       amountIn := none, id := "ramp", providerTxId := some "first", createdAt := 0 }]
  opened := ["first"]

end PlayedRamps

end PayEra.Ramps
