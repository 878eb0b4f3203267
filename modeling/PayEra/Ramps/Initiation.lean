import PayEra.Lib.Execution
import PayEra.Ramps.Service

/-!
# What a call of `initiate` leaves behind

The initiation of a ramp is retried although the provider opens a transaction for each request that
reaches it, and one `catch` block covers everything from the authentication to the event that records
the provider's transaction. So a transaction is lost whenever a response is, and a ramp that the
provider has accepted is written off when the event after it cannot be written.
-/

namespace PayEra.Ramps

open Async (Program Executes)
open Async.Program

/-! ### The calls of an execution -/

abbrev Attempted := Async.Attempt Rails Op Op.Res Thrown

namespace Attempted

/-- The calls that are possible. -/
abbrev Goes (a : Attempted) : Prop := Async.Attempt.Goes Returns Total a

/-- The provider's transactions that the call has opened. -/
def opened (a : Attempted) : List String := a.left.opened.drop a.found.opened.length

/-- The interactive transaction, if its response has arrived intact. -/
def intact : Attempted → Option Interactive
  | ⟨.postInteractive _ _ _, .ok response, _, _, _⟩ => response.interactive?
  | _ => none

/-- The row that the call has returned, if it is the one that creates it. -/
def created : Attempted → Option RampTransaction
  | ⟨.createRamp _, .ok ramp, _, _, _⟩ => some ramp
  | _ => none

/-- The write of the provider's transaction. -/
def records (a : Attempted) : Bool :=
  match a.op with
  | .updateRamp _ data => data.providerTxId.isSome
  | _ => false

/-- The write of the `catch` block. -/
def writesOff (a : Attempted) : Bool :=
  match a.op with
  | .updateRamp _ data => data.status = some .ERROR
  | _ => false

end Attempted

/-- The execution has created the ramp. -/
def Created (tr : List Attempted) (ramp : RampTransaction) : Prop :=
  ∃ a ∈ tr, Attempted.created a = some ramp

/-- Beside the execution others may do anything but change what `keep` shows of the row. -/
def Besides {κ : Type} (keep : RampTransaction → κ) (i : String) (s s' : Rails) : Prop :=
  ∀ t, s.ramp i = some t → ∃ t', s'.ramp i = some t' ∧ keep t' = keep t

/-- An execution beside which nobody changes what `keep` shows of the row. -/
abbrev Execution {κ α : Type} (keep : RampTransaction → κ) (i : String) (p : Service α) (s : Rails)
    (tr : List Attempted) (r : Except Thrown α) (s' : Rails) : Prop :=
  Executes Returns Total (Besides keep i) p s tr r s'

/-! ### What calls do to the provider and to the row -/

section Calls

variable {s s' : Rails} {op : Op} {v : op.Res} {a : Attempted} {i : String}

lemma opened_eq_nil (h : Attempted.Goes a)
    (hop : ∀ url token body, a.op ≠ .postInteractive url token body) : a.opened = [] := by
  have heq : a.left.opened = a.found.opened := by
    rcases h.left with heq | ⟨-, v, hv⟩
    · rw [heq]
    · exact opened_returns hv hop
  rw [Attempted.opened, heq, List.drop_length]

/-- A call that is not a write of the row keeps the row. -/
lemma ramp_of_goes (h : Attempted.Goes a) (hop : ∀ data, a.op ≠ .updateRamp i data)
    {t : RampTransaction} (ht : a.found.ramp i = some t) : a.left.ramp i = some t := by
  rcases h.left with heq | ⟨-, v, hv⟩
  · rw [heq]
    exact ht
  · rw [ramp_returns hv, ht]
    generalize a.op = op at v hop
    cases op with
    | updateRamp id data =>
      have hne : id ≠ i := by
        rintro rfl
        exact hop data rfl
      exact if_neg hne
    | _ => rfl

/-- A write that takes effect changes the row, and another one does not. -/
lemma ramp_of_update {data : RampTransactionData} {r : Except Thrown RampTransaction} {took : Bool}
    (h : Attempted.Goes ⟨.updateRamp i data, r, took, s, s'⟩) {t : RampTransaction}
    (ht : s.ramp i = some t) :
    took = false ∧ s'.ramp i = some t ∨ took = true ∧ s'.ramp i = some (t.update data) := by
  have htook : ∀ v : RampTransaction, Returns (.updateRamp i data) s v s' →
      s'.ramp i = some (t.update data) := by
    intro v hv
    rw [ramp_returns hv, ht]
    exact if_pos rfl
  cases r with
  | ok v => exact .inr ⟨h.1, htook v h.2⟩
  | error e =>
    rcases h.2 with ⟨hno, heq⟩ | ⟨hyes, v, hv⟩
    · exact .inl ⟨hno, by rw [show s' = s from heq]; exact ht⟩
    · exact .inr ⟨hyes, htook v hv⟩

end Calls

/-! ### What the provider has told -/

/-- No response has told of a transaction. -/
def Lost (tr : List Attempted) : Prop := ∀ a ∈ tr, a.intact = none

/-- The last response, and only this one, has told of the transaction `id`. -/
def Told (tr : List Attempted) (id : String) : Prop :=
  ∃ before a, tr = before ++ [a] ∧ Lost before ∧ a.intact.isSome ∧ a.opened = [id]

/-- What a program returns is what the provider has told. -/
def Tells (p : Service InitiateRampResult) : Prop :=
  ∀ (κ : Type) (keep : RampTransaction → κ) i s tr r s', Execution keep i p s tr r s' →
    match r with
    | .ok result => Told tr result.providerTxId
    | .error _ => Lost tr

/-- A call that asks the provider for a transaction. -/
def Op.asks : Op → Bool
  | .postInteractive _ _ _ => true
  | _ => false

/-- A call that writes a row. -/
def Op.writes : Op → Bool
  | .updateRamp _ _ => true
  | _ => false

/-- A call that does neither. -/
def Op.Aside (op : Op) : Prop := op.asks = false ∧ op.writes = false

/-- A call that does not touch the tables of ramps and events. -/
def Op.outside : Op → Bool
  | .createRamp _ | .findRamp _ | .findOwned _ _ | .updateRamp _ _ | .findPending _
  | .lastSequence _ | .createEvent _ => false
  | _ => true

section Told

variable {κ α β : Type} {keep : RampTransaction → κ} {i id : String} {s s' : Rails}
  {tr tr₁ tr₂ : List Attempted} {p fn : Service InitiateRampResult} {anchor : Anchor}

lemma lost_nil : Lost [] := by simp [Lost]

lemma Lost.append (h₁ : Lost tr₁) (h₂ : Lost tr₂) : Lost (tr₁ ++ tr₂) := by
  intro a ha
  rcases List.mem_append.mp ha with ha | ha
  · exact h₁ a ha
  · exact h₂ a ha

lemma Told.append (h₁ : Lost tr₁) (h₂ : Told tr₂ id) : Told (tr₁ ++ tr₂) id := by
  obtain ⟨before, a, rfl, hlost, hrest⟩ := h₂
  exact ⟨tr₁ ++ before, a, (List.append_assoc ..).symm, h₁.append hlost, hrest⟩

lemma intact_of_not_asks {a : Attempted} (h : a.op.asks = false) : a.intact = none := by
  obtain ⟨op, answer, took, found, left⟩ := a
  cases op with
  | postInteractive url token body => cases h
  | _ => rfl

lemma lost_of_aside (h : ∀ a ∈ tr, a.op.Aside) : Lost tr :=
  fun a ha => intact_of_not_asks (h a ha).1

/-- Calls that ask for nothing, and then a program that tells. -/
lemma tells_bind {q : Service α} {f : α → Service InitiateRampResult} (hq : q.All Op.Aside)
    (hf : ∀ a, Tells (f a)) : Tells (q >>= f) := by
  intro κ keep i s tr r s' h
  rcases h.of_bind with ⟨a, s₁, tr₁, tr₂, rfl, h₁, h₂⟩ | ⟨e, rfl, h₁⟩
  · have hlost := lost_of_aside (h₁.all hq)
    have htells := hf a κ keep i s₁ tr₂ r s' h₂
    cases r with
    | ok result => exact .append hlost htells
    | error e => exact hlost.append htells
  · exact lost_of_aside (h₁.all hq)

lemma tells_throw (e : Thrown) : Tells (throw e) := by
  intro κ keep i s tr r s' h
  obtain ⟨rfl, rfl, rfl⟩ := h.of_done
  exact lost_nil

lemma Op.writes_of_outside {op : Op} (h : op.outside) : op.writes = false := by
  cases op with
  | updateRamp id data => cases h
  | _ => rfl

/-- A call outside that asks for no transaction. -/
lemma Op.aside_of_outside {op : Op} (h : op.outside ∧ op.asks = false) : op.Aside :=
  ⟨h.2, op.writes_of_outside h.1⟩

namespace MoneyGramProvider

lemma outside_getToml : (getToml anchor).All fun op => op.outside ∧ op.asks = false := by
  refine all_bind (all_perform ⟨rfl, rfl⟩) fun response => ?_
  split_ifs
  · refine all_bind trivial fun text => ?_
    split
    · exact all_pure _
    · exact all_throw _
  · exact all_throw _

lemma aside_getToml : (getToml anchor).All Op.Aside := outside_getToml.mono fun _ => Op.aside_of_outside

lemma outside_authenticate (address : String) :
    (authenticate anchor address).All fun op => op.outside ∧ op.asks = false := by
  refine all_bind outside_getToml fun toml => all_bind trivial fun url => ?_
  refine all_bind (all_perform ⟨rfl, rfl⟩) fun response => ?_
  split_ifs
  · refine all_bind trivial fun data => all_bind trivial fun _ => all_bind trivial fun tx => ?_
    refine all_bind (all_perform ⟨rfl, rfl⟩) fun response => ?_
    split_ifs
    · refine all_bind trivial fun token => ?_
      split_ifs
      · exact all_throw _
      · exact all_pure _
    · exact all_throw _
  · exact all_throw _

lemma aside_authenticate (address : String) : (authenticate anchor address).All Op.Aside :=
  (outside_authenticate address).mono fun _ => Op.aside_of_outside

lemma opened_of_post {url token : String} {body : List (String × String)}
    {response : Response Interactive} {took : Bool}
    (h : Attempted.Goes ⟨.postInteractive url token body, .ok response, took, s, s'⟩) :
    ∃ id, Attempted.opened ⟨.postInteractive url token body, .ok response, took, s, s'⟩ = [id] ∧
      ∀ data, response.interactive? = some data → data.id = id := by
  have hreturns : Returns (.postInteractive url token body) s response s' := h.2
  obtain ⟨id, hopened, htells⟩ := returns_post hreturns
  refine ⟨id, ?_, htells⟩
  rw [Attempted.opened, hopened, List.drop_left]

/-- An interactive initiation returns the transaction that the response tells of. -/
lemma tells_initiateInteractive (kind token : String) (params : InitiateRampParams) :
    Tells (initiateInteractive anchor kind token params) := by
  refine tells_bind aside_getToml fun toml => ?_
  intro κ keep i s tr r s' h
  rcases h.of_bind with ⟨response, s₁, tr₁, tr₂, rfl, h₁, h₂⟩ | ⟨e, rfl, h₁⟩
  · obtain ⟨took, s₂, rfl, hgoes, -⟩ := h₁.of_perform
    obtain ⟨id, hopened, htells⟩ := opened_of_post hgoes
    generalize hpost : (⟨.postInteractive _ token (interactiveForm params), .ok response, took, s, s₂⟩ :
      Attempted) = post at hopened ⊢
    have hintact : Attempted.intact post = Response.interactive? response := by
      rw [← hpost]
      rfl
    have hlost (h : Response.interactive? response = none) : Lost ([post] ++ []) := by
      intro a ha
      obtain rfl := List.mem_singleton.mp ha
      exact hintact.trans h
    split_ifs at h₂ with hok
    · rcases h₂.of_bind with ⟨data, s₃, tr₃, tr₄, rfl, h₃, h₄⟩ | ⟨e, rfl, h₃⟩
      · obtain ⟨rfl, hbody, rfl⟩ := h₃.of_done
        obtain ⟨rfl, rfl, rfl⟩ := h₄.of_done
        have hdata : Response.interactive? response = some data := by
          rw [Response.interactive?, if_pos hok, ← hbody]
          rfl
        rw [← htells data hdata] at hopened
        exact ⟨[], post, rfl, lost_nil, Option.isSome_of_eq_some (hintact.trans hdata), hopened⟩
      · obtain ⟨rfl, hbody, rfl⟩ := h₃.of_done
        refine hlost ?_
        rw [Response.interactive?, if_pos hok, ← hbody]
        rfl
    · obtain ⟨rfl, rfl, rfl⟩ := h₂.of_done
      exact hlost (if_neg hok)
  · obtain ⟨took, s₂, rfl, hgoes, -⟩ := h₁.of_perform
    intro a ha
    obtain rfl := List.mem_singleton.mp ha
    rfl

lemma tells_initiateOnRamp (token : String) (params : InitiateRampParams) :
    Tells (initiateOnRamp anchor token params) := tells_initiateInteractive _ _ _

lemma tells_initiateOffRamp (token : String) (params : InitiateRampParams) :
    Tells (initiateOffRamp anchor token params) := by
  rw [initiateOffRamp]
  split
  · exact tells_throw _
  · exact tells_initiateInteractive _ _ _

end MoneyGramProvider

namespace RampsService

lemma all_pause {P : Op → Prop} (hP : ∀ ms, P (.sleep ms)) (ms : ℕ) : (pause ms).All P := by
  rw [pause]
  split_ifs
  · exact all_pure _
  · exact all_perform (hP ms)

/-- Of several attempts the last one tells. -/
lemma tells_retryAfter (hfn : Tells fn) (backoff : List ℕ) (lastErr : Thrown) :
    Tells (retryAfter fn backoff lastErr) := by
  induction backoff generalizing lastErr with
  | nil => exact tells_throw lastErr
  | cons ms backoff ih =>
    refine tells_bind (all_pause (fun _ => ⟨rfl, rfl⟩) ms) fun _ => ?_
    · intro κ keep i s tr r s' h
      obtain ⟨r₁, s₁, tr₁, tr₂, rfl, h₁, h₂⟩ := h.of_attempt_bind
      have htells := hfn κ keep i s tr₁ r₁ s₁ h₁
      cases r₁ with
      | ok result =>
        obtain ⟨rfl, rfl, rfl⟩ := h₂.of_done
        rw [List.append_nil]
        exact htells
      | error e =>
        have hrest := ih e κ keep i s₁ tr₂ r s' h₂
        cases r with
        | ok result => exact .append htells hrest
        | error e => exact htells.append hrest

lemma all_retryAfter {q : Service α} {P : Op → Prop} (hq : q.All P) (hP : ∀ ms, P (.sleep ms))
    (backoff : List ℕ) (lastErr : Thrown) : (retryAfter q backoff lastErr).All P := by
  induction backoff generalizing lastErr with
  | nil => exact all_throw lastErr
  | cons ms backoff ih =>
    refine all_bind (all_pause hP ms) fun _ => all_bind (all_attempt hq) fun r => ?_
    cases r with
    | ok a => exact all_pure a
    | error e => exact ih e

lemma tells_openInteractive (type : RampType) (args : InitiateArgs) :
    Tells (openInteractive type (moneyGramProvider anchor) args) := by
  refine tells_bind (all_retryAfter (MoneyGramProvider.aside_authenticate _) (fun _ => ⟨rfl, rfl⟩) _ _)
    fun token => ?_
  apply tells_retryAfter
  split_ifs
  · exact MoneyGramProvider.tells_initiateOnRamp _ _
  · exact MoneyGramProvider.tells_initiateOffRamp _ _

end RampsService

end Told

/-! ### The row of the ramp -/

/-- What `keep` shows of the row with the identifier `i`. -/
def Shows {κ : Type} (keep : RampTransaction → κ) (i : String) (k : κ) (s : Rails) : Prop :=
  ∃ t, s.ramp i = some t ∧ keep t = k

/-- `upd` tells what a write does to what `keep` shows. -/
def Reflects {κ : Type} (keep : RampTransaction → κ) (upd : RampTransactionData → κ → κ) : Prop :=
  ∀ t data, keep (t.update data) = upd data (keep t)

def recordedData (result : InitiateRampResult) : RampTransactionData where
  providerTxId := some result.providerTxId
  interactiveUrl := some result.interactiveUrl
  status := some .PENDING_USER_TRANSFER

def failureData (message : String) : RampTransactionData where
  status := some .ERROR
  failureCode := some "INITIATION_FAILED"
  failureMessage := some message

section Row

variable {κ α : Type} {keep : RampTransaction → κ} {upd : RampTransactionData → κ → κ} {k : κ}
  {i : String} {s s' : Rails} {tr : List Attempted} {q : Service α}

lemma ne_update {op : Op} (h : op.writes = false) (data : RampTransactionData) :
    op ≠ .updateRamp i data := by
  rintro rfl
  cases h

lemma shows_keeps {r : Except Thrown α} (h : Execution keep i q s tr r s')
    (hq : q.All fun op => op.writes = false) (hs : Shows keep i k s) : Shows keep i k s' := by
  apply h.keeps _ _ hs
  · rintro a ha hgoes ⟨t, ht, hk⟩
    exact ⟨t, ramp_of_goes hgoes (ne_update (h.all hq a ha)) ht, hk⟩
  · rintro s s' hbesides ⟨t, ht, hk⟩
    obtain ⟨t', ht', hkeep⟩ := hbesides t ht
    exact ⟨t', ht', hkeep.trans hk⟩

/-- One write of the row. -/
lemma shows_update (hupd : Reflects keep upd) {data : RampTransactionData}
    {r : Except Thrown RampTransaction}
    (h : Execution keep i (call (.updateRamp i data)) s tr r s') (hs : Shows keep i k s) :
    ∃ a : Attempted, tr = [a] ∧ a.op = .updateRamp i data ∧
      Shows keep i (if a.took then upd data k else k) s' := by
  obtain ⟨took, s₁, rfl, hgoes, hbesides⟩ := h.of_perform
  obtain ⟨t, ht, hk⟩ := hs
  refine ⟨_, rfl, rfl, ?_⟩
  rcases ramp_of_update hgoes ht with ⟨rfl, hrow⟩ | ⟨rfl, hrow⟩
  · obtain ⟨t', ht', hkeep⟩ := hbesides t hrow
    exact ⟨t', ht', hkeep.trans hk⟩
  · obtain ⟨t', ht', hkeep⟩ := hbesides _ hrow
    refine ⟨t', ht', ?_⟩
    rw [hkeep, hupd, hk]
    rfl

namespace RampsService

lemma aside_appendEvent {id eventType source : String} {status : Option RampStatus}
    {payload : Api.Metadata} : (appendEvent id status eventType source payload).All Op.Aside :=
  all_bind (all_perform ⟨rfl, rfl⟩) fun _ => all_perform ⟨rfl, rfl⟩

lemma straight_appendEvent {id eventType source : String} {status : Option RampStatus}
    {payload : Api.Metadata} : (appendEvent id status eventType source payload).Straight :=
  straight_bind (straight_perform _) fun _ => straight_perform _

lemma straight_recordInteractive {result : InitiateRampResult} :
    (recordInteractive i result).Straight :=
  straight_bind (straight_perform _) fun _ =>
    straight_bind straight_appendEvent fun _ => straight_pure _

lemma aside_writes {op : Op} (h : op.Aside) : op.writes = false := h.2

/-- The write of the provider's transaction, and the event. -/
lemma recordInteractive_shows (hupd : Reflects keep upd) {result : InitiateRampResult}
    {r : Except Thrown RampTransaction} (h : Execution keep i (recordInteractive i result) s tr r s')
    (hs : Shows keep i k s) : ∃ (u : Attempted) (after : List Attempted), tr = u :: after ∧
      u.op = .updateRamp i (recordedData result) ∧ (∀ a ∈ after, a.op.Aside) ∧
        Shows keep i (if u.took then upd (recordedData result) k else k) s' := by
  rcases h.of_bind with ⟨t, s₁, tr₁, tr₂, rfl, h₁, h₂⟩ | ⟨e, rfl, h₁⟩
  · obtain ⟨u, rfl, hu, hs₁⟩ := shows_update hupd h₁ hs
    have hall : (appendEvent i (some .PENDING_USER_TRANSFER) "ramp.initiated" "system"
        [("providerTxId", result.providerTxId)] >>= fun _ => pure t : Service _).All Op.Aside :=
      all_bind aside_appendEvent fun _ => all_pure _
    exact ⟨u, tr₂, rfl, hu, h₂.all hall, shows_keeps h₂ (hall.mono fun _ => aside_writes) hs₁⟩
  · obtain ⟨u, rfl, hu, hs₁⟩ := shows_update hupd h₁ hs
    exact ⟨u, [], rfl, hu, by simp, hs₁⟩

/-- The write of the `catch` block, and its event. -/
lemma recordFailure_shows (hupd : Reflects keep upd) {message : String} {r : Except Thrown Unit}
    (h : Execution keep i (recordFailure i message) s tr r s') (hs : Shows keep i k s) :
    ∃ (e : Attempted) (after : List Attempted), tr = e :: after ∧
      e.op = .updateRamp i (failureData message) ∧ (∀ a ∈ after, a.op.Aside) ∧
        Shows keep i (if e.took then upd (failureData message) k else k) s' := by
  rcases h.of_bind with ⟨t, s₁, tr₁, tr₂, rfl, h₁, h₂⟩ | ⟨e, rfl, h₁⟩
  · obtain ⟨u, rfl, hu, hs₁⟩ := shows_update hupd h₁ hs
    exact ⟨u, tr₂, rfl, hu, h₂.all aside_appendEvent,
      shows_keeps h₂ (aside_appendEvent.mono fun _ => aside_writes) hs₁⟩
  · obtain ⟨u, rfl, hu, hs₁⟩ := shows_update hupd h₁ hs
    exact ⟨u, [], rfl, hu, by simp, hs₁⟩

end RampsService

end Row

/-! ### The ways in which an initiation goes -/

/-- What `keep` shows of the row in the end. Either nothing was asked of the provider; or it has told of
nothing, and the failure is written; or it has told of a transaction with the response `a`, which `u`
writes, and everything after it returns; or something after it fails, and the failure is written. -/
inductive Outcome {κ : Type} (keep : RampTransaction → κ) (upd : RampTransactionData → κ → κ)
    (i : String) (tr : List Attempted) (s' : Rails) : Prop
  | aside (haside : ∀ a ∈ tr, a.op.Aside)
  | failed (ramp : RampTransaction) (message : String) (before after : List Attempted) (e : Attempted)
      (htr : tr = before ++ e :: after) (hnew : ramp.status = .INITIATED ∧ ramp.providerTxId = none)
      (hlost : Lost before) (hbefore : ∀ a ∈ before, a.op.writes = false)
      (he : e.op = .updateRamp i (failureData message)) (hafter : ∀ a ∈ after, a.op.Aside)
      (hshows : Shows keep i (if e.took then upd (failureData message) (keep ramp) else keep ramp) s')
  | recorded (ramp : RampTransaction) (result : InitiateRampResult) (before after : List Attempted)
      (a u : Attempted) (htr : tr = before ++ a :: u :: after)
      (hnew : ramp.status = .INITIATED ∧ ramp.providerTxId = none) (hlost : Lost before)
      (hbefore : ∀ a ∈ before, a.op.writes = false) (hintact : a.intact.isSome)
      (hopened : a.opened = [result.providerTxId]) (hu : u.op = .updateRamp i (recordedData result))
      (hafter : ∀ a ∈ after, a.op.Aside) (hok : ∀ b ∈ u :: after, b.answer.isOk = true)
      (hshows : Shows keep i (if u.took then upd (recordedData result) (keep ramp) else keep ramp) s')
  | abandoned (ramp : RampTransaction) (result : InitiateRampResult) (message : String)
      (before between after : List Attempted) (a u e : Attempted)
      (htr : tr = before ++ a :: u :: (between ++ e :: after))
      (hnew : ramp.status = .INITIATED ∧ ramp.providerTxId = none) (hlost : Lost before)
      (hbefore : ∀ a ∈ before, a.op.writes = false) (hintact : a.intact.isSome)
      (hopened : a.opened = [result.providerTxId]) (hu : u.op = .updateRamp i (recordedData result))
      (hbetween : ∀ a ∈ between, a.op.Aside) (hfails : ¬∀ b ∈ u :: between, b.answer.isOk = true)
      (he : e.op = .updateRamp i (failureData message)) (hafter : ∀ a ∈ after, a.op.Aside)
      (hshows : Shows keep i
        (let k := if u.took then upd (recordedData result) (keep ramp) else keep ramp
        if e.took then upd (failureData message) k else k) s')

/-- What starts a ramp. -/
def Initiates (anchor : Anchor) (p : Service RampTransaction) : Prop :=
  ∃ publicId args, p = RampsService.initiateOnRamp anchor publicId args ∨
    p = RampsService.initiateOffRamp anchor publicId args

section Outcome

variable {κ : Type} {keep : RampTransaction → κ} {upd : RampTransactionData → κ → κ}
  {i : String} {s s' : Rails} {tr tr₀ : List Attempted} {anchor : Anchor}

/-- Something aside happens before. -/
lemma Outcome.prepend (h : Outcome keep upd i tr s') (h₀ : ∀ a ∈ tr₀, a.op.Aside) :
    Outcome keep upd i (tr₀ ++ tr) s' := by
  have hwrites {before : List Attempted} (hbefore : ∀ a ∈ before, a.op.writes = false) :
      ∀ a ∈ tr₀ ++ before, a.op.writes = false := by
    intro a ha
    rcases List.mem_append.mp ha with ha | ha
    · exact (h₀ a ha).2
    · exact hbefore a ha
  cases h with
  | aside haside =>
    refine .aside fun a ha => ?_
    rcases List.mem_append.mp ha with ha | ha
    · exact h₀ a ha
    · exact haside a ha
  | failed ramp message before after e htr hnew hlost hbefore he hafter hshows =>
    exact .failed ramp message (tr₀ ++ before) after e (by rw [htr, List.append_assoc]) hnew
      ((lost_of_aside h₀).append hlost) (hwrites hbefore) he hafter hshows
  | recorded ramp result before after a u htr hnew hlost hbefore hintact hopened hu hafter hok hshows =>
    exact .recorded ramp result (tr₀ ++ before) after a u (by rw [htr, List.append_assoc]) hnew
      ((lost_of_aside h₀).append hlost) (hwrites hbefore) hintact hopened hu hafter hok hshows
  | abandoned ramp result message before between after a u e htr hnew hlost hbefore hintact hopened hu
      hbetween hfails he hafter hshows =>
    exact .abandoned ramp result message (tr₀ ++ before) between after a u e
      (by rw [htr, List.append_assoc]) hnew ((lost_of_aside h₀).append hlost) (hwrites hbefore) hintact
      hopened hu hbetween hfails he hafter hshows

namespace RampsService

/-- The provider does not know of the rows. -/
lemma outside_openInteractive (type : RampType) (args : InitiateArgs) :
    (openInteractive type (moneyGramProvider anchor) args).All fun op => op.outside := by
  have hpost (kind token : String) (params : InitiateRampParams) :
      (MoneyGramProvider.initiateInteractive anchor kind token params).All fun op => op.outside := by
    refine all_bind (MoneyGramProvider.outside_getToml.mono fun _ => And.left) fun toml => ?_
    refine all_bind (all_perform rfl) fun response => ?_
    split_ifs
    · exact all_bind trivial fun data => all_pure _
    · exact all_throw _
  have hauthenticate : (MoneyGramProvider.authenticate anchor args.userStellarAddress).All
      fun op => op.outside := (MoneyGramProvider.outside_authenticate _).mono fun _ => And.left
  refine all_bind (all_retryAfter hauthenticate (fun _ => rfl) _ _) fun token => ?_
  apply all_retryAfter _ fun _ => rfl
  split_ifs
  · exact hpost ..
  · show (MoneyGramProvider.initiateOffRamp anchor token _).All _
    rw [MoneyGramProvider.initiateOffRamp]
    split
    · exact all_throw _
    · exact hpost ..

lemma unwriting_openInteractive (type : RampType) (args : InitiateArgs) :
    (openInteractive type (moneyGramProvider anchor) args).All fun op => op.writes = false :=
  (outside_openInteractive type args).mono fun _ => Op.writes_of_outside

/-- What `try` and `catch` leave behind. -/
lemma body_outcome (hupd : Reflects keep upd) {type : RampType} {args : InitiateArgs}
    {ramp : RampTransaction} (hnew : ramp.status = .INITIATED ∧ ramp.providerTxId = none)
    {r₁ : Except Thrown RampTransaction} {r : Except Thrown RampTransaction} {s₁ : Rails}
    {tr₁ tr₂ : List Attempted} (hs : Shows keep i (keep ramp) s)
    (h₁ : Execution keep i (openInteractive type (moneyGramProvider anchor) args >>=
      recordInteractive i) s tr₁ r₁ s₁)
    (h₂ : Execution keep i (match r₁ with
      | .ok updated => pure updated
      | .error err => recordFailure i err.message >>= fun _ => throw err) s₁ tr₂ r s') :
    Outcome keep upd i (tr₁ ++ tr₂) s' := by
  have hcatch (err : Thrown) {k : κ} (hs₁ : Shows keep i k s₁)
      (h : Execution keep i (recordFailure i err.message >>= fun _ => throw err) s₁ tr₂ r s') :
      ∃ (e : Attempted) (after : List Attempted), tr₂ = e :: after ∧
        e.op = .updateRamp i (failureData err.message) ∧ (∀ a ∈ after, a.op.Aside) ∧
          Shows keep i (if e.took then upd (failureData err.message) k else k) s' := by
    rcases h.of_bind with ⟨_, s₂, tr₃, tr₄, rfl, h₃, h₄⟩ | ⟨_, rfl, h₃⟩
    · obtain ⟨rfl, -, rfl⟩ := h₄.of_done
      rw [List.append_nil]
      exact recordFailure_shows hupd h₃ hs₁
    · exact recordFailure_shows hupd h₃ hs₁
  rcases h₁.of_bind with ⟨result, s₂, tr₃, tr₄, rfl, h₃, h₄⟩ | ⟨err, rfl, h₃⟩
  · have hwrites := h₃.all (unwriting_openInteractive type args)
    obtain ⟨before, a, rfl, hlost, hintact, hopened⟩ := tells_openInteractive type args _ _ _ _ _ _ _ h₃
    have hbefore : ∀ b ∈ before, b.op.writes = false := fun b hb =>
      hwrites b (List.mem_append_left _ hb)
    obtain ⟨u, after, rfl, hu, hafter, hs₁⟩ := recordInteractive_shows hupd h₄
      (shows_keeps h₃ (unwriting_openInteractive type args) hs)
    have hok := h₄.isOk_iff straight_recordInteractive
    cases r₁ with
    | ok updated =>
      obtain ⟨rfl, -, rfl⟩ := h₂.of_done
      exact .recorded ramp result before after a u (by simp) hnew hlost hbefore hintact hopened hu
        hafter (hok.mp rfl) hs₁
    | error err =>
      obtain ⟨e, after', rfl, he, hafter', hs'⟩ := hcatch err hs₁ h₂
      exact .abandoned ramp result err.message before after after' a u e (by simp) hnew hlost hbefore
        hintact hopened hu hafter (fun hall => Bool.noConfusion (hok.mpr hall)) he hafter' hs'
  · have hlost := tells_openInteractive type args _ _ _ _ _ _ _ h₃
    obtain ⟨e, after, rfl, he, hafter, hs'⟩ := hcatch err
      (shows_keeps h₃ (unwriting_openInteractive type args) hs) h₂
    exact .failed ramp err.message tr₁ after e rfl hnew hlost
      (h₃.all (unwriting_openInteractive type args)) he hafter hs'

lemma initiate_outcome (hupd : Reflects keep upd) {publicId : String} {type : RampType}
    {args : InitiateArgs} {r : Except Thrown RampTransaction}
    (h : Execution keep i (initiate publicId type (moneyGramProvider anchor) args) s tr r s')
    (hi : ∀ ramp, Created tr ramp → ramp.id = i) : Outcome keep upd i tr s' := by
  have hcreate : (call (.createRamp (newRamp publicId type (moneyGramProvider anchor) args))).All
      Op.Aside := all_perform ⟨rfl, rfl⟩
  rcases h.of_bind with ⟨ramp, s₁, tr₁, tr₂, rfl, h₁, h₂⟩ | ⟨e, rfl, h₁⟩
  · have haside₁ := h₁.all hcreate
    obtain ⟨took, s₂, rfl, hgoes, hbesides⟩ := h₁.of_perform
    have hid : ramp.id = i := hi ramp ⟨_, List.mem_append_left _ (List.mem_singleton_self _), rfl⟩
    have hreturns : Returns (.createRamp (newRamp publicId type (moneyGramProvider anchor) args)) s ramp
      s₂ := hgoes.2
    obtain ⟨-, hramp⟩ := returns_create hreturns
    have hnew : ramp.status = .INITIATED ∧ ramp.providerTxId = none := by
      rw [hramp]
      exact ⟨rfl, rfl⟩
    have hrow : s₂.ramp i = some ramp := by
      rw [← hid]
      exact ramp_created hreturns
    have hs₁ : Shows keep i (keep ramp) s₁ := hbesides ramp hrow
    apply Outcome.prepend _ haside₁
    rcases h₂.of_bind with ⟨_, s₃, tr₃, tr₄, rfl, h₃, h₄⟩ | ⟨e, rfl, h₃⟩
    · apply Outcome.prepend _ (h₃.all aside_appendEvent)
      obtain ⟨r₁, s₄, tr₅, tr₆, rfl, h₅, h₆⟩ := h₄.of_attempt_bind
      rw [hid] at h₅ h₆
      exact body_outcome hupd hnew (shows_keeps h₃ (aside_appendEvent.mono fun _ => aside_writes) hs₁)
        h₅ h₆
    · exact .aside (h₃.all aside_appendEvent)
  · exact .aside (h₁.all hcreate)

lemma outside_assertKycVerified (userId : String) :
    (assertKycVerified userId).All fun op => op.outside ∧ op.asks = false := by
  refine all_bind (all_perform ⟨rfl, rfl⟩) fun status => ?_
  split
  · exact all_throw _
  · split_ifs
    · exact all_pure _
    · exact all_throw _

lemma aside_assertKycVerified (userId : String) : (assertKycVerified userId).All Op.Aside :=
  (outside_assertKycVerified userId).mono fun _ => Op.aside_of_outside

end RampsService

/-- The registry has one provider. -/
lemma provider_of_get {id : String} {provider : FiatRampProvider}
    (h : RampProviderRegistry.get (RAMP_PROVIDERS anchor) id = .ok provider) :
    provider = moneyGramProvider anchor := by
  rw [RampProviderRegistry.get] at h
  split at h
  · rename_i found hfound
    cases h
    exact List.mem_singleton.mp (List.mem_of_find?_eq_some hfound)
  · cases h

/-- The check of the user, the provider, and then the ramp. -/
lemma checked_outcome {userId id : String}
    {start : FiatRampProvider → Service RampTransaction} {r : Except Thrown RampTransaction}
    (h : Execution keep i (RampsService.assertKycVerified userId >>= fun _ =>
      (Program.done (RampProviderRegistry.get (RAMP_PROVIDERS anchor) id) >>= start)) s tr r s')
    (hstart : ∀ s₁ tr₁, Execution keep i (start (moneyGramProvider anchor)) s₁ tr₁ r s' → tr₁ ⊆ tr →
      Outcome keep upd i tr₁ s') : Outcome keep upd i tr s' := by
  rcases h.of_bind with ⟨_, s₁, tr₁, tr₂, rfl, h₁, h₂⟩ | ⟨e, rfl, h₁⟩
  · apply Outcome.prepend _ (h₁.all (RampsService.aside_assertKycVerified userId))
    rcases h₂.of_bind with ⟨provider, s₂, tr₃, tr₄, rfl, h₃, h₄⟩ | ⟨e, rfl, h₃⟩
    · obtain ⟨rfl, hget, rfl⟩ := h₃.of_done
      obtain rfl := provider_of_get hget.symm
      exact hstart s₂ tr₄ h₄ (List.subset_append_right _ _)
    · obtain ⟨rfl, -, rfl⟩ := h₃.of_done
      exact .aside (by simp)
  · exact .aside (h₁.all (RampsService.aside_assertKycVerified userId))

lemma Created.mono {tr₁ : List Attempted} {ramp : RampTransaction} (h : Created tr₁ ramp)
    (hsub : tr₁ ⊆ tr) : Created tr ramp := by
  obtain ⟨a, ha, hcreated⟩ := h
  exact ⟨a, hsub ha, hcreated⟩

/-- **The ways in which a call goes.** -/
theorem initiates_outcome (hupd : Reflects keep upd) {p : Service RampTransaction}
    (hp : Initiates anchor p) {r : Except Thrown RampTransaction}
    (h : Execution keep i p s tr r s') (hi : ∀ ramp, Created tr ramp → ramp.id = i) :
    Outcome keep upd i tr s' := by
  obtain ⟨publicId, args, rfl | rfl⟩ := hp
  · refine checked_outcome h fun s₁ tr₁ h₁ hsub => ?_
    exact RampsService.initiate_outcome hupd h₁ fun ramp hramp => hi ramp (hramp.mono hsub)
  · refine checked_outcome h fun s₁ tr₁ h₁ hsub => ?_
    simp only [moneyGramProvider, if_true] at h₁
    split at h₁
    · exact RampsService.initiate_outcome hupd h₁ fun ramp hramp => hi ramp (hramp.mono hsub)
    · obtain ⟨rfl, -, rfl⟩ := h₁.of_done
      exact .aside (by simp)

end Outcome

end PayEra.Ramps
