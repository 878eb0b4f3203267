import PayEra.Lib.Script
import PayEra.Ramps.Initiation
import PayEra.Ramps.Sessions

/-!
# The script of the ramps service

Where a session is in its program: at which ramp it has looked, what status it has written without the
event, which sequence number it is about to give. Every session of the service keeps to this script.
-/

namespace PayEra.Ramps

open Async (Program Script upon)
open Async.Program Async.Script

/-! ### Places -/

/-- Why a status was written: the ramp was created, its initiation has gone on or failed, or a refresh
has found the previous status out of date. -/
inductive Origin where
  | created (publicId : String)
  | initiated
  | changed (previous : RampStatus)

inductive Place where
  | clear
  /-- The row was found with this status. -/
  | looked (id : String) (status : RampStatus)
  /-- The status was written, its event is due. -/
  | owing (id : String) (status : RampStatus) (origin : Origin)
  /-- The event is due with this sequence number. -/
  | numbered (id : String) (status : RampStatus) (origin : Origin) (sequence : ℕ)
  | beside (id : String)

namespace Place

/-- The session has to do with the ramp, and may write a status to it. -/
def About (id : String) : Place → Prop
  | .clear => False
  | .looked i status => i = id ∧ RampsService.isTerminal status = false
  | .owing i _ _ | .numbered i _ _ _ | .beside i => i = id

/-- The origin of a status that is written now. -/
def origin : Place → Origin
  | .looked _ status => .changed status
  | _ => .initiated

/-- Where a write to the row leads. -/
def wrote (id : String) (data : RampTransactionData) (κ : Place) : Place :=
  match data.status with
  | some status => .owing id status κ.origin
  | none => κ

/-- Where a sequence number leads. -/
def number (sequence : ℕ) : Place → Place
  | .owing id status origin => .numbered id status origin sequence
  | κ => κ

/-- Where a sequence number that is not used leads. -/
def unnumber : Place → Place
  | .numbered id status origin _ => .owing id status origin
  | κ => κ

end Place

/-! ### The script -/

/-- New ramps are `INITIATED`, and with a status come the columns that belong to it. -/
structure RampTransactionData.Proper (data : RampTransactionData) : Prop where
  changed : ∀ status, data.status = some status →
    (data.completedAt.isSome ↔ status = .COMPLETED) ∧ (data.failureCode.isSome ↔ status = .ERROR) ∧
      (data.failureMessage.isSome ↔ status = .ERROR)
  unchanged : data.status = none →
    data.completedAt = none ∧ data.failureCode = none ∧ data.failureMessage = none

lemma RampTransactionData.Proper.of_some {data : RampTransactionData} {status : RampStatus}
    (h : data.status = some status) (hcompletedAt : data.completedAt.isSome ↔ status = .COMPLETED)
    (hcode : data.failureCode.isSome ↔ status = .ERROR)
    (hmessage : data.failureMessage.isSome ↔ status = .ERROR) : data.Proper where
  changed status' h' := by
    obtain rfl : status = status' := Option.some.inj (h.symm.trans h')
    exact ⟨hcompletedAt, hcode, hmessage⟩
  unchanged h' := by
    rw [h] at h'
    cases h'

/-- The event says what was written, and what was there before. -/
structure RampTransactionEvent.Tells (e : RampTransactionEvent) (status : RampStatus)
    (origin : Origin) : Prop where
  status : e.status = some status
  previous : e.eventType = "ramp.status_changed" →
    ∃ previous, origin = .changed previous ∧ e.payload.lookup "from" = some previous.name

/-- The script of the service. -/
def script : Script Asked Op Op.Res Thrown Place where
  start _ := .clear
  may κ
    | .createRamp data => κ = .clear ∧ data.status = .INITIATED
    | .updateRamp id data => data.Proper ∧ (data.status.isSome → κ.About id)
    | .lastSequence id => ∃ status origin, κ = .owing id status origin
    | .createEvent e => ∃ status origin,
        κ = .numbered e.rampTransactionId status origin e.sequence ∧ e.Tells status origin
    | _ => True
  leads κ
    | .createRamp data, .ok ramp, κ' => κ' = .owing ramp.id data.status (.created data.publicId)
    | .createRamp data, .error _, κ' =>
        κ' = κ ∨ ∃ id, κ' = .owing id data.status (.created data.publicId)
    | .findRamp id, .ok (some ramp), κ' => ramp.id = id ∧ κ' = .looked id ramp.status
    | .findRamp _, _, κ' => κ' = .clear
    | .updateRamp id data, .ok _, κ' => κ' = κ.wrote id data
    | .updateRamp id data, .error _, κ' => κ' = κ ∨ κ' = κ.wrote id data
    | .lastSequence _, .ok last, κ' => κ' = κ.number (last.getD 0 + 1)
    | .createEvent e, .ok _, κ' => κ' = .beside e.rampTransactionId
    | .createEvent e, .error _, κ' => κ' = κ.unnumber ∨ κ' = .beside e.rampTransactionId
    | _, _, κ' => κ' = κ

/-! ### The programs keep to it -/

section Admits

variable {anchor : Anchor} {α : Type} {κ : Place} {id : String} {status : RampStatus} {origin : Origin}

/-- Calls outside lead nowhere. -/
lemma admits_outside {p : Service α} {G : Except Thrown α → Place → Prop}
    (hp : p.All fun op => op.outside) (hG : ∀ r, G r κ) : script.Admits p κ G := by
  refine admits_all hp hG fun op hop => ?_
  cases op with
  | createRamp | findRamp | updateRamp | findPending | lastSequence | createEvent => cases hop
  | _ => exact ⟨trivial, fun r κ' h => h⟩

/-- The session is at its own ramp, whether or not it owes an event. -/
def Place.At (id : String) (κ : Place) : Prop :=
  κ = .beside id ∨ ∃ status origin, κ = .owing id status origin

lemma Place.At.about (h : κ.At id) : κ.About id := by
  rcases h with rfl | ⟨status, origin, rfl⟩
  · rfl
  · rfl

namespace RampsService

lemma admits_appendEvent {eventType source : String} {payload : Api.Metadata}
    (h : ∀ rampTransactionId sequence, RampTransactionEvent.Tells
      { rampTransactionId, sequence, status := some status, eventType, source, payload }
        status origin) :
    script.Admits (appendEvent id (some status) eventType source payload) (.owing id status origin)
      (upon (fun _ κ => κ = .beside id) (Place.At id)) := by
  refine admits_call ⟨status, origin, rfl⟩ ?_ ?_
  · intro e κ' hleads
    exact .inr ⟨status, origin, hleads⟩
  · rintro last κ rfl
    refine admits_perform ⟨status, origin, rfl, h _ _⟩ fun r κ' hleads => ?_
    cases r with
    | ok _ => exact hleads
    | error e =>
      rcases hleads with rfl | rfl
      · exact .inr ⟨status, origin, rfl⟩
      · exact .inl rfl

/-- An event of another type than a change. -/
lemma tells_of_ne {eventType source : String} {payload : Api.Metadata}
    (h : eventType ≠ "ramp.status_changed") (rampTransactionId : String) (sequence : ℕ) :
    RampTransactionEvent.Tells
      { rampTransactionId, sequence, status := some status, eventType, source, payload }
        status origin :=
  ⟨rfl, fun heq => absurd heq h⟩

lemma admits_recordInteractive {result : InitiateRampResult} :
    script.Admits (recordInteractive id result) (.beside id)
      (upon (fun _ => Place.At id) (Place.At id)) := by
  have hproper : (recordedData result).Proper :=
    .of_some rfl (by simp [recordedData]) (by simp [recordedData]) (by simp [recordedData])
  refine admits_call ⟨hproper, fun _ => rfl⟩ ?_ ?_
  · rintro e κ (rfl | rfl)
    · exact .inl rfl
    · exact .inr ⟨_, _, rfl⟩
  · rintro updated κ rfl
    refine admits_bind (admits_appendEvent (tells_of_ne (by decide))) ?_
    rintro _ κ rfl
    exact .inl rfl

lemma admits_recordFailure {message : String} (hκ : κ.At id) :
    script.Admits (recordFailure id message) κ (upon (fun _ _ => True) fun _ => True) := by
  have hproper : (failureData message).Proper :=
    .of_some rfl (by simp [failureData]) (by simp [failureData]) (by simp [failureData])
  have horigin : κ.origin = .initiated := by
    rcases hκ with rfl | ⟨status, origin, rfl⟩
    · rfl
    · rfl
  refine admits_call ⟨hproper, fun _ => hκ.about⟩ (fun _ _ _ => trivial) fun _ κ' hleads => ?_
  have hκ' : κ' = .owing id .ERROR .initiated := by
    rw [← horigin]
    exact hleads
  rw [hκ']
  exact (admits_appendEvent (tells_of_ne (by decide))).mono fun r κ _ => upon_true r κ

lemma admits_initiate {publicId : String} {type : RampType} {args : InitiateArgs} :
    script.Admits (initiate publicId type (moneyGramProvider anchor) args) .clear
      (upon (fun _ _ => True) fun _ => True) := by
  refine admits_call ⟨rfl, rfl⟩ (fun _ _ _ => trivial) ?_
  rintro ramp κ rfl
  refine admits_bind (R := fun _ κ => κ = .beside ramp.id)
    ((admits_appendEvent (tells_of_ne (by decide))).mono fun r κ h => ?_) ?_
  · cases r with
    | ok _ => exact h
    | error e => trivial
  rintro _ κ rfl
  have hbody : script.Admits (openInteractive type (moneyGramProvider anchor) args >>=
      recordInteractive ramp.id) (.beside ramp.id)
      (upon (fun _ => Place.At ramp.id) (Place.At ramp.id)) := by
    refine admits_bind (R := fun _ κ => κ = .beside ramp.id)
      (admits_outside (outside_openInteractive type args) fun r => ?_) ?_
    · cases r with
      | ok result => rfl
      | error e => exact .inl rfl
    · rintro result κ rfl
      exact admits_recordInteractive
  refine admits_attempt hbody (fun updated κ hκ => trivial) fun err κ hκ => ?_
  exact admits_bind (admits_recordFailure hκ) fun _ κ _ => trivial

/-- The check of the user, the provider, and then the ramp. -/
lemma admits_checked {userId providerId : String} {start : FiatRampProvider → Service RampTransaction}
    (h : script.Admits (start (moneyGramProvider anchor)) .clear
      (upon (fun _ _ => True) fun _ => True)) :
    script.Admits (assertKycVerified userId >>= fun _ =>
      (Program.done (RampProviderRegistry.get (RAMP_PROVIDERS anchor) providerId) >>= start)) .clear
      (upon (fun _ _ => True) fun _ => True) := by
  refine admits_bind (R := fun _ κ => κ = .clear)
    (admits_outside ((outside_assertKycVerified userId).mono fun _ => And.left) fun r => ?_) ?_
  · cases r with
    | ok _ => rfl
    | error e => trivial
  rintro _ κ rfl
  cases hget : RampProviderRegistry.get (RAMP_PROVIDERS anchor) providerId with
  | error e => trivial
  | ok provider =>
    obtain rfl := provider_of_get hget
    exact h

lemma admits_initiateOnRamp {publicId : String} {args : InitiateArgs} :
    script.Admits (initiateOnRamp anchor publicId args) .clear
      (upon (fun _ _ => True) fun _ => True) :=
  admits_checked admits_initiate

lemma admits_initiateOffRamp {publicId : String} {args : InitiateArgs} :
    script.Admits (initiateOffRamp anchor publicId args) .clear
      (upon (fun _ _ => True) fun _ => True) := by
  apply admits_checked
  simp only [moneyGramProvider, if_true]
  split
  · exact admits_initiate
  · trivial

/-! ### Refreshing -/

lemma proper_polledData (result : RampStatusResult) (date : ℕ) : (polledData result date).Proper where
  changed _ h := by cases h
  unchanged _ := ⟨rfl, rfl, rfl⟩

lemma proper_changedData {next : RampStatus} {raw : String} {completedAt : Option ℕ}
    {data : RampTransactionData} (h : completedAt.isSome ↔ next = .COMPLETED) :
    (changedData next raw completedAt data).Proper := by
  refine .of_some rfl h ?_ ?_
  · by_cases hnext : next = .ERROR
    · simp [changedData, hnext]
    · simp [changedData, hnext]
  · by_cases hnext : next = .ERROR
    · simp [changedData, hnext]
    · simp [changedData, hnext]

lemma admits_completionDate (next : RampStatus) (hκ : κ = .looked id status) :
    script.Admits (completionDate next) κ
      (upon (fun date κ => κ = .looked id status ∧ (date.isSome ↔ next = .COMPLETED)) fun _ => True) := by
  rw [completionDate]
  split_ifs with hnext
  · refine admits_call trivial (fun _ _ _ => trivial) fun date κ' hleads => ?_
    exact ⟨hleads.trans hκ, by simp [hnext]⟩
  · exact ⟨hκ, by simp [hnext]⟩

lemma admits_applyStatus {result : RampStatusResult} {source : String}
    (hterminal : isTerminal status = false) :
    script.Admits (applyStatus id status result source) (.looked id status)
      (upon (fun _ _ => True) fun _ => True) := by
  refine admits_call trivial (fun _ _ _ => trivial) ?_
  rintro date κ rfl
  simp only
  split_ifs with hchanged
  · refine admits_bind (admits_completionDate result.status rfl) ?_
    rintro completedAt κ ⟨rfl, hcompleted⟩
    refine admits_call ⟨proper_changedData hcompleted, fun _ => ⟨rfl, hterminal⟩⟩
      (fun _ _ _ => trivial) ?_
    rintro _ κ rfl
    refine admits_bind (R := fun _ _ => True) ((admits_appendEvent fun _ _ => ⟨rfl, fun _ => ?_⟩).mono
      fun r κ _ => upon_true r κ) fun _ κ _ => trivial
    exact ⟨status, rfl, rfl⟩
  · exact admits_call ⟨proper_polledData result date, fun h => by cases h⟩ (fun _ _ _ => trivial)
      fun _ κ _ => trivial

lemma outside_getStatus {token providerTxId : String} :
    (MoneyGramProvider.getStatus anchor token providerTxId).All fun op => op.outside := by
  refine all_bind (MoneyGramProvider.outside_getToml.mono fun _ => And.left) fun toml => ?_
  refine all_bind (all_perform rfl) fun response => ?_
  split_ifs
  · exact all_bind trivial fun transaction => all_pure _
  · exact all_throw _

lemma outside_fetchStatus {ramp : RampTransaction} {providerTxId : String} :
    (fetchStatus anchor ramp providerTxId).All fun op => op.outside := by
  rw [fetchStatus]
  cases hget : RampProviderRegistry.get (RAMP_PROVIDERS anchor) ramp.provider with
  | error e => trivial
  | ok provider =>
    obtain rfl := provider_of_get hget
    show (MoneyGramProvider.authenticate anchor ramp.userStellarAddress >>= fun token =>
      MoneyGramProvider.getStatus anchor token providerTxId).All _
    exact all_bind ((MoneyGramProvider.outside_authenticate _).mono fun _ => And.left) fun token =>
      outside_getStatus

lemma admits_refreshStatus : script.Admits (refreshStatus anchor id) κ
    (upon (fun _ _ => True) fun _ => True) := by
  refine admits_call trivial (fun _ _ _ => trivial) fun found κ' hfound => ?_
  cases found with
  | none => trivial
  | some ramp =>
    obtain ⟨hid, rfl⟩ := hfound
    simp only
    split_ifs with hterminal
    · trivial
    split
    · trivial
    refine admits_bind (R := fun _ κ => κ = .looked id ramp.status)
      (admits_outside outside_fetchStatus fun r => ?_) ?_
    · cases r with
      | ok result => rfl
      | error e => trivial
    rintro result κ rfl
    rw [hid]
    exact admits_applyStatus (Bool.eq_false_iff.mpr hterminal)

lemma admits_reconcilePending : script.Admits (reconcilePending anchor) κ
    (upon (fun _ _ => True) fun _ => True) := by
  refine admits_call trivial (fun _ _ _ => trivial) fun now κ _ => ?_
  refine admits_call trivial (fun _ _ _ => trivial) fun pending κ _ => ?_
  refine admits_forM (J := fun _ => True) trivial fun ramp _ κ _ => ?_
  exact admits_attempt admits_refreshStatus (fun _ κ _ => trivial) fun _ κ _ => trivial

end RampsService

/-- **Every session keeps to the script.** -/
theorem admits_program (q : Asked) :
    script.Admits (q.program anchor) (script.start q) fun _ _ => True := by
  suffices h : script.Admits (q.program anchor) .clear (upon (fun _ _ => True) fun _ => True) from
    h.mono fun _ _ _ => trivial
  cases q with
  | initiateOnRamp publicId args =>
    exact admits_bind RampsService.admits_initiateOnRamp fun _ _ _ => trivial
  | initiateOffRamp publicId args =>
    exact admits_bind RampsService.admits_initiateOffRamp fun _ _ _ => trivial
  | refreshStatus id => exact admits_bind RampsService.admits_refreshStatus fun _ _ _ => trivial
  | reconcilePending => exact RampsService.admits_reconcilePending

end Admits

end PayEra.Ramps
