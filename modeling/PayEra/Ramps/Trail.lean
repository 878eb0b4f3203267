import PayEra.Ramps.Terminal

/-!
# The audit trail

The row of a ramp and its events are written by separate calls, and an event tells what the status was
when the session looked. The trail agrees with the row in every quiescent state if no session writes a
status while another one owes an event for the ramp, or over a status that it has not seen, and none
goes on while it owes an event itself.

Debts are read off the places of the sessions: at most one session owes an event for a ramp, and its
debt is what the trail lacks.
-/

namespace PayEra.Ramps

open Async (Program Event)
open Transition (exists_split_snoc)

/-! ### Trails and rows -/

/-- The status of the last event. -/
def lastStatus (trail : List RampTransactionEvent) : Option RampStatus :=
  trail.getLast?.bind (·.status)

/-- The sequences are 1, 2, ..., and a change tells the status of the event before it. -/
structure Chronicle (trail : List RampTransactionEvent) : Prop where
  sequences : trail.map (·.sequence) = List.range' 1 trail.length
  previous : ∀ l₁ e l₂, trail = l₁ ++ e :: l₂ → e.eventType = "ramp.status_changed" →
    ∃ status, lastStatus l₁ = some status ∧ e.payload.lookup "from" = some status.name

/-- The trails agree with the rows. -/
def Rails.Chronicled (s : Rails) : Prop :=
  ∀ id t, s.ramp id = some t → Chronicle (s.trail id) ∧ lastStatus (s.trail id) = some t.status

/-- No session has anything left to do. -/
def Quiescent (s : DeskState) : Prop := ∀ p ∈ s.threads, p.next = none

/-- The calls of the session `n` that took effect. -/
def own (n : ℕ) (w : Desk) : List Done := w.effects.filter (·.session = n)

/-- A call that appends an event to the trail of the ramp. -/
def Op.records (id : String) : Op → Prop
  | .createEvent e => e.rampTransactionId = id
  | _ => False

/-- The session `n` has made a call of `S`, and has not appended an event since. -/
def Unrecorded (n : ℕ) (id : String) (S : Op → Prop) (w : Desk) : Prop :=
  ∃ l₁ e l₂, own n w = l₁ ++ e :: l₂ ∧ S e.op ∧ ∀ e' ∈ l₂, ¬e'.op.records id

/-- A call that writes the status of the ramp: it updates it, or it has created this row. -/
def Op.writesStatus (s : Rails) (id : String) : Op → Prop
  | .updateRamp i data => i = id ∧ data.status.isSome
  | .createRamp data => ∃ t, s.ramp id = some t ∧ t.publicId = data.publicId
  | _ => False

/-- The session `n` owes the ramp an event. -/
def Due (n : ℕ) (id : String) (w : Desk) : Prop := Unrecorded n id (Op.writesStatus w.state id) w

/-- When the session `n` last looked at the ramp, this was its status. -/
def LastSeen (n : ℕ) (id : String) (status : RampStatus) (w : Desk) : Prop :=
  ∃ l₁ e l₂, own n w = l₁ ++ e :: l₂ ∧ e.op = .findRamp id ∧ e.found.status id = some status ∧
    ∀ e' ∈ l₂, e'.op ≠ .findRamp id

/-- Nobody writes a status while somebody else owes the ramp an event, or over another status than the
one last seen, and nobody goes on to a ramp, or ends, while an event is due. -/
def orderly : DeskCondition := fun _ e w _ => match e with
  | .call n (.updateRamp id data) => data.status.isSome → (∀ m ≠ n, ¬Due m id w) ∧
      ∀ status, LastSeen n id status w → w.state.status id = some status
  | .call n (.findRamp _) => ∀ id, ¬Due n id w
  | .finish n _ => ∀ id, ¬Due n id w
  | _ => True

/-! ### Trails -/

section Trails

variable {l : List RampTransactionEvent} {e : RampTransactionEvent} {s s' : Rails} {id : String}

lemma lastStatus_snoc : lastStatus (l ++ [e]) = e.status := by simp [lastStatus]

lemma chronicle_nil : Chronicle [] where
  sequences := rfl
  previous l₁ e l₂ h := by simp at h

/-- The next event. -/
lemma Chronicle.snoc (h : Chronicle l) (hsequence : e.sequence = l.length + 1)
    (hprevious : e.eventType = "ramp.status_changed" →
      ∃ status, lastStatus l = some status ∧ e.payload.lookup "from" = some status.name) :
    Chronicle (l ++ [e]) where
  sequences := by
    rw [List.map_append, h.sequences, List.length_append, List.length_singleton, List.range'_concat]
    simp [hsequence, Nat.add_comm]
  previous l₁ e' l₂ heq htype := by
    have hsplit : ∃ k₁ x k₂, l ++ [e] = k₁ ++ x :: k₂ ∧ (k₁ = l₁ ∧ x = e') :=
      ⟨l₁, e', l₂, heq, rfl, rfl⟩
    rcases exists_split_snoc.mp hsplit with ⟨rfl, rfl⟩ | ⟨k₁, x, k₂, hl, rfl, rfl⟩
    · exact hprevious htype
    · exact h.previous _ _ _ hl htype

/-- The greatest sequence is the number of events. -/
lemma Chronicle.max? (h : Chronicle l) : (l.map (·.sequence)).max?.getD 0 = l.length := by
  rw [h.sequences]
  cases hlen : l.length with
  | zero => rfl
  | succ k =>
    have hmax : (List.range' 1 (k + 1)).max? = some (k + 1) := by
      rw [List.max?_eq_some_iff]
      simp
      omega
    rw [hmax]
    rfl

lemma trail_append (h : s'.events = s.events ++ [e]) :
    s'.trail id = if e.rampTransactionId = id then s.trail id ++ [e] else s.trail id := by
  rw [Rails.trail, h, List.filter_append, List.filter_singleton]
  by_cases hid : e.rampTransactionId = id
  · simp [hid, Rails.trail]
  · simp [hid, Rails.trail]

lemma trail_congr (h : s'.events = s.events) : s'.trail id = s.trail id := by
  rw [Rails.trail, Rails.trail, h]

end Trails

/-! ### Debts -/

/-- The event that is due in a place. -/
def Place.debt : Place → Option (String × RampStatus × Origin)
  | .owing id status origin | .numbered id status origin _ => some (id, status, origin)
  | _ => none

/-- The session `n` owes the ramp an event of this status and origin. -/
def Owes (f : Multiset (Option (ℕ × Place))) (n : ℕ) (id : String) (status : RampStatus)
    (origin : Origin) : Prop :=
  ∃ κ, some (n, κ) ∈ f ∧ κ.debt = some (id, status, origin)

/-- The rows and the trails agree up to the debts. -/
structure Ledger (s : Rails) (f : Multiset (Option (ℕ × Place))) : Prop where
  chronicle : ∀ id, Chronicle (s.trail id)
  known : ∀ e ∈ s.events, (s.ramp e.rampTransactionId).isSome
  settled : ∀ id t, s.ramp id = some t → (∀ n status origin, ¬Owes f n id status origin) →
    lastStatus (s.trail id) = some t.status
  owed : ∀ n id status origin, Owes f n id status origin → ∃ t, s.ramp id = some t ∧
    t.status = status ∧ (∀ publicId, origin = .created publicId → t.publicId = publicId) ∧
      ∀ previous, origin = .changed previous → lastStatus (s.trail id) = some previous
  alone : ∀ n m id status status' origin origin', Owes f n id status origin →
    Owes f m id status' origin' → n = m
  sequence : ∀ n id status origin k, some (n, .numbered id status origin k) ∈ f →
    k = (s.trail id).length + 1

section Debts

variable {f : Multiset (Option (ℕ × Place))} {n m : ℕ} {κ κ' : Place} {id : String}
  {status : RampStatus} {origin : Origin} {s s' : Rails}

lemma owes_cons : Owes (some (n, κ) ::ₘ f) m id status origin ↔
    (n = m ∧ κ.debt = some (id, status, origin)) ∨ Owes f m id status origin := by
  constructor
  · rintro ⟨κ', hmem, hdebt⟩
    rcases Multiset.mem_cons.mp hmem with heq | hmem
    · cases heq
      exact .inl ⟨rfl, hdebt⟩
    · exact .inr ⟨κ', hmem, hdebt⟩
  · rintro (⟨rfl, hdebt⟩ | ⟨κ', hmem, hdebt⟩)
    · exact ⟨κ, Multiset.mem_cons_self .., hdebt⟩
    · exact ⟨κ', Multiset.mem_cons_of_mem hmem, hdebt⟩

lemma owes_none : Owes (none ::ₘ f) m id status origin ↔ Owes f m id status origin := by
  constructor
  · rintro ⟨κ', hmem, hdebt⟩
    rcases Multiset.mem_cons.mp hmem with heq | hmem
    · cases heq
    · exact ⟨κ', hmem, hdebt⟩
  · rintro ⟨κ', hmem, hdebt⟩
    exact ⟨κ', Multiset.mem_cons_of_mem hmem, hdebt⟩

/-- A step that changes neither statuses nor trails nor debts. -/
lemma Ledger.same (h : Ledger s f) {f' : Multiset (Option (ℕ × Place))}
    (hrows : ∀ id, (s'.ramp id).map (fun t => (t.status, t.publicId)) =
      (s.ramp id).map fun t => (t.status, t.publicId))
    (hevents : s'.events = s.events)
    (hdebts : ∀ n id status origin, Owes f' n id status origin ↔ Owes f n id status origin)
    (hsequence : ∀ n id status origin k, some (n, .numbered id status origin k) ∈ f' →
      k = (s.trail id).length + 1) : Ledger s' f' where
  chronicle id := by
    rw [trail_congr hevents]
    exact h.chronicle id
  known e he := by
    rw [hevents] at he
    have hrow := congrArg Option.isSome (hrows e.rampTransactionId)
    rw [Option.isSome_map, Option.isSome_map] at hrow
    rw [hrow]
    exact h.known e he
  settled id t ht hfree := by
    have hrow := hrows id
    rw [ht, Option.map_some] at hrow
    obtain ⟨t₀, ht₀, heq⟩ := Option.map_eq_some_iff.mp hrow.symm
    rw [trail_congr hevents, h.settled id t₀ ht₀ fun n status origin howes =>
      hfree n status origin ((hdebts n id status origin).mpr howes)]
    exact congrArg some (Prod.mk.inj heq).1
  owed n id status origin howes := by
    obtain ⟨t₀, ht₀, hstatus, hpublicId, hprevious⟩ :=
      h.owed n id status origin ((hdebts n id status origin).mp howes)
    have hrow := hrows id
    rw [ht₀, Option.map_some] at hrow
    obtain ⟨t, ht, heq⟩ := Option.map_eq_some_iff.mp hrow
    obtain ⟨heqStatus, heqId⟩ := Prod.mk.inj heq
    refine ⟨t, ht, heqStatus.trans hstatus, fun p hp => heqId.trans (hpublicId p hp), fun prev hp => ?_⟩
    rw [trail_congr hevents]
    exact hprevious prev hp
  alone n m id status status' origin origin' hn hm :=
    h.alone n m id status status' origin origin' ((hdebts n id status origin).mp hn)
      ((hdebts m id status' origin').mp hm)
  sequence n id status origin k hmem := by
    rw [trail_congr hevents]
    exact hsequence n id status origin k hmem

/-- A session that has no debt comes and goes. -/
lemma Ledger.swap {ℓ ℓ' : Option (ℕ × Place)} (h : Ledger s (ℓ ::ₘ f))
    (hℓ : ∀ n κ, ℓ = some (n, κ) → κ.debt = none) (hℓ' : ∀ n κ, ℓ' = some (n, κ) → κ.debt = none)
    (hrows : ∀ id, s'.ramp id = s.ramp id) (hevents : s'.events = s.events) :
    Ledger s' (ℓ' ::ₘ f) := by
  have hfree {ℓ : Option (ℕ × Place)} (hℓ : ∀ n κ, ℓ = some (n, κ) → κ.debt = none) (n id status origin) :
      Owes (ℓ ::ₘ f) n id status origin ↔ Owes f n id status origin := by
    cases ℓ with
    | none => exact owes_none
    | some nκ =>
      rw [owes_cons, hℓ nκ.1 nκ.2 rfl]
      simp
  refine h.same (fun id => by rw [hrows]) hevents (fun n id status origin => ?_)
    fun n id status origin k hmem => ?_
  · rw [hfree hℓ, hfree hℓ']
  · rcases Multiset.mem_cons.mp hmem with heq | hmem
    · have hdebt := hℓ' n _ heq.symm
      cases hdebt
    · exact h.sequence n id status origin k (Multiset.mem_cons_of_mem hmem)

/-- A session goes to a place with the same debt. -/
lemma Ledger.stay (h : Ledger s (some (n, κ) ::ₘ f)) (hdebt : κ'.debt = κ.debt)
    (hrows : ∀ id, (s'.ramp id).map (fun t => (t.status, t.publicId)) =
      (s.ramp id).map fun t => (t.status, t.publicId))
    (hevents : s'.events = s.events)
    (hsequence : ∀ id status origin k, κ' = .numbered id status origin k →
      k = (s.trail id).length + 1) : Ledger s' (some (n, κ') ::ₘ f) := by
  refine h.same hrows hevents (fun m id status origin => ?_) fun m id status origin k hmem => ?_
  · rw [owes_cons, owes_cons, hdebt]
  · rcases Multiset.mem_cons.mp hmem with heq | hmem
    · cases heq
      exact hsequence id status origin k rfl
    · exact h.sequence m id status origin k (Multiset.mem_cons_of_mem hmem)

/-- A status is written while nobody else owes the ramp an event. -/
lemma Ledger.written (h : Ledger s (some (n, κ) ::ₘ f)) {t : RampTransaction}
    (hκ : ∀ i status origin, κ.debt = some (i, status, origin) → i = id)
    (hothers : ∀ m status origin, ¬Owes f m id status origin) (hrow : s'.ramp id = some t)
    (hrest : ∀ i ≠ id, s'.ramp i = s.ramp i) (hevents : s'.events = s.events)
    (hcreated : ∀ publicId, origin = .created publicId → t.publicId = publicId)
    (hprevious : ∀ previous, origin = .changed previous → lastStatus (s.trail id) = some previous) :
    Ledger s' (some (n, .owing id t.status origin) ::ₘ f) := by
  have hold {m i status origin} (howes : Owes f m i status origin) :
      Owes (some (n, κ) ::ₘ f) m i status origin := owes_cons.mpr (.inr howes)
  have hexists {m i status origin} (howes : Owes f m i status origin) : i ≠ id := by
    rintro rfl
    exact hothers m status origin howes
  constructor
  · intro i
    rw [trail_congr hevents]
    exact h.chronicle i
  · intro e he
    rw [hevents] at he
    have hsome := h.known e he
    by_cases hid : e.rampTransactionId = id
    · rw [hid, hrow]
      rfl
    · rw [hrest _ hid]
      exact hsome
  · intro i u hu hfree
    by_cases hid : i = id
    · subst hid
      exact absurd (owes_cons.mpr (.inl ⟨rfl, rfl⟩)) (hfree n _ _)
    · rw [hrest i hid] at hu
      rw [trail_congr hevents]
      refine h.settled i u hu fun m status origin howes => ?_
      rcases owes_cons.mp howes with ⟨-, hdebt⟩ | howes
      · exact hid (hκ i status origin hdebt)
      · exact hfree m status origin (owes_cons.mpr (.inr howes))
  · intro m i status origin' howes
    rcases owes_cons.mp howes with ⟨rfl, hdebt⟩ | howes
    · cases hdebt
      rw [trail_congr hevents]
      exact ⟨t, hrow, rfl, hcreated, hprevious⟩
    · rw [hrest i (hexists howes), trail_congr hevents]
      exact h.owed m i status origin' (hold howes)
  · intro m₁ m₂ i status status' origin' origin'' h₁ h₂
    rcases owes_cons.mp h₁ with ⟨rfl, hdebt₁⟩ | h₁
    · cases hdebt₁
      rcases owes_cons.mp h₂ with ⟨rfl, -⟩ | h₂
      · rfl
      · exact absurd rfl (hexists h₂)
    · rcases owes_cons.mp h₂ with ⟨rfl, hdebt₂⟩ | h₂
      · cases hdebt₂
        exact absurd rfl (hexists h₁)
      · exact h.alone m₁ m₂ i status status' origin' origin'' (hold h₁) (hold h₂)
  · intro m i status origin' k hmem
    rw [trail_congr hevents]
    rcases Multiset.mem_cons.mp hmem with heq | hmem
    · cases heq
    · exact h.sequence m i status origin' k (Multiset.mem_cons_of_mem hmem)

/-- The event that was due is appended. -/
lemma Ledger.recorded {k : ℕ} (h : Ledger s (some (n, .numbered id status origin k) ::ₘ f))
    (hn : ∀ κ, some (n, κ) ∉ f) {e : RampTransactionEvent} (hid : e.rampTransactionId = id)
    (hsequence : e.sequence = k) (htells : e.Tells status origin)
    (hrows : ∀ i, s'.ramp i = s.ramp i)
    (hevents : s'.events = s.events ++ [e]) : Ledger s' (some (n, .beside id) ::ₘ f) := by
  have hdue : Owes (some (n, .numbered id status origin k) ::ₘ f) n id status origin :=
    owes_cons.mpr (.inl ⟨rfl, rfl⟩)
  obtain ⟨t, ht, hstatus, -, hprevious⟩ := h.owed n id status origin hdue
  have hold {m i status' origin'} (howes : Owes f m i status' origin') :
      Owes (some (n, .numbered id status origin k) ::ₘ f) m i status' origin' :=
    owes_cons.mpr (.inr howes)
  have hnew {m i status' origin'} (howes : Owes (some (n, .beside id) ::ₘ f) m i status' origin') :
      Owes f m i status' origin' := by
    rcases owes_cons.mp howes with ⟨-, hdebt⟩ | howes
    · cases hdebt
    · exact howes
  -- the debt was the only one of the ramp
  have hexists {m i status' origin'} (howes : Owes f m i status' origin') : i ≠ id := by
    rintro rfl
    obtain rfl := h.alone n m i status status' origin origin' hdue (hold howes)
    obtain ⟨κ', hmem, -⟩ := howes
    exact hn κ' hmem
  have htrail : s'.trail id = s.trail id ++ [e] := by rw [trail_append hevents, if_pos hid]
  have htrails {i : String} (hi : i ≠ id) : s'.trail i = s.trail i := by
    rw [trail_append hevents, if_neg (by rw [hid]; exact hi.symm)]
  constructor
  · intro i
    by_cases hi : i = id
    · rw [hi, htrail]
      refine (h.chronicle id).snoc (hsequence.trans ?_) fun htype => ?_
      · exact h.sequence n id status origin k (Multiset.mem_cons_self ..)
      · obtain ⟨previous, horigin, hfrom⟩ := htells.previous htype
        exact ⟨previous, hprevious previous horigin, hfrom⟩
    · rw [htrails hi]
      exact h.chronicle i
  · intro e' he'
    rw [hrows]
    rw [hevents] at he'
    rcases List.mem_append.mp he' with he' | he'
    · exact h.known e' he'
    · obtain rfl := List.mem_singleton.mp he'
      rw [hid, ht]
      rfl
  · intro i u hu hfree
    rw [hrows] at hu
    by_cases hi : i = id
    · subst hi
      obtain rfl := Option.some.inj (ht.symm.trans hu)
      rw [htrail, lastStatus_snoc, htells.status, hstatus]
    · rw [htrails hi]
      refine h.settled i u hu fun m status' origin' howes => ?_
      rcases owes_cons.mp howes with ⟨-, hdebt⟩ | howes
      · cases hdebt
        exact hi rfl
      · exact hfree m status' origin' (owes_cons.mpr (.inr howes))
  · intro m i status' origin' howes
    rw [hrows, htrails (hexists (hnew howes))]
    exact h.owed m i status' origin' (hold (hnew howes))
  · intro m₁ m₂ i status₁ status₂ origin₁ origin₂ h₁ h₂
    exact h.alone m₁ m₂ i status₁ status₂ origin₁ origin₂ (hold (hnew h₁)) (hold (hnew h₂))
  · intro m i status' origin' k' hmem
    rcases Multiset.mem_cons.mp hmem with heq | hmem
    · cases heq
    · rw [htrails (hexists ⟨_, hmem, rfl⟩)]
      exact h.sequence m i status' origin' k' (Multiset.mem_cons_of_mem hmem)

end Debts

/-! ### What a session remembers -/

/-- A call that has written a status of this origin. -/
def Origin.wrote (id : String) : Origin → Op → Prop
  | .created publicId, op => ∃ data, op = .createRamp data ∧ data.publicId = publicId
  | _, op => ∃ data, op = .updateRamp id data ∧ data.status.isSome

/-- What the place says about the session's own calls. -/
structure Recalled (n : ℕ) (κ : Place) (w : Desk) : Prop where
  seen : ∀ id status, κ = .looked id status → LastSeen n id status w
  due : ∀ id status origin, κ.debt = some (id, status, origin) →
    Unrecorded n id (origin.wrote id) w

section Recalled

variable {n : ℕ} {κ : Place} {id : String} {w w' : Desk} {e : Done} {S S' : Op → Prop}

lemma own_call {op : Op} (heffects : w'.effects = w.effects ++ [⟨n, op, w.state⟩]) :
    own n w' = own n w ++ [⟨n, op, w.state⟩] := by
  rw [own, heffects, List.filter_append, List.filter_singleton]
  simp [own]

lemma Unrecorded.mono (h : Unrecorded n id S w) (hS : ∀ op, S op → S' op) : Unrecorded n id S' w := by
  obtain ⟨l₁, e, l₂, heq, hop, hnot⟩ := h
  exact ⟨l₁, e, l₂, heq, hS _ hop, hnot⟩

lemma unrecorded_new (hown : own n w' = own n w ++ [e]) (h : S e.op) : Unrecorded n id S w' :=
  ⟨own n w, e, [], hown, h, by simp⟩

lemma Unrecorded.snoc (h : Unrecorded n id S w) (hown : own n w' = own n w ++ [e])
    (hop : ¬e.op.records id) : Unrecorded n id S w' := by
  obtain ⟨l₁, e₀, l₂, heq, hS, hnot⟩ := h
  refine ⟨l₁, e₀, l₂ ++ [e], by rw [hown, heq]; simp, hS, fun e' he' => ?_⟩
  rcases List.mem_append.mp he' with he' | he'
  · exact hnot e' he'
  · obtain rfl := List.mem_singleton.mp he'
    exact hop

lemma LastSeen.snoc {status : RampStatus} (h : LastSeen n id status w)
    (hown : own n w' = own n w ++ [e]) (hop : e.op ≠ .findRamp id) : LastSeen n id status w' := by
  obtain ⟨l₁, e₀, l₂, heq, hfind, hfound, hnot⟩ := h
  refine ⟨l₁, e₀, l₂ ++ [e], by rw [hown, heq]; simp, hfind, hfound, fun e' he' => ?_⟩
  rcases List.mem_append.mp he' with he' | he'
  · exact hnot e' he'
  · obtain rfl := List.mem_singleton.mp he'
    exact hop

lemma Recalled.congr (h : Recalled n κ w) (hown : own n w' = own n w) : Recalled n κ w' where
  seen id status hκ := by
    obtain ⟨l₁, e, l₂, heq, hrest⟩ := h.seen id status hκ
    exact ⟨l₁, e, l₂, hown.trans heq, hrest⟩
  due id status origin hκ := by
    obtain ⟨l₁, e, l₂, heq, hrest⟩ := h.due id status origin hκ
    exact ⟨l₁, e, l₂, hown.trans heq, hrest⟩

lemma Recalled.place (h : Recalled n κ w) {κ' : Place} (hdebt : κ'.debt = κ.debt)
    (hlooked : ∀ id status, κ' ≠ .looked id status) : Recalled n κ' w where
  seen id status heq := absurd heq (hlooked id status)
  due id status origin heq := h.due id status origin (hdebt.symm.trans heq)

lemma recalled_of_free (hκ : κ.debt = none) (hlooked : ∀ id status, κ ≠ .looked id status) :
    Recalled n κ w where
  seen id status heq := absurd heq (hlooked id status)
  due id status origin heq := by
    rw [hκ] at heq
    cases heq

/-- A call of the session that is neither a look nor an event. -/
lemma Recalled.happens {op : Op} {r : Except Thrown op.Res} (h : Recalled n κ w)
    (hhappens : Happens (.call n op) w r w') (hfind : ∀ id, op ≠ .findRamp id)
    (hevent : ∀ e, op ≠ .createEvent e) : Recalled n κ w' := by
  rcases Async.happens_call hhappens with ⟨-, heffects⟩ | ⟨-, heffects⟩
  · exact h.congr (by rw [own, heffects, own])
  have hown := own_call heffects
  constructor
  · exact fun id status hκ => (h.seen id status hκ).snoc hown (hfind id)
  · intro id status origin hκ
    refine (h.due id status origin hκ).snoc hown fun hrecords => ?_
    cases op with
    | createEvent e => exact hevent e rfl
    | _ => exact hrecords

end Recalled

/-! ### The script keeps the ledger -/

/-- A call that writes neither rows nor events. -/
def Op.quiet : Op → Bool
  | .createRamp _ | .updateRamp _ _ | .createEvent _ => false
  | _ => true

abbrev orderlyAnswer (e : Happening) (w : Desk) (r : Except Thrown (Happening.Res e)) : Prop :=
  orderly 0 e w r

abbrev bookkeeping :=
  script.protocol (β := Unit) orderlyAnswer (fun w => Ledger w.state) Recalled

section Keeps

variable {n : ℕ} {κ κ' : Place} {op : Op} {id : String} {w w' : Desk}
  {f : Multiset (Option (ℕ × Place))} {r : Except Thrown op.Res}

/-- A session that owes an event is known to do so. -/
lemma due_of_owes (hinv : bookkeeping.Inv w f) {status : RampStatus} {origin : Origin}
    (howes : Owes f n id status origin) : Due n id w := by
  obtain ⟨t, ht, -, hpublicId, -⟩ := hinv.base.owed n id status origin howes
  obtain ⟨κ, hmem, hdebt⟩ := howes
  have hrecalled : Recalled n κ w := (hinv.running _ hmem n rfl).2.2 n κ rfl
  refine (hrecalled.due id status origin hdebt).mono fun op hop => ?_
  cases origin with
  | created publicId =>
    obtain ⟨data, rfl, hdata⟩ := hop
    exact ⟨t, ht, (hpublicId publicId rfl).trans hdata.symm⟩
  | initiated =>
    obtain ⟨data, rfl, hdata⟩ := hop
    exact ⟨rfl, hdata⟩
  | changed previous =>
    obtain ⟨data, rfl, hdata⟩ := hop
    exact ⟨rfl, hdata⟩

/-- A session that owes nothing is in a place without a debt. -/
lemma debt_of_free (hinv : bookkeeping.Inv w (some (n, κ) ::ₘ f)) (h : ∀ id, ¬Due n id w) :
    κ.debt = none := by
  cases hdebt : κ.debt with
  | none => rfl
  | some debt =>
    obtain ⟨id, status, origin⟩ := debt
    exact absurd (due_of_owes hinv (owes_cons.mpr (.inl ⟨rfl, hdebt⟩))) (h id)

/-- Other sessions that owe nothing. -/
lemma not_owes_of_free (hinv : bookkeeping.Inv w (some (n, κ) ::ₘ f)) (h : ∀ m ≠ n, ¬Due m id w)
    (m : ℕ) (status : RampStatus) (origin : Origin) : ¬Owes f m id status origin := by
  intro howes
  have hdue := due_of_owes hinv (owes_cons.mpr (.inr howes))
  obtain ⟨κ', hmem, -⟩ := howes
  exact h m (hinv.number_ne rfl hmem rfl).symm hdue

lemma quiet_happens (hhappens : Happens (.call n op) w r w') (hop : op.quiet) :
    (∀ id, w'.state.ramp id = w.state.ramp id) ∧ w'.state.events = w.state.events := by
  rcases Async.happens_call hhappens with ⟨hstate, -⟩ | ⟨⟨v, hreturns⟩, -⟩
  · rw [hstate]
    exact ⟨fun _ => rfl, rfl⟩
  · cases op with
    | createRamp | updateRamp | createEvent => cases hop
    | _ => exact ⟨ramp_returns hreturns, by simpa [Op.appended] using events_returns hreturns⟩

/-- A quiet call other than a look. -/
lemma quiet_call (hledger : Ledger w.state (some (n, κ) ::ₘ f)) (hrecalled : Recalled n κ w)
    (hhappens : Happens (.call n op) w r w') (hop : op.quiet) (hfind : ∀ id, op ≠ .findRamp id) :
    Ledger w'.state (some (n, κ) ::ₘ f) ∧ Recalled n κ w' := by
  obtain ⟨hrows, hevents⟩ := quiet_happens hhappens hop
  refine ⟨hledger.stay rfl (fun id => by rw [hrows]) hevents ?_, ?_⟩
  · rintro id status origin k rfl
    exact hledger.sequence n id status origin k (Multiset.mem_cons_self ..)
  · refine hrecalled.happens hhappens hfind ?_
    rintro e rfl
    cases hop

/-- A look at a ramp. -/
lemma find_call (hinv : bookkeeping.Inv w (some (n, κ) ::ₘ f)) (hfree : ∀ id, ¬Due n id w)
    {r : Except Thrown (Option RampTransaction)} (hhappens : Happens (.call n (.findRamp id)) w r w') :
    ∃ κ', script.leads κ (.findRamp id) r κ' ∧ Ledger w'.state (some (n, κ') ::ₘ f) ∧
      Recalled n κ' w' := by
  have hdebt := debt_of_free hinv hfree
  obtain ⟨hrows, hevents⟩ := quiet_happens hhappens rfl
  have hledger (κ' : Place) (hκ' : κ'.debt = none) : Ledger w'.state (some (n, κ') ::ₘ f) :=
    hinv.base.swap (fun m κ₀ h => by cases h; exact hdebt) (fun m κ₀ h => by cases h; exact hκ') hrows
      hevents
  have hclear : Ledger w'.state (some (n, .clear) ::ₘ f) ∧ Recalled n .clear w' :=
    ⟨hledger .clear rfl, recalled_of_free rfl fun _ _ h => by cases h⟩
  cases r with
  | error e => exact ⟨.clear, rfl, hclear⟩
  | ok found =>
    cases found with
    | none => exact ⟨.clear, rfl, hclear⟩
    | some ramp =>
      obtain ⟨-, hreturns, heffects⟩ := hhappens
      obtain ⟨hrow, -⟩ := returns_find hreturns
      refine ⟨.looked id ramp.status, ⟨id_of_ramp hrow.symm, rfl⟩, hledger _ rfl, ?_, ?_⟩
      · intro i status heq
        cases heq
        refine ⟨own n w, _, [], own_call heffects, rfl, ?_, by simp⟩
        rw [Rails.status, ← hrow]
        rfl
      · intro i status origin heq
        cases heq

/-- A ramp is created. -/
lemma create_call (hledger : Ledger w.state (some (n, .clear) ::ₘ f)) {data : NewRamp}
    {r : Except Thrown RampTransaction} (hhappens : Happens (.call n (.createRamp data)) w r w') :
    ∃ κ', script.leads .clear (.createRamp data) r κ' ∧ Ledger w'.state (some (n, κ') ::ₘ f) ∧
      Recalled n κ' w' := by
  have heffect {ramp : RampTransaction} (hreturns : Returns (.createRamp data) w.state ramp w'.state)
      (heffects : w'.effects = w.effects ++ [⟨n, .createRamp data, w.state⟩]) :
      Ledger w'.state (some (n, .owing ramp.id data.status (.created data.publicId)) ::ₘ f) ∧
        Recalled n (.owing ramp.id data.status (.created data.publicId)) w' := by
    obtain ⟨hnone, hnew⟩ := returns_create hreturns
    have hstatus : ramp.status = data.status := by rw [hnew]
    have hpublicId : ramp.publicId = data.publicId := by rw [hnew]
    constructor
    · rw [← hstatus]
      refine hledger.written (fun _ _ _ h => by cases h) (fun m status origin howes => ?_)
        (ramp_created hreturns) (fun i hi => ?_) (by simpa [Op.appended] using events_returns hreturns)
        (fun p hp => ?_) (fun _ h => by cases h)
      · obtain ⟨t, ht, -⟩ := hledger.owed m ramp.id status origin (owes_cons.mpr (.inr howes))
        rw [hnone] at ht
        cases ht
      · rw [ramp_returns hreturns, Op.row, if_neg hi.symm]
        cases w.state.ramp i <;> rfl
      · cases hp
        exact hpublicId
    · constructor
      · intro i status heq
        cases heq
      · intro i status origin heq
        cases heq
        exact unrecorded_new (own_call heffects) ⟨data, rfl, rfl⟩
  cases r with
  | ok ramp =>
    obtain ⟨-, hreturns, heffects⟩ := hhappens
    exact ⟨_, rfl, heffect hreturns heffects⟩
  | error e =>
    rcases Async.happens_call hhappens with ⟨hstate, -⟩ | ⟨⟨ramp, hreturns⟩, heffects⟩
    · rw [hstate]
      exact ⟨.clear, .inl rfl, hledger, recalled_of_free rfl fun _ _ h => by cases h⟩
    · exact ⟨_, .inr ⟨ramp.id, rfl⟩, heffect hreturns heffects⟩

lemma Place.About.debt (h : κ.About id) (i : String) (status : RampStatus) (origin : Origin)
    (hdebt : κ.debt = some (i, status, origin)) : i = id := by
  cases κ with
  | owing | numbered =>
    cases hdebt
    exact h
  | _ => cases hdebt

/-- A row is updated. -/
lemma update_call (hinv : bookkeeping.Inv w (some (n, κ) ::ₘ f)) (hrecalled : Recalled n κ w)
    {data : RampTransactionData} (hmay : script.may κ (.updateRamp id data))
    (hallowed : data.status.isSome → (∀ m ≠ n, ¬Due m id w) ∧
      ∀ status, LastSeen n id status w → w.state.status id = some status)
    {r : Except Thrown RampTransaction} (hhappens : Happens (.call n (.updateRamp id data)) w r w') :
    ∃ κ', script.leads κ (.updateRamp id data) r κ' ∧ Ledger w'.state (some (n, κ') ::ₘ f) ∧
      Recalled n κ' w' := by
  have heffect {v : RampTransaction} (hreturns : Returns (.updateRamp id data) w.state v w'.state)
      (heffects : w'.effects = w.effects ++ [⟨n, .updateRamp id data, w.state⟩]) :
      Ledger w'.state (some (n, κ.wrote id data) ::ₘ f) ∧ Recalled n (κ.wrote id data) w' := by
    have hevents : w'.state.events = w.state.events := by
      simpa [Op.appended] using events_returns hreturns
    rw [Place.wrote]
    cases hdata : data.status with
    | none =>
      refine ⟨hinv.base.stay rfl (fun i => ?_) hevents ?_, hrecalled.happens hhappens ?_ ?_⟩
      · rw [ramp_returns hreturns, Op.row]
        split_ifs
        · cases w.state.ramp i <;> simp [RampTransaction.update, hdata]
        · rfl
      · rintro i status origin k rfl
        exact hinv.base.sequence n i status origin k (Multiset.mem_cons_self ..)
      · exact fun _ h => by cases h
      · exact fun _ h => by cases h
    | some next =>
      have hsome : data.status.isSome := by
        rw [hdata]
        rfl
      obtain ⟨hothers, hseen⟩ := hallowed hsome
      obtain ⟨t, ht, -⟩ := returns_update hreturns
      have hrow : w'.state.ramp id = some (t.update data) := by
        rw [ramp_returns hreturns, Op.row, if_pos rfl, ht]
        rfl
      have hstatus : (t.update data).status = next := by simp [RampTransaction.update, hdata]
      have hfree := not_owes_of_free hinv hothers
      constructor
      · rw [← hstatus]
        refine hinv.base.written (hmay.2 hsome).debt hfree hrow (fun i hi => ?_) hevents
          (fun p hp => ?_) fun previous hprevious => ?_
        · rw [ramp_returns hreturns, Op.row, if_neg hi.symm]
        · cases κ <;> cases hp
        · cases κ with
          | looked i status =>
            cases hprevious
            obtain ⟨rfl, -⟩ := hmay.2 hsome
            have hlast := hseen previous (hrecalled.seen i previous rfl)
            rw [Rails.status, ht] at hlast
            rw [hinv.base.settled i t ht, ← Option.some.inj hlast]
            intro m status origin howes
            rcases owes_cons.mp howes with ⟨-, hdebt⟩ | howes
            · cases hdebt
            · exact hfree m status origin howes
          | _ => cases hprevious
      · constructor
        · intro i status heq
          cases heq
        · intro i status origin heq
          cases heq
          refine unrecorded_new (own_call heffects) ?_
          cases κ <;> exact ⟨data, rfl, hsome⟩
  cases r with
  | ok t =>
    obtain ⟨-, hreturns, heffects⟩ := hhappens
    exact ⟨_, rfl, heffect hreturns heffects⟩
  | error e =>
    rcases Async.happens_call hhappens with ⟨hstate, heffects⟩ | ⟨⟨v, hreturns⟩, heffects⟩
    · rw [hstate]
      exact ⟨κ, .inl rfl, hinv.base, hrecalled.congr (by rw [own, heffects, own])⟩
    · exact ⟨_, .inr rfl, heffect hreturns heffects⟩

/-- The last sequence number is read. -/
lemma sequence_call (hledger : Ledger w.state (some (n, κ) ::ₘ f)) (hrecalled : Recalled n κ w)
    (hmay : script.may κ (.lastSequence id)) {r : Except Thrown (Option ℕ)}
    (hhappens : Happens (.call n (.lastSequence id)) w r w') :
    ∃ κ', script.leads κ (.lastSequence id) r κ' ∧ Ledger w'.state (some (n, κ') ::ₘ f) ∧
      Recalled n κ' w' := by
  obtain ⟨hquiet, hrecalled'⟩ := quiet_call hledger hrecalled hhappens rfl fun _ h => by cases h
  obtain ⟨status, origin, rfl⟩ := hmay
  cases r with
  | error e => exact ⟨_, rfl, hquiet, hrecalled'⟩
  | ok last =>
    obtain ⟨-, ⟨o, hreturns⟩, -⟩ := hhappens
    obtain ⟨rfl, hstate⟩ := Prod.mk.inj (Option.some.inj hreturns)
    refine ⟨_, rfl, hquiet.stay rfl (fun _ => rfl) rfl ?_, hrecalled'.place rfl fun _ _ h => by cases h⟩
    rintro i status' origin' k heq
    cases heq
    rw [← hstate, (hledger.chronicle id).max?]

/-- The event is appended. -/
lemma event_call (hinv : bookkeeping.Inv w (some (n, κ) ::ₘ f)) (hrecalled : Recalled n κ w)
    {e : RampTransactionEvent} (hmay : script.may κ (.createEvent e)) {r : Except Thrown Unit}
    (hhappens : Happens (.call n (.createEvent e)) w r w') :
    ∃ κ', script.leads κ (.createEvent e) r κ' ∧ Ledger w'.state (some (n, κ') ::ₘ f) ∧
      Recalled n κ' w' := by
  obtain ⟨status, origin, rfl, htells⟩ := hmay
  have heffect {v : Unit} (hreturns : Returns (.createEvent e) w.state v w'.state) :
      Ledger w'.state (some (n, .beside e.rampTransactionId) ::ₘ f) ∧
        Recalled n (.beside e.rampTransactionId) w' := by
    have hn : ∀ κ, some (n, κ) ∉ f := fun κ hmem => hinv.number_ne rfl hmem rfl rfl
    exact ⟨hinv.base.recorded hn rfl rfl htells (ramp_returns hreturns) (events_returns hreturns),
      recalled_of_free rfl fun _ _ h => by cases h⟩
  cases r with
  | ok v => exact ⟨_, rfl, heffect hhappens.2.1⟩
  | error err =>
    rcases Async.happens_call hhappens with ⟨hstate, heffects⟩ | ⟨⟨v, hreturns⟩, -⟩
    · rw [hstate]
      refine ⟨_, .inl rfl, hinv.base.stay rfl (fun _ => rfl) rfl ?_, ?_⟩
      · rintro i status' origin' k heq
        cases heq
      · refine (hrecalled.congr (by rw [own, heffects, own])).place rfl ?_
        rintro i status' heq
        cases heq
    · exact ⟨_, .inr rfl, heffect hreturns⟩

end Keeps

lemma bookkeeping_keeps : script.Keeps Returns Total (fun _ => False) (β := Unit)
    orderlyAnswer (fun w => Ledger w.state) Recalled where
  own n κ w w' hagrees h := h.congr hagrees.effects
  begin n q w f r w' hbase _ _ _ hhappens := by
    obtain ⟨-, -, rfl⟩ := hhappens
    refine ⟨hbase.swap (fun m κ h => by cases h) (fun m κ h => ?_) (fun _ => rfl) rfl,
      recalled_of_free rfl fun _ _ h => by cases h⟩
    cases h
    rfl
  finish n κ a w f r w' hinv hrecalled hallowed hhappens := by
    have hdebt := debt_of_free hinv hallowed
    obtain ⟨-, rfl⟩ := hhappens
    refine hinv.base.swap (fun m κ h => ?_) (fun m κ h => by cases h) (fun _ => rfl) rfl
    cases h
    exact hdebt
  call n κ op w f r w' hmay hinv hrecalled hallowed hhappens := by
    cases op with
    | createRamp data =>
      obtain ⟨rfl, -⟩ := id hmay
      exact create_call hinv.base hhappens
    | findRamp id => exact find_call hinv hallowed hhappens
    | updateRamp id data => exact update_call hinv hrecalled hmay hallowed hhappens
    | lastSequence id => exact sequence_call hinv.base hrecalled hmay hhappens
    | createEvent e => exact event_call hinv hrecalled hmay hhappens
    | _ => exact ⟨κ, rfl, quiet_call hinv.base hrecalled hhappens rfl fun _ h => by cases h⟩

theorem bookkeeping_governs {anchor : Anchor} :
    Async.Governs (bookkeeping.discipline Returns Total (fun _ => False))
      (Async.sessions Returns Total (fun _ => False) (Asked.program anchor) Rails.Empty Rails.Other
        orderly) := by
  refine bookkeeping_keeps.governs ?_ ?_ ?_ (fun _ _ _ _ h => h) admits_program
  · intro w hempty _ _
    have htrail (id : String) : w.state.trail id = [] := by
      rw [Rails.trail, hempty.events]
      rfl
    have hrow (id : String) : w.state.ramp id = none := by
      rw [Rails.ramp, hempty.ramps]
      rfl
    have howes {n id status origin} : ¬Owes 0 n id status origin := by
      rintro ⟨κ, hmem, -⟩
      exact Multiset.notMem_zero _ hmem
    constructor
    · intro id
      rw [htrail]
      exact chronicle_nil
    · intro e he
      rw [hempty.events] at he
      cases he
    · intro id t ht
      rw [hrow] at ht
      cases ht
    · exact fun n id status origin h => absurd h howes
    · exact fun n m id status status' origin origin' h => absurd h howes
    · exact fun n id status origin k h => absurd h (Multiset.notMem_zero _)
  · intro w f h
    refine h.same (fun _ => rfl) rfl (fun _ _ _ _ => owes_none) fun n id status origin k hmem => ?_
    rcases Multiset.mem_cons.mp hmem with heq | hmem
    · cases heq
    · exact h.sequence n id status origin k hmem
  · intro w w' f _ _ hother h
    refine h.same (fun id => ?_) hother.events (fun _ _ _ _ => Iff.rfl) h.sequence
    rw [ramp_congr hother.ramps]

/-- **The trails agree with the rows** in every quiescent state, if the sessions are orderly. -/
theorem chronicled_of_orderly {anchor : Anchor} {s : DeskState}
    (h : (desk anchor orderly).Reachable s) (hquiescent : Quiescent s) : s.world.state.Chronicled := by
  obtain ⟨f, hledger, hidle⟩ := Async.Script.idle_of_done bookkeeping_governs h hquiescent
  intro id t ht
  refine ⟨hledger.chronicle id, hledger.settled id t ht ?_⟩
  rintro n status origin ⟨κ, hmem, -⟩
  cases hidle _ hmem

/-! ### Sessions one after the other, and a late one -/

namespace PlayedRamps

/-- The ramp whose event is due after the call. -/
def dueOf : Op → Option String
  | .createRamp _ => some "ramp"
  | .updateRamp id data => if data.status.isSome then some id else none
  | _ => none

def recordsOf : Op → Option String
  | .createEvent e => some e.rampTransactionId
  | _ => none

/-- Every status has its event. -/
def paid : List Done → Bool
  | [] => true
  | e :: l => (dueOf e.op).all (fun id => l.any fun e' =>
      e'.session = e.session && recordsOf e'.op = some id) && paid l

/-- There is one ramp, and every status has its event. -/
def settledUp (w : Desk) : Bool := paid w.effects && w.state.ramps.all fun t => t.id = "ramp"

lemma paid_split {l₁ l₂ : List Done} {e : Done} {id : String} (h : paid (l₁ ++ e :: l₂))
    (hdue : dueOf e.op = some id) :
    ∃ e' ∈ l₂, e'.session = e.session ∧ recordsOf e'.op = some id := by
  induction l₁ with
  | nil =>
    rw [List.nil_append, paid, hdue, Option.all_some, Bool.and_eq_true, List.any_eq_true] at h
    simpa using h.1
  | cons e₀ l₁ ih =>
    rw [List.cons_append, paid, Bool.and_eq_true] at h
    exact ih h.2

lemma not_due {w : Desk} (h : settledUp w) (n : ℕ) (id : String) : ¬Due n id w := by
  rw [settledUp, Bool.and_eq_true] at h
  obtain ⟨hpaid, hramps⟩ := h
  rintro ⟨l₁, e, l₂, heq, hwrites, hnot⟩
  obtain ⟨k₁, k, hk, -, hrest⟩ := List.filter_eq_append_iff.mp heq
  obtain ⟨k₂, k₃, rfl, -, hsession, hl₂⟩ := List.filter_eq_cons_iff.mp hrest
  have hdue : dueOf e.op = some id := by
    obtain ⟨session, op, found⟩ := e
    cases op with
    | createRamp data =>
      obtain ⟨t, ht, -⟩ := hwrites
      have hid := List.all_eq_true.mp hramps t (List.mem_of_find?_eq_some ht)
      rw [dueOf, ← id_of_ramp ht, of_decide_eq_true hid]
    | updateRamp i data =>
      obtain ⟨rfl, hsome⟩ := hwrites
      exact if_pos hsome
    | _ => exact hwrites.elim
  rw [hk, ← List.append_assoc] at hpaid
  obtain ⟨e', hmem, hsame, hrecords⟩ := paid_split hpaid hdue
  refine hnot e' ?_ ?_
  · rw [← hl₂, List.mem_filter]
    exact ⟨hmem, by rw [hsame]; exact hsession⟩
  · obtain ⟨session, op, found⟩ := e'
    cases op with
    | createEvent event => exact Option.some.inj hrecords
    | _ => cases hrecords

/-- A check that is enough for the sessions to be orderly. -/
def tidy (w : Desk) : Happening → Bool
  | .call _ (.updateRamp id _) => settledUp w && w.effects.all fun x =>
      x.op ≠ .findRamp id || x.found.status id = w.state.status id
  | .call _ (.findRamp _) | .finish _ _ => settledUp w
  | _ => true

lemma orderly_of_tidy {threads : Multiset InProgress} (e : Happening) (w : Desk)
    (r : Except Thrown (Happening.Res e)) (h : Async.unused e w && tidy w e) :
    Async.unused e w ∧ orderly threads e w r := by
  rw [Bool.and_eq_true] at h
  obtain ⟨hunused, hrest⟩ := h
  refine ⟨hunused, ?_⟩
  cases e with
  | begin n q => trivial
  | finish n a => exact not_due hrest n
  | call n op =>
    cases op with
    | findRamp id => exact not_due hrest n
    | updateRamp id data =>
      rw [tidy, Bool.and_eq_true] at hrest
      refine fun _ => ⟨fun m _ => not_due hrest.1 m id, ?_⟩
      rintro status ⟨l₁, x, l₂, heq, hop, hfound, -⟩
      have hx : x ∈ w.effects := by
        have hmem : x ∈ own n w := by
          rw [heq]
          simp
        exact (List.mem_filter.mp hmem).1
      have hsame := List.all_eq_true.mp hrest.2 x hx
      rw [hop] at hsame
      simp only [ne_eq, not_true_eq_false, decide_false, Bool.false_or, decide_eq_true_eq] at hsame
      rw [← hsame, hfound]
    | _ => trivial

lemma quiescent {w : Desk} {l : List InProgress} (h : l.all fun p => p.next.isNone) :
    Quiescent ⟨w, ↑l⟩ := by
  intro p hp
  exact Option.isNone_iff_eq_none.mp (List.all_eq_true.mp h p hp)

/-- The last event of the sessions that overtake each other. -/
def lateEvent : RampTransactionEvent where
  rampTransactionId := "ramp"
  sequence := 4
  status := some .PENDING_ANCHOR
  eventType := "ramp.status_changed"
  source := "poller"
  payload := [("from", "PENDING_USER_TRANSFER"), ("to", "PENDING_ANCHOR"),
    ("rawStatus", "pending_anchor")]

end PlayedRamps

/-- A ramp is started, and then completed by a refresh. -/
theorem chronicled_of_orderly_refresh : ∃ (anchor : Anchor) (s : DeskState),
    (desk anchor orderly).Reachable s ∧ s.world.state.status "ramp" = some .COMPLETED ∧
      Quiescent s ∧ s.world.state.Chronicled := by
  have hstarted : (desk PlayedRamps.anchor orderly).Reachable
      ⟨PlayedRamps.started.2, PlayedRamps.started.1 ::ₘ 0⟩ :=
    Async.reachable_journalled (PlayedRamps.played_reports "") PlayedRamps.orderly_of_tidy
      (by decide +kernel) (Async.reachable_start (.init PlayedRamps.opening_init) ⟨0, _, rfl⟩)
  have hsettled : (desk PlayedRamps.anchor orderly).Reachable
      ⟨PlayedRamps.settled.2, PlayedRamps.settled.1 ::ₘ PlayedRamps.started.1 ::ₘ 0⟩ :=
    Async.reachable_journalled (PlayedRamps.played_reports "completed") PlayedRamps.orderly_of_tidy
      (by decide +kernel) (Async.reachable_start hstarted ⟨1, _, rfl⟩)
  have hquiescent :
      Quiescent ⟨PlayedRamps.settled.2, PlayedRamps.settled.1 ::ₘ PlayedRamps.started.1 ::ₘ 0⟩ :=
    PlayedRamps.quiescent (l := [PlayedRamps.settled.1, PlayedRamps.started.1]) (by decide +kernel)
  exact ⟨_, _, hsettled, by decide +kernel, hquiescent, chronicled_of_orderly hsettled hquiescent⟩

/-- A refresh that is overtaken tells a status that is no longer that of the last event. -/
theorem late_refresh_misreports : ∃ (anchor : Anchor) (s : DeskState),
    (desk anchor anyHappening).Reachable s ∧ Quiescent s ∧ ¬s.world.state.Chronicled := by
  obtain ⟨tr, tr', hrun, hrun'⟩ := PlayedRamps.run_overwritten
  have hreach := (hrun.append hrun').reachable PlayedRamps.opening_init
  refine ⟨_, _, hreach, ?_, fun hchronicled => ?_⟩
  · exact PlayedRamps.quiescent
      (l := [PlayedRamps.overwritten.1, PlayedRamps.completed.1, PlayedRamps.started.1]) (by decide +kernel)
  · have hrow : (PlayedRamps.overwritten.2.state.ramp "ramp").isSome := by decide +kernel
    obtain ⟨t, ht⟩ := Option.isSome_iff_exists.mp hrow
    have htrail : PlayedRamps.overwritten.2.state.trail "ramp" =
        (PlayedRamps.completed.2.state.trail "ramp") ++ [PlayedRamps.lateEvent] := by decide +kernel
    obtain ⟨status, hlast, hfrom⟩ := (hchronicled "ramp" t ht).1.previous _ _ _ htrail rfl
    have hcompleted : lastStatus (PlayedRamps.completed.2.state.trail "ramp") = some .COMPLETED := by
      decide +kernel
    obtain rfl := Option.some.inj (hcompleted.symm.trans hlast)
    exact absurd hfrom (by decide)

end PayEra.Ramps
