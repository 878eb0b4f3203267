import PayEra.Ramps.Openings

/-!
# Ramps that are written off

Once the provider has accepted a ramp, the poller can bring it to its final status as long as the row
is pending and has the provider's transaction. The `catch` block of `initiate` also covers the writes
after the provider's response, so a failure of one of them makes the row `ERROR` for good.
-/

namespace PayEra.Ramps

open Async (Program Executes)
open Async.Program

/-- The poller selects the ramp, as long as it is young enough. -/
def Selectable (i : String) (s : Rails) : Prop :=
  ∃ t, s.ramp i = some t ∧ Rails.isPending t.createdAt t = true

/-- What the poller looks at. -/
def polled (t : RampTransaction) : RampStatus × Option String := (t.status, t.providerTxId)

def polledAfter (data : RampTransactionData) (k : RampStatus × Option String) :
    RampStatus × Option String :=
  (data.status.getD k.1, data.providerTxId <|> k.2)

section WriteOff

variable {i : String} {s s' : Rails} {tr before after before' after' : List Attempted}
  {a a' : Attempted} {anchor : Anchor} {p : Service RampTransaction} {k : RampStatus × Option String}

lemma reflects_polled : Reflects polled polledAfter := fun _ _ => rfl

lemma selectable_recorded {id : String} (h : Shows polled i (.PENDING_USER_TRANSFER, some id) s) :
    Selectable i s := by
  obtain ⟨t, ht, hk⟩ := h
  obtain ⟨hstatus, hid⟩ := Prod.mk.inj hk
  refine ⟨t, ht, decide_eq_true ⟨.inl hstatus, ?_, le_refl _⟩⟩
  rw [hid]
  rfl

lemma not_selectable (h : Shows polled i k s) (hk : k.1 = .INITIATED ∨ k.1 = .ERROR) :
    ¬Selectable i s := by
  rintro ⟨t, ht, hpending⟩
  obtain ⟨t', ht', rfl⟩ := h
  obtain rfl := Option.some.inj (ht.symm.trans ht')
  have hstatus := (of_decide_eq_true hpending).1
  rcases hk with hk | hk
  · rw [show t.status = .INITIATED from hk] at hstatus
    simp at hstatus
  · rw [show t.status = .ERROR from hk] at hstatus
    simp at hstatus

/-- The only response that tells of a transaction splits the calls in one way. -/
lemma split_unique (heq : before ++ a :: after = before' ++ a' :: after') (ha : a.intact.isSome)
    (hbefore : Lost before') (hafter : Lost after') : after = after' := by
  have hnot (hnone : a.intact = none) : False := by
    rw [hnone] at ha
    cases ha
  rcases List.append_eq_append_iff.mp heq with ⟨l, hl, hrest⟩ | ⟨l, hl, hrest⟩
  · cases l with
    | nil => exact (List.cons.inj hrest).2
    | cons b l =>
      obtain ⟨rfl, -⟩ := List.cons.inj hrest
      exact (hnot (hbefore a (by simp [hl]))).elim
  · cases l with
    | nil => exact (List.cons.inj hrest).2.symm
    | cons b l =>
      obtain ⟨-, hmem⟩ := List.cons.inj hrest
      exact (hnot (hafter a (by simp [hmem]))).elim

lemma Lost.cons (ha : a.intact = none) (hafter : Lost after) : Lost (a :: after) := by
  intro b hb
  rcases List.mem_cons.mp hb with rfl | hb
  · exact ha
  · exact hafter b hb

lemma not_writesOff (h : a.op.writes = false) : a.writesOff = false := by
  obtain ⟨op, answer, took, found, left⟩ := a
  cases op with
  | updateRamp id data => cases h
  | _ => rfl

/-- **An accepted ramp is not written off**, whatever fails after the provider's response `a`, exactly
when the write of the provider's transaction takes effect and either nothing after the response fails or
the write of `ERROR` has no effect. -/
theorem accepted_ramp_kept_iff (hp : Initiates anchor p) {r : Except Thrown RampTransaction}
    (h : Execution polled i p s tr r s') (hi : ∀ ramp, Created tr ramp → ramp.id = i)
    (htr : tr = before ++ a :: after) (ha : a.intact.isSome) :
    Selectable i s' ↔ (∀ b ∈ after, Attempted.records b → b.took = true) ∧
      ((∀ b ∈ after, b.answer.isOk = true) ∨ ∀ b ∈ after, Attempted.writesOff b → b.took = false) := by
  have hcontra (hlost : Lost tr) : False := by
    rw [hlost a (by simp [htr])] at ha
    cases ha
  cases initiates_outcome reflects_polled hp h hi with
  -- a call that stops before the provider is asked, or loses its response, has no intact one
  | aside haside => exact (hcontra (lost_of_aside haside)).elim
  | failed ramp message before' after' e htr' hnew hlost hbefore he hafter hshows =>
    have hlast : e.intact = none := intact_of_not_asks (by rw [he]; rfl)
    rw [htr'] at hcontra
    exact (hcontra (hlost.append ((lost_of_aside hafter).cons hlast))).elim
  -- what follows the response is the write `u` of the transaction, and nothing that fails
  | recorded ramp result before' after' a' u htr' hnew hlost hbefore hintact hopened hu hafter hok
      hshows =>
    have hlast : u.intact = none := intact_of_not_asks (by rw [hu]; rfl)
    have hsplit : after = u :: after' := split_unique (htr.symm.trans htr') ha hlost
      ((lost_of_aside hafter).cons hlast)
    have hrecords : u.records = true := by rw [Attempted.records, hu]; rfl
    rw [hsplit]
    constructor
    · intro hselectable
      have htook : u.took = true := by
        by_contra hno
        rw [if_neg hno] at hshows
        exact not_selectable hshows (.inl hnew.1) hselectable
      refine ⟨fun b hb hr => ?_, .inl hok⟩
      rcases List.mem_cons.mp hb with rfl | hb
      · exact htook
      · rw [not_records (hafter b hb).2] at hr
        cases hr
    · rintro ⟨htook, -⟩
      rw [if_pos (htook u (List.mem_cons_self ..) hrecords)] at hshows
      exact selectable_recorded hshows
  -- something fails after `u`, and the write `e` of the catch block follows: the ramp is kept if `u`
  -- has taken effect and `e` has not
  | abandoned ramp result message before' between after' a' u e htr' hnew hlost hbefore hintact hopened
      hu hbetween hfails he hafter hshows =>
    have hu' : u.intact = none := intact_of_not_asks (by rw [hu]; rfl)
    have he' : e.intact = none := intact_of_not_asks (by rw [he]; rfl)
    have hsplit : after = u :: (between ++ e :: after') := split_unique (htr.symm.trans htr') ha hlost
      (((lost_of_aside hbetween).append ((lost_of_aside hafter).cons he')).cons hu')
    have hrecords : u.records = true := by rw [Attempted.records, hu]; rfl
    have hwritesOff : e.writesOff = true := by rw [Attempted.writesOff, he]; rfl
    have hrest {P : Attempted → Prop} (hP : P e) (haside : ∀ b : Attempted, b.op.writes = false → P b) :
        ∀ b ∈ between ++ e :: after', P b := by
      intro b hb
      rcases List.mem_append.mp hb with hb | hb
      · exact haside b (hbetween b hb).2
      · rcases List.mem_cons.mp hb with rfl | hb
        · exact hP
        · exact haside b (hafter b hb).2
    rw [hsplit]
    constructor
    · intro hselectable
      have hleft : e.took = false := by
        by_contra htook
        rw [Bool.not_eq_false] at htook
        simp only [htook, if_true] at hshows
        exact not_selectable hshows (.inr rfl) hselectable
      have htook : u.took = true := by
        by_contra hno
        simp only [hleft, if_neg hno, Bool.false_eq_true, if_false] at hshows
        exact not_selectable hshows (.inl hnew.1) hselectable
      refine ⟨fun b hb hr => ?_, .inr fun b hb hw => ?_⟩
      · rcases List.mem_cons.mp hb with rfl | hb
        · exact htook
        · have hnot : ∀ b ∈ between ++ e :: after', Attempted.records b = false :=
            hrest (by rw [Attempted.records, he]; rfl) fun b hb => not_records hb
          rw [hnot b hb] at hr
          cases hr
      · rcases List.mem_cons.mp hb with rfl | hb
        · rw [Attempted.writesOff, hu] at hw
          cases hw
        · have hnot : ∀ b ∈ between ++ e :: after', Attempted.writesOff b → b.took = false := by
            refine hrest (fun _ => hleft) fun b hb hw => ?_
            rw [not_writesOff hb] at hw
            cases hw
          exact hnot b hb hw
    · rintro ⟨htook, hok | hleft⟩
      · refine absurd (fun b hb => hok b ?_) hfails
        rcases List.mem_cons.mp hb with rfl | hb
        · exact List.mem_cons_self ..
        · exact List.mem_cons_of_mem u (List.mem_append_left _ hb)
      · have hno := hleft e (List.mem_cons_of_mem u (List.mem_append_right _ (List.mem_cons_self ..)))
          hwritesOff
        simp only [hno, htook u (List.mem_cons_self ..) hrecords, Bool.false_eq_true, if_false,
          if_true] at hshows
        exact selectable_recorded hshows

end WriteOff

/-- The event of the initiation cannot be written. -/
def PlayedRamps.refusesEvent (op : Op) (_ : Rails) : Option PlayedRamps.Fails :=
  match op with
  | .createEvent e => if e.eventType = "ramp.initiated" then some .refused else none
  | _ => none

lemma PlayedRamps.refusesEvent_total (op : Op) (s : Rails) (h : Total op) :
    PlayedRamps.refusesEvent op s = none := by
  rcases h with rfl | ⟨ms, rfl⟩
  · rfl
  · rfl

/-- A response that tells of a transaction. -/
lemma exists_response {tr : List Attempted} (h : tr.any fun a => (Attempted.intact a).isSome) :
    ∃ before a after, tr = before ++ a :: after ∧ (Attempted.intact a).isSome = true := by
  obtain ⟨a, ha, hintact⟩ := List.any_eq_true.mp h
  obtain ⟨before, after, hsplit⟩ := List.append_of_mem ha
  exact ⟨before, a, after, hsplit, hintact⟩

/-- Nothing fails. -/
theorem accepted_ramp_kept_iff_of_start : ∃ (anchor : Anchor) (p : Service RampTransaction)
    (s s' : Rails) (tr : List Attempted) (r : Except Thrown RampTransaction), Initiates anchor p ∧
      Execution polled "ramp" p s tr r s' ∧ (∃ a ∈ tr, (Attempted.intact a).isSome) ∧
        Selectable "ramp" s' := by
  have h : Execution polled "ramp" _ _ (PlayedRamps.start fun _ _ => none).1 _ _ :=
    PlayedRamps.execution_start fun _ _ _ => rfl
  have hi : ∀ ramp, Created (PlayedRamps.start fun _ _ => none).1 ramp → ramp.id = "ramp" :=
    PlayedRamps.created_start (by decide +kernel)
  have htook : ∀ a ∈ (PlayedRamps.start fun _ _ => none).1, a.took = true := by decide +kernel
  have hok : ∀ a ∈ (PlayedRamps.start fun _ _ => none).1, a.answer.isOk = true := by decide +kernel
  have hresponse : (PlayedRamps.start fun _ _ => none).1.any fun a => (Attempted.intact a).isSome := by
    decide +kernel
  obtain ⟨before, a, after, hsplit, hintact⟩ := exists_response hresponse
  have hafter {b : Attempted} (hb : b ∈ after) : b ∈ (PlayedRamps.start fun _ _ => none).1 := by
    rw [hsplit]
    exact List.mem_append_right _ (List.mem_cons_of_mem a hb)
  refine ⟨_, _, _, _, _, _, PlayedRamps.initiates_start, h, ⟨a, by simp [hsplit], hintact⟩, ?_⟩
  refine (accepted_ramp_kept_iff PlayedRamps.initiates_start h hi hsplit hintact).mpr ⟨?_, .inl ?_⟩
  · exact fun b hb _ => htook b (hafter hb)
  · exact fun b hb => hok b (hafter hb)

/-- The provider has accepted the ramp and the row has its transaction, but the event after that is
refused. -/
theorem refused_event_writes_off : ∃ (anchor : Anchor) (p : Service RampTransaction)
    (s s' : Rails) (tr : List Attempted) (r : Except Thrown RampTransaction), Initiates anchor p ∧
      Execution polled "ramp" p s tr r s' ∧ (∀ ramp, Created tr ramp → ramp.id = "ramp") ∧
        (∃ a ∈ tr, (Attempted.intact a).isSome) ∧ s'.status "ramp" = some .ERROR ∧
          ¬Selectable "ramp" s' := by
  have h : Execution polled "ramp" _ _ (PlayedRamps.start PlayedRamps.refusesEvent).1 _ _ :=
    PlayedRamps.execution_start PlayedRamps.refusesEvent_total
  have hi : ∀ ramp, Created (PlayedRamps.start PlayedRamps.refusesEvent).1 ramp → ramp.id = "ramp" :=
    PlayedRamps.created_start (by decide +kernel)
  have hintact : ∃ a ∈ (PlayedRamps.start PlayedRamps.refusesEvent).1, (Attempted.intact a).isSome := by
    decide +kernel
  have hstatus : (PlayedRamps.start PlayedRamps.refusesEvent).2.2.status "ramp" = some .ERROR := by
    decide +kernel
  refine ⟨_, _, _, _, _, _, PlayedRamps.initiates_start, h, hi, hintact, hstatus, ?_⟩
  obtain ⟨t, ht, herror⟩ := Option.map_eq_some_iff.mp hstatus
  exact not_selectable ⟨t, ht, rfl⟩ (.inr herror)

end PayEra.Ramps
