import PayEra.Api.EventLog

/-!
# The event log agrees with the row

Where sessions do not write to the same transaction at the same time, where what is written first is
always followed by what belongs to it, and where no status is written twice, every transaction has
its statuses for its events whenever nothing is being done to it.

The ghost state of a session says what it owes: nothing, an event of the transaction that it runs, a
row that it revises, or the first events of the transactions that it has claimed and not yet run.
-/

namespace PayEra.Api

open Async (Program Event Safe Protocol upon safe_pure safe_throw safe_bind safe_attempt)
open Async.Program

/-! ### Work on a transaction, and its two writes -/

/-- The request is about the transaction. -/
def Asked.revises (id : String) : Asked → Prop
  | .cancel _ i | .fail _ i _ => i = id
  | _ => False

/-- The session `n`, whose next event is `e`, is at work on the transaction: it runs it, it has
claimed it and not yet run it, or it was asked to cancel or to fail it. -/
def WorksOn (n : ℕ) (e : Happening) (id : String) (w : Office) : Prop :=
  (∃ c, e = .call n c ∧ c.source = .run id) ∨ (Claimed n id w ∧ ¬Ran n id w) ∨
    ∃ q, w.Begun n q ∧ q.revises id

/-- Some session is at work on the transaction. -/
def InOperation (id : String) (s : OfficeState) : Prop :=
  ∃ p ∈ s.threads, ∃ e, p.next = some e ∧ WorksOn e.session e id s.world

/-- The calls that, when they fail, fail as a whole. -/
def Request.whole : Request → Prop
  | ⟨_, .claimTransactions _ _⟩ | ⟨.request, .createEvent _⟩ => True
  | ⟨.run _, .updateTransaction _ data⟩ => data.status.isSome
  | _ => False

/-- The calls with which a run records an event: the lookup and the write. -/
def Request.logs : Request → Bool
  | ⟨.run _, .maxEventSequence _⟩ | ⟨.run _, .createEvent _⟩ => true
  | _ => false

/-- The session `n` has got an error for the write of an event of its run. -/
def Unanswered (n : ℕ) (id : String) (w : Office) : Prop :=
  ∃ e m, ⟨.call n ⟨.run id, .createEvent e⟩, .error m⟩ ∈ w.entries

/-- The call writes the status of the transaction or one of its events. -/
def Request.touches (id : String) (b : Backend) (c : Request) : Prop :=
  c.setsStatus id b ∨ c.records id

/-- What a call of the session `n` respects so that the log agrees with the row. -/
structure Faithful (n : ℕ) (c : Request) (w : Office) (r : Except String c.Res) : Prop where
  /-- While a session owes something for a transaction, no other session writes to it. -/
  alone : ∀ id, c.touches id w.state → ∀ m, m ≠ n → pending m id w = none
  /-- A run writes the status that the row has only if it owes the event of it. -/
  changes : ∀ id s, c.source = .run id → c.writes id s →
    w.state.status id ≠ some s ∨ pending n id w = some (.event s)
  /-- A request announces a status that the row does not have. -/
  announces : ∀ e, c = ⟨.request, .createEvent e⟩ → w.state.status e.transactionId ≠ some e.status
  /-- The first write after a claim does not fail. -/
  begins : ∀ id s, c.source = .run id → c.writes id s → pending n id w = none ∨ r.isOk
  looksUp : ∀ i id, c = ⟨.run i, .maxEventSequence id⟩ → r.isOk
  /-- A run goes on from the write of an event that failed only if the event was written all the same. -/
  goesOn : c.logs = false → ∀ id, Unanswered n id w → pending n id w = none
  /-- No transaction runs out of attempts. -/
  persists : ¬c.givesUp
  /-- A tick fetches everything that it has claimed. -/
  prompt : ∀ since, c.op = .findAuthorized since → r.isOk ∧
    (w.state.authorizedSince since).length ≤ 10 ∧
    ∀ id, pending n id w ≠ none → ∃ t ∈ w.state.authorizedSince since, t.id = id

def faithful : OfficeCondition := fun _ e w r => match e with
  | .call n c => Faithful n c w r
  -- the write of a row that failed took effect
  | .finish n _ => ∀ id s, pending n id w ≠ some (.row s)
  | .begin _ _ => True

/-! ### One step -/

/-- The session `n` has looked up what the sequence of the event is computed from. -/
def LookedUp (n : ℕ) (source : Source) (e : TransactionEvent) (w : Office) : Prop :=
  ∃ v : Option ℕ, e.sequence = v.getD 0 + 1 ∧
    ⟨.call n ⟨source, .maxEventSequence e.transactionId⟩, .ok v⟩ ∈ w.entries

/-- The next call of the session `n` is one that it may make, for what it owes. -/
def Duly (n : ℕ) (w : Office) : Request → Prop
  | ⟨_, .claimTransactions _ _⟩ => ∀ id, pending n id w = none
  | ⟨.run i, .updateTransaction j data⟩ => ∀ s, data.status = some s →
    i = j ∧ (pending n j w = none ∨ pending n j w = some (.event s))
  | ⟨.request, .updateTransaction j data⟩ => ∀ s, data.status = some s →
    pending n j w = some (.row s)
  | ⟨.run i, .createEvent e⟩ => pending n e.transactionId w = some (.event e.status) ∧
    LookedUp n (.run i) e w
  | ⟨.request, .createEvent e⟩ => pending n e.transactionId w = none ∧ LookedUp n .request e w
  | ⟨.request, .createTransaction t⟩ => t.Opens ∧ pending n t.row.id w = none
  | ⟨_, .updateTransaction _ _⟩ | ⟨_, .createEvent _⟩ | ⟨_, .createTransaction _⟩ => False
  | _ => True

/-- Every transaction is accounted for, and no lookup is ahead of the log. -/
structure Kept (w : Office) : Prop where
  distinct : w.state.Distinct
  looked : ∀ n source id (v : Option ℕ),
    ⟨.call n ⟨source, .maxEventSequence id⟩, .ok v⟩ ∈ w.entries →
      v.getD 0 ≤ (w.state.eventsOf id).length
  account : ∀ id, ∃ l, Account w id l

section Steps

variable {lossless : Request → Prop} {n m : ℕ} {c : Request} {w w' : Office}
  {r : Except String c.Res} {id : String} {l : List TransactionStatus} {b b' : Backend}

/-- Events are not deleted. -/
lemma Evolves.eventsOf_le (h : Evolves c b b') (id : String) :
    (b.eventsOf id).length ≤ (b'.eventsOf id).length := by
  have happend : ∀ e, b'.transactionEvents = b.transactionEvents ++ [e] →
      (b.eventsOf id).length ≤ (b'.eventsOf id).length := by
    intro e he
    rw [Backend.eventsOf, Backend.eventsOf, he, List.filter_append, List.length_append]
    exact Nat.le_add_right ..
  rcases h with rfl | ⟨v, o, hans⟩
  · exact le_refl _
  · by_cases hop : c.op.writesEvents
    · obtain ⟨source, op⟩ := c
      cases op with
      | createEvent e =>
        simp only [Backend.answer] at hans
        split_ifs at hans
        cases hans
        exact happend e rfl
      | createTransaction t =>
        simp only [Backend.answer] at hans
        split_ifs at hans
        cases hans
        exact happend t.event rfl
      | _ => cases hop
    · rw [Backend.eventsOf, Backend.eventsOf,
        (answer_frame hans).transactionEvents (Bool.not_eq_true _ ▸ hop)]

/-- A call that does not touch the transaction leaves what is owed for it. -/
lemma after_untouched {p : Option Pending} (hc : ¬c.touches id b) :
    Pending.after id p ⟨n, c, b⟩ = p := by
  obtain ⟨source, op⟩ := c
  cases op with
  | claimTransactions time authorizedAt =>
    apply if_neg
    intro hany
    obtain ⟨t, ht, htime⟩ := (Option.any_eq_true _ _).mp hany
    exact hc (.inl ⟨t, ht, htime⟩)
  | updateTransaction i data =>
    cases source with
    | run j =>
      by_cases hi : i = id
      · have hdata : data.status = none := by
          by_contra hne
          exact hc (.inl ⟨hi, Option.isSome_iff_ne_none.mpr hne⟩)
        exact (if_pos hi).trans (by rw [hdata]; rfl)
      · exact if_neg hi
    | _ => exact if_neg fun hdata => hc (.inl hdata)
  | createEvent e =>
    cases source with
    | _ => exact if_neg fun hid => hc (.inr hid)
  | _ => rfl

lemma Effected.pending_untouched (h : Effected n c w w') (hc : ¬c.touches id w.state) :
    pending n id w' = pending n id w := by
  rw [h.pending_self, after_untouched hc]

/-- What is owed for a transaction is owed because of a call that touched it. -/
lemma exists_touch_of_pending (h : pending n id w ≠ none) :
    ∃ x ∈ w.effects, x.session = n ∧ x.op.touches id x.found := by
  by_contra hnone
  apply h
  have hall : ∀ l : List (Async.Effect Backend Request), l ⊆ w.effects →
      (l.filter (·.session = n)).foldl (Pending.after id) none = none := by
    intro l
    induction l with
    | nil => exact fun _ => rfl
    | cons x l ih =>
      intro hl
      have ih := ih (List.subset_of_cons_subset hl)
      by_cases hx : x.session = n
      · have hc : ¬x.op.touches id x.found := fun hc => hnone ⟨x, hl List.mem_cons_self, hx, hc⟩
        have hafter : Pending.after id none x = none := after_untouched hc
        rw [List.filter_cons_of_pos (by simpa using hx), List.foldl_cons, hafter]
        exact ih
      · rw [List.filter_cons_of_neg (by simpa using hx)]
        exact ih
  exact hall w.effects (List.Subset.refl _)

/-- A call that does not touch the transaction keeps its account. -/
lemma Account.untouched (h : Account w id l) (he : Effected n c w w')
    (hc : ¬c.touches id w.state) : Account w' id l := by
  obtain ⟨v, o, hans⟩ := he.evolves
  have hrow : w'.state.transaction id = _ := answer_row hans
  refine h.aside he ?_ ?_ (he.pending_untouched hc)
  · obtain ⟨source, op⟩ := c
    rw [Backend.status, hrow]
    cases op with
    | claimTransactions time authorizedAt =>
      cases ht : w.state.transaction id with
      | none => rw [Backend.status, ht]; rfl
      | some t =>
        have htime : ¬Backend.claimable time t := fun htime => hc (.inl ⟨t, ht, htime⟩)
        rw [Op.row, Option.map_some, if_neg htime, Backend.status, ht]
    | updateTransaction i data =>
      rw [Op.row]
      by_cases hi : i = id
      · have hdata : data.status = none := by
          by_contra hne
          exact hc (.inl ⟨hi, Option.isSome_iff_ne_none.mpr hne⟩)
        rw [if_pos hi, Option.map_map, Backend.status]
        congr 1
        funext t
        rw [Function.comp_apply, status_update, hdata]
        rfl
      · rw [if_neg hi]
        rfl
    | createTransaction t =>
      have hid : t.row.id ≠ id := fun hid => hc (.inr (.inl hid))
      rw [Op.row, if_neg hid, Option.or_none]
      rfl
    | _ => rfl
  · by_cases hop : c.op.writesEvents
    · obtain ⟨source, op⟩ := c
      cases op with
      | createEvent e =>
        have hid : e.transactionId ≠ id := fun hid => hc (.inr hid)
        simp only [Backend.answer] at hans
        split_ifs at hans
        exact h.records.other hid (by rw [← (Prod.mk.inj (Option.some.inj hans)).2])
      | createTransaction t =>
        have hid : t.event.transactionId ≠ id := fun hid => hc (.inr (.inr hid))
        simp only [Backend.answer] at hans
        split_ifs at hans
        exact h.records.other hid (by rw [← (Prod.mk.inj (Option.some.inj hans)).2])
      | _ => cases hop
    · exact h.records.of_perm
        (.of_eq ((answer_frame hans).transactionEvents (Bool.not_eq_true _ ▸ hop)))

/-- A lookup that was answered is not ahead of the log. -/
lemma Kept.sequence_le (h : Kept w) {source : Source} {e : TransactionEvent}
    (hlooked : LookedUp n source e w) (hl : Account w e.transactionId l) :
    0 < e.sequence ∧ e.sequence ≤ l.length + 1 := by
  obtain ⟨v, hsequence, hentry⟩ := hlooked
  have hle := h.looked n source _ v hentry
  rw [hl.records.length] at hle
  omega

/-- What a session does for what it owes keeps the account of a transaction that it touches. -/
lemma Kept.touched (h : Kept w) (hduly : Duly n w c) (hf : Faithful n c w r)
    (he : Effected n c w w') (hc : c.touches id w.state) : ∃ l, Account w' id l := by
  obtain ⟨l, hl⟩ := h.account id
  have hothers := hf.alone id hc
  have hall : pending n id w = none → ∀ m, pending m id w = none := by
    intro hn m
    by_cases hm : m = n
    · rw [hm, hn]
    · exact hothers m hm
  obtain ⟨source, op⟩ := c
  cases op with
  | claimTransactions time authorizedAt =>
    obtain ⟨t, ht, htime⟩ := hc.resolve_right not_false
    have hclaim : (w.state.transaction id).any (Backend.claimable time) := by
      rw [ht]
      exact htime
    exact ⟨l, hl.claim he hclaim (hall (hduly id))⟩
  | updateTransaction j data =>
    obtain ⟨rfl, hdata⟩ := hc.resolve_right not_false
    obtain ⟨s, hs⟩ := Option.isSome_iff_exists.mp hdata
    cases source with
    | run i =>
      obtain ⟨rfl, hown⟩ := hduly s hs
      have hwrites : Request.writes i s ⟨.run i, .updateTransaction i data⟩ :=
        decide_eq_true ⟨rfl, hs⟩
      refine ⟨l, hl.runWrite he hs hothers ?_⟩
      rcases hown with hnone | howed
      · refine .inl ⟨hnone, (hf.changes i s rfl hwrites).resolve_right fun howed => ?_⟩
        rw [hnone] at howed
        cases howed
      · exact .inr howed
    | request => exact ⟨l, hl.requestWrite he hs (hduly s hs)⟩
    | _ => exact hduly.elim
  | createEvent e =>
    obtain rfl : e.transactionId = id := hc.resolve_left not_false
    cases source with
    | run i =>
      obtain ⟨hown, hlooked⟩ := hduly
      obtain ⟨hpos, hle⟩ := h.sequence_le hlooked hl
      exact ⟨_, hl.runEvent he hpos hle hown⟩
    | request =>
      obtain ⟨hnone, hlooked⟩ := hduly
      obtain ⟨hpos, hle⟩ := h.sequence_le hlooked hl
      exact ⟨_, hl.requestEvent he hpos hle (hall hnone) (hf.announces e rfl)⟩
    | _ => exact hduly.elim
  | createTransaction t =>
    cases source with
    | request =>
      obtain ⟨hopens, hnone⟩ := hduly
      have hid : t.row.id = id := by
        rcases hc.resolve_left not_false with hid | hid
        · exact hid
        · exact hopens.transactionId.symm.trans hid
      subst hid
      exact ⟨_, hl.create he hopens (hall hnone)⟩
    | _ => exact hduly.elim
  | _ => exact hc.elim False.elim False.elim

/-- **Every call that a session makes for what it owes keeps the accounts.** -/
theorem Kept.call (h : Kept w) (hduly : Duly n w c) (hf : Faithful n c w r)
    (hhappens : Async.happens Returns Total lossless (.call n c) w r w') : Kept w' := by
  have hevolves : Evolves c w.state w'.state := evolves_happens hhappens
  refine ⟨hevolves.distinct h.distinct, fun m source id v hentry => ?_, fun id => ?_⟩
  · rw [Async.happens_entries hhappens] at hentry
    refine le_trans ?_ (hevolves.eventsOf_le id)
    rcases List.mem_append.mp hentry with hold | hnew
    · exact h.looked m source id v hold
    · -- the greatest sequence is not greater than the number of events
      cases List.mem_singleton.mp hnew
      obtain ⟨o, hans⟩ := hhappens.2.1
      obtain ⟨rfl, -⟩ := Prod.mk.inj (Option.some.inj hans)
      obtain ⟨l, hl⟩ := h.account id
      rw [hl.records.length]
      show ((w.state.eventsOf id).map (·.sequence)).max?.getD 0 ≤ l.length
      cases hmax : ((w.state.eventsOf id).map (·.sequence)).max? with
      | none => exact Nat.zero_le _
      | some q =>
        obtain ⟨e, he, rfl⟩ := List.mem_map.mp (List.max?_mem hmax)
        exact hl.records.sequence_le he
  · rcases effected_or hhappens with ⟨hstate, heffects⟩ | he
    · obtain ⟨l, hl⟩ := h.account id
      exact ⟨l, hl.of_eq heffects (by rw [hstate]) (by rw [hstate])⟩
    · by_cases hc : c.touches id w.state
      · exact h.touched hduly hf he hc
      · obtain ⟨l, hl⟩ := h.account id
        exact ⟨l, hl.untouched he hc⟩

/-- A call leaves what is owed for a transaction that it does not touch. -/
lemma pending_happens (h : Async.happens Returns Total lossless (.call n c) w r w')
    (hc : ¬c.touches id w.state) : pending n id w' = pending n id w := by
  rcases effected_or h with ⟨-, heffects⟩ | he
  · rw [pending, heffects]
    rfl
  · exact he.pending_untouched hc

end Steps

/-! ### The protocol -/

/-- The session `n` owes nothing for the transaction, or its first event, which it will write when it
runs it. -/
def Rests (n : ℕ) (P : String → Prop) (w : Office) (id : String) : Prop :=
  pending n id w = none ∨
    pending n id w = some (.event .AUTHORIZED) ∧ Claimed n id w ∧ ¬Ran n id w ∧ P id

/-- What a session owes, and for a tick what it still has to run. -/
inductive Duty where
  | away
  | calm (n : ℕ) (q : Asked)
  | looked (n : ℕ) (q : Asked) (id : String) (v : Option ℕ)
  | owesRow (n : ℕ) (q : Asked) (id : String) (s : TransactionStatus)
  /-- The write of the row has failed. -/
  | sentRow (n : ℕ) (q : Asked) (id : String)
  | fresh (n : ℕ)
  | claimed (n : ℕ)
  | left (n : ℕ) (ids : List String)
  | running (n : ℕ) (id : String) (ids : List String)
  | owesEvent (n : ℕ) (id : String) (s : TransactionStatus) (ids : List String)
  | recording (n : ℕ) (id : String) (s : TransactionStatus) (ids : List String) (v : Option ℕ)
  /-- The write of the event has failed. -/
  | sentEvent (n : ℕ) (id : String) (ids : List String)

namespace Duty

def number : Duty → Option ℕ
  | away => none
  | calm n _ | looked n _ _ _ | owesRow n _ _ _ | sentRow n _ _ | fresh n | claimed n | left n _
  | running n _ _ | owesEvent n _ _ _ | recording n _ _ _ _ | sentEvent n _ _ => some n

/-- What the journal says of the session. -/
def Holds : Duty → Office → Prop
  | away, _ => True
  | calm n q, w => w.Begun n q ∧ ∀ i, pending n i w = none
  | looked n q id v, w => w.Begun n q ∧ (∀ i, pending n i w = none) ∧
    ⟨.call n ⟨.request, .maxEventSequence id⟩, .ok v⟩ ∈ w.entries
  | owesRow n q id s, w => w.Begun n q ∧ q.revises id ∧ pending n id w = some (.row s) ∧
    ∀ i, i ≠ id → pending n i w = none
  | sentRow n q id, w => w.Begun n q ∧ q.revises id ∧
    (pending n id w = none ∨ ∃ s, pending n id w = some (.row s)) ∧ ∀ i, i ≠ id → pending n i w = none
  | fresh n, w => ∀ i, pending n i w = none ∧ ¬Ran n i w
  | claimed n, w => ∀ i, Rests n (fun _ => True) w i
  | left n ids, w => ∀ i, Rests n (· ∈ ids) w i
  | running n id ids, w => pending n id w = none ∧ ∀ i, i ≠ id → Rests n (· ∈ ids) w i
  | owesEvent n id s ids, w => pending n id w = some (.event s) ∧
    ∀ i, i ≠ id → Rests n (· ∈ ids) w i
  | recording n id s ids v, w => pending n id w = some (.event s) ∧
    (∀ i, i ≠ id → Rests n (· ∈ ids) w i) ∧
    ⟨.call n ⟨.run id, .maxEventSequence id⟩, .ok v⟩ ∈ w.entries
  | sentEvent n id ids, w => Unanswered n id w ∧ (∀ s, pending n id w ≠ some (.row s)) ∧
    ∀ i, i ≠ id → Rests n (· ∈ ids) w i

end Duty

/-- What a run calls next when an error has been thrown in it. -/
def Resumes (id : String) (c : Request) : Prop := c.source = .run id ∧ c.logs = false

def bookkeeping : Protocol Backend Asked Request Request.Res String Unit Duty where
  number := Duty.number
  idle := .away
  allowed e w r := faithful 0 e w r
  link ℓ c := match ℓ with
    | .owesEvent _ id _ _ | .recording _ id _ _ _ => c.source = .run id
    | .sentEvent _ id _ => Resumes id c
    | _ => True
  base w _ := Kept w
  mine := Duty.Holds
  ended n _ w := ∀ id, pending n id w = none

section Agrees

variable {n : ℕ} {id : String} {w w' : Office} {P : String → Prop}

lemma pending_agrees (h : w.Agrees n w') : pending n id w' = pending n id w := by
  rw [pending, h.effects]
  rfl

lemma rests_agrees (h : w.Agrees n w') : Rests n P w' id ↔ Rests n P w id := by
  rw [Rests, Rests, pending_agrees h, claimed_agrees h, ran_agrees h]

lemma unanswered_agrees (h : w.Agrees n w') (hsent : Unanswered n id w) : Unanswered n id w' := by
  obtain ⟨e, m, hentry⟩ := hsent
  exact ⟨e, m, (h.entry rfl).mpr hentry⟩

end Agrees

lemma bookkeeping_lawful : bookkeeping.Lawful where
  idle := rfl
  mine n ℓ w w' hn h hmine := by
    have hentry : ∀ {e : Async.Entry Asked Request Request.Res String Unit}, e.1.session = n →
        e ∈ w.entries → e ∈ w'.entries := fun he hmem => (h.entry he).mpr hmem
    cases ℓ with
    | away => cases hn
    | calm m q =>
      cases hn
      simp only [bookkeeping, Duty.Holds, pending_agrees h, h.begun]
      exact hmine
    | looked m q id v =>
      cases hn
      simp only [bookkeeping, Duty.Holds, pending_agrees h, h.begun]
      exact ⟨hmine.1, hmine.2.1, hentry rfl hmine.2.2⟩
    | owesRow m q id s =>
      cases hn
      simp only [bookkeeping, Duty.Holds, pending_agrees h, h.begun]
      exact hmine
    | sentRow m q id =>
      cases hn
      simp only [bookkeeping, Duty.Holds, pending_agrees h, h.begun]
      exact hmine
    | fresh m =>
      cases hn
      simp only [bookkeeping, Duty.Holds, pending_agrees h, ran_agrees h]
      exact hmine
    | claimed m =>
      cases hn
      simp only [bookkeeping, Duty.Holds, rests_agrees h]
      exact hmine
    | left m ids =>
      cases hn
      simp only [bookkeeping, Duty.Holds, rests_agrees h]
      exact hmine
    | running m id ids =>
      cases hn
      simp only [bookkeeping, Duty.Holds, pending_agrees h, rests_agrees h]
      exact hmine
    | owesEvent m id s ids =>
      cases hn
      simp only [bookkeeping, Duty.Holds, pending_agrees h, rests_agrees h]
      exact hmine
    | recording m id s ids v =>
      cases hn
      simp only [bookkeeping, Duty.Holds, pending_agrees h, rests_agrees h]
      exact ⟨hmine.1, hmine.2.1, hentry rfl hmine.2.2⟩
    | sentEvent m id ids =>
      cases hn
      simp only [bookkeeping, Duty.Holds, pending_agrees h, rests_agrees h]
      exact ⟨unanswered_agrees h hmine.1, hmine.2⟩
  ended n a w w' h hover := by
    simp only [bookkeeping, pending_agrees h]
    exact hover

/-- What is asked of the calls of the session `n`. -/
abbrev keeping (n : ℕ) := (bookkeeping.discipline Returns Total Request.whole).at n

/-! ### Calls of a run -/

section Calls

variable {n m : ℕ} {c : Request} {w w' : Office} {r : Except String c.Res} {id i : String}
  {ids : List String} {s : TransactionStatus} {P : String → Prop}

lemma Rests.call (h : Rests n P w i)
    (hhappens : Async.happens Returns Total Request.whole (.call n c) w r w')
    (hpending : pending n i w' = pending n i w) (hsource : c.source ≠ .run i) :
    Rests n P w' i := by
  rw [Rests, hpending]
  refine h.imp_right fun ⟨hp, hclaimed, hran, hi⟩ => ⟨hp, claimed_mono hhappens hclaimed, ?_, hi⟩
  intro hran'
  rcases (ran_happens hhappens).mp hran' with hold | hruns
  · exact hran hold
  · exact hsource (of_decide_eq_true hruns).2

lemma Rests.mono {P' : String → Prop} (h : Rests n P w i) (hP : P i → P' i) : Rests n P' w i :=
  h.imp_right fun ⟨hp, hclaimed, hran, hi⟩ => ⟨hp, hclaimed, hran, hP hi⟩

/-- What the other transactions are owed during a run. -/
lemma rests_of_run {op : Op} {r : Except String (Request.Res ⟨.run id, op⟩)}
    (h : ∀ i, i ≠ id → Rests n P w i)
    (hhappens : Async.happens Returns Total Request.whole (.call n ⟨.run id, op⟩) w r w')
    (hc : ∀ i, i ≠ id → ¬Request.touches i w.state ⟨.run id, op⟩) :
    ∀ i, i ≠ id → Rests n P w' i := by
  intro i hi
  refine (h i hi).call hhappens (pending_happens hhappens (hc i hi)) fun heq => hi ?_
  cases heq
  rfl

lemma untouched_of_silent (hc : Silent id c) (b : Backend) : ¬c.touches i b := by
  obtain ⟨source, op⟩ := c
  obtain ⟨-, ⟨hrunning, hstill⟩, hevents⟩ := hc
  rintro (hsets | hrecords)
  · cases op with
    | updateTransaction j data =>
      have hdata : data.status = none := hstill
      have hsome : data.status.isSome := hsets.2
      rw [hdata] at hsome
      cases hsome
    | claimTransactions => exact hrunning
    | _ => exact hsets
  · cases op with
    | createEvent | createTransaction => cases hevents
    | _ => exact hrecords

lemma duly_of_silent (hc : Silent id c) : Duly n w c := by
  obtain ⟨source, op⟩ := c
  obtain ⟨rfl, ⟨hrunning, hstill⟩, hevents⟩ := hc
  cases op with
  | updateTransaction j data =>
    have hdata : data.status = none := hstill
    intro s hs
    rw [hdata] at hs
    cases hs
  | createEvent | createTransaction => cases hevents
  | claimTransactions => exact hrunning.elim
  | _ => trivial

end Calls

section Runs

variable {α β : Type} {js : Js} {n : ℕ} {tx : Transaction} {id : String} {ids : List String}
  {s : TransactionStatus} {p : Service α}

/-- Where a run may throw: it owes nothing, or the write of its event has failed. -/
def Thrown (n : ℕ) (id : String) (ids : List String) (ℓ : Duty) : Prop :=
  ℓ = .running n id ids ∨ ℓ = .sentEvent n id ids

/-- A part of a run at whose ends nothing is owed for the transaction. -/
def Settles (n : ℕ) (id : String) (ids : List String) (p : Service α) : Prop :=
  Safe (keeping n) p (.running n id ids)
    (upon (fun _ ℓ => ℓ = .running n id ids) (Thrown n id ids))

/-- What goes on shows that nothing is owed. -/
lemma safe_thrown {ℓ : Duty} {R : Except String α → Duty → Prop} (hℓ : Thrown n id ids ℓ)
    (hfirst : p.First (Resumes id)) (hp : Safe (keeping n) p (.running n id ids) R) :
    Safe (keeping n) p ℓ R := by
  rcases hℓ with rfl | rfl
  · exact hp
  · refine Protocol.safe_first hfirst rfl rfl (fun c hc => ⟨hc, ?_⟩) hp
    intro w f r hinv (hmine : (Duty.sentEvent n id ids).Holds w) (hf : Faithful n c w r)
    obtain ⟨hsent, -, hothers⟩ := hmine
    exact ⟨hinv.base, hf.goesOn hc.2 id hsent, hothers⟩

lemma settles_bind {f : α → Service β} (hp : Settles n id ids p)
    (hf : ∀ a, Settles n id ids (f a)) : Settles n id ids (p >>= f) := by
  refine safe_bind hp fun a ℓ hℓ => ?_
  subst hℓ
  exact hf a

lemma settles_attempt {f : Except String α → Service β} (hp : Settles n id ids p)
    (hf : ∀ r, Settles n id ids (f r)) (hfirst : ∀ e, (f (.error e)).First (Resumes id)) :
    Settles n id ids (p.attempt >>= f) := by
  refine safe_attempt hp (fun a ℓ hℓ => ?_) fun e ℓ hℓ => ?_
  · subst hℓ
    exact hf _
  · exact safe_thrown hℓ (hfirst e) (hf _)

lemma settles_done (r : Except String α) : Settles n id ids (Program.done r) := by
  cases r with
  | ok a => exact rfl
  | error e => exact .inl rfl

/-- A call that writes neither a status nor an event. -/
lemma running_silent {op : Op} {w w' : Office} {f : Multiset Duty}
    {r : Except String (Request.Res ⟨.run id, op⟩)} (hop : op.silent id)
    (hinv : bookkeeping.Inv w (.running n id ids ::ₘ f)) (hmine : (Duty.running n id ids).Holds w)
    (hf : Faithful n ⟨.run id, op⟩ w r)
    (hhappens : Async.happens Returns Total Request.whole (.call n ⟨.run id, op⟩) w r w') :
    Kept w' ∧ (Duty.running n id ids).Holds w' := by
  have hc : Silent id ⟨.run id, op⟩ := ⟨rfl, hop⟩
  have huntouched : ∀ i, ¬Request.touches i w.state ⟨.run id, op⟩ := fun i =>
    untouched_of_silent hc w.state
  exact ⟨hinv.base.call (duly_of_silent hc) hf hhappens,
    (pending_happens hhappens (huntouched id)).trans hmine.1,
    rests_of_run hmine.2 hhappens fun i _ => huntouched i⟩

lemma settles_silent (hp : p.All (Silent id)) : Settles n id ids p := by
  refine Protocol.safe_all bookkeeping_lawful hp (fun r => ?_) rfl ?_
  · cases r with
    | ok a => rfl
    | error e => exact .inl rfl
  intro c hc
  refine ⟨trivial, ?_⟩
  intro w f r w' hinv hmine hf hhappens
  obtain ⟨source, op⟩ := c
  obtain rfl : source = .run id := hc.1
  exact running_silent hc.2 hinv hmine hf hhappens

/-- A session that is about to run the transaction: it owes at most its first event. -/
def Begins (n : ℕ) (id : String) (ids : List String) (ℓ : Duty) : Prop :=
  ℓ.number = some n ∧ (∀ c, bookkeeping.link ℓ c) ∧ ∀ w, ℓ.Holds w → ∀ i, Rests n (· ∈ id :: ids) w i

lemma begins_left : Begins n id ids (.left n (id :: ids)) := ⟨rfl, fun _ => trivial, fun _ h => h⟩

/-- The next one after a run. -/
lemma begins_running {i : String} : Begins n id ids (.running n i (id :: ids)) := by
  refine ⟨rfl, fun _ => trivial, fun w h j => ?_⟩
  by_cases hj : j = i
  · subst hj
    exact .inl h.1
  · exact h.2 j hj

/-- One more attempt. -/
lemma begins_again : Begins n id ids (.running n id ids) := by
  refine ⟨rfl, fun _ => trivial, fun w h j => ?_⟩
  by_cases hj : j = id
  · subst hj
    exact .inl h.1
  · exact (h.2 j hj).mono (List.mem_cons_of_mem _)

/-- A run writes a status and then owes the event of it. If the write fails there is nothing to
owe. -/
lemma safe_writeStatus {data : TransactionData} {ℓ : Duty} (hdata : data.status = some s)
    (hℓ : Begins n id ids ℓ)
    (hown : ∀ w, ℓ.Holds w → pending n id w = none ∨ pending n id w = some (.event s)) :
    Safe (keeping n) (call (.run id) (.updateTransaction id data)) ℓ
      (upon (fun _ ℓ => ℓ = .owesEvent n id s ids) (Thrown n id ids)) := by
  obtain ⟨hn, hlink, hrests⟩ := hℓ
  refine Protocol.safe_call bookkeeping_lawful hn (hlink _) ?_
  intro w f r w' hinv (hmine : ℓ.Holds w)
    (hf : Faithful n ⟨.run id, .updateTransaction id data⟩ w r) hhappens
  have hduly : Duly n w ⟨.run id, .updateTransaction id data⟩ := by
    intro s' hs'
    obtain rfl := Option.some.inj (hdata.symm.trans hs')
    exact ⟨rfl, hown w hmine⟩
  have hbase : Kept w' := hinv.base.call hduly hf hhappens
  have hothers : ∀ i, i ≠ id → Rests n (· ∈ ids) w' i := by
    apply rests_of_run _ hhappens
    · rintro i hi (hsets | hrecords)
      · exact hi hsets.1.symm
      · exact hrecords
    · intro i hi
      refine (hrests w hmine i).mono fun hmem => ?_
      exact (List.mem_cons.mp hmem).resolve_left hi
  cases r with
  | ok v =>
    refine ⟨.owesEvent n id s ids, rfl, hbase, ⟨?_, hothers⟩, rfl⟩
    rw [(effected_of_ok hhappens).pending_self]
    exact (if_pos rfl).trans (by rw [hdata]; rfl)
  | error e =>
    refine ⟨.running n id ids, rfl, hbase, ⟨?_, hothers⟩, .inl rfl⟩
    have hwrites : Request.writes id s ⟨.run id, .updateTransaction id data⟩ :=
      decide_eq_true ⟨rfl, hdata⟩
    rcases hf.begins id s rfl hwrites with hnone | hok
    · rcases hhappens.2.2 with ⟨-, heffects⟩ | ⟨hlost, -⟩
      · rw [pending, heffects]
        exact hnone
      · refine absurd ?_ hlost
        show data.status.isSome
        rw [hdata]
        rfl
    · cases hok

/-- The event that is owed. -/
lemma safe_logEvent {payload : Metadata} :
    Safe (keeping n) (Processor.logEvent id s payload) (.owesEvent n id s ids)
      (upon (fun _ ℓ => ℓ = .running n id ids) (Thrown n id ids)) := by
  have hlookup : Safe (keeping n) (call (.run id) (.maxEventSequence id)) (.owesEvent n id s ids)
      (upon (fun v ℓ => ℓ = .recording n id s ids v) (Thrown n id ids)) := by
    refine Protocol.safe_call bookkeeping_lawful rfl rfl ?_
    intro w f r w' hinv (hmine : (Duty.owesEvent n id s ids).Holds w)
      (hf : Faithful n ⟨.run id, .maxEventSequence id⟩ w r) hhappens
    have huntouched : ∀ i, ¬Request.touches i w.state ⟨.run id, .maxEventSequence id⟩ := by
      rintro i (h | h)
      · exact h
      · exact h
    cases r with
    | error e => cases hf.looksUp id id rfl
    | ok v =>
      have hduly : Duly n w ⟨.run id, .maxEventSequence id⟩ := trivial
      refine ⟨.recording n id s ids v, rfl, hinv.base.call hduly hf hhappens, ⟨?_, ?_, ?_⟩, rfl⟩
      · exact (pending_happens hhappens (huntouched id)).trans hmine.1
      · exact rests_of_run hmine.2 hhappens fun i _ => huntouched i
      · rw [Async.happens_entries hhappens]
        exact List.mem_append_right _ (List.mem_singleton_self _)
  refine safe_bind hlookup fun v ℓ hℓ => ?_
  subst hℓ
  generalize he : ({ transactionId := id, sequence := v.getD 0 + 1, status := s
                     eventType := "transaction." ++ s.toLowerCase, payload } : TransactionEvent) = e
  have hid : e.transactionId = id := by rw [← he]
  have hstatus : e.status = s := by rw [← he]
  have hsequence : e.sequence = v.getD 0 + 1 := by rw [← he]
  refine Protocol.safe_call bookkeeping_lawful rfl rfl ?_
  intro w f r w' hinv (hmine : (Duty.recording n id s ids v).Holds w)
    (hf : Faithful n ⟨.run id, .createEvent e⟩ w r) hhappens
  have hduly : Duly n w ⟨.run id, .createEvent e⟩ := by
    refine ⟨?_, v, hsequence, ?_⟩
    · rw [hid, hstatus]
      exact hmine.1
    · rw [hid]
      exact hmine.2.2
  have hbase : Kept w' := hinv.base.call hduly hf hhappens
  have hothers : ∀ i, i ≠ id → Rests n (· ∈ ids) w' i := by
    apply rests_of_run hmine.2.1 hhappens
    rintro i hi (hsets | hrecords)
    · exact hsets
    · exact hi (hrecords.symm.trans hid)
  have hwritten : Effected n ⟨.run id, .createEvent e⟩ w w' → pending n id w' = none := by
    intro he
    rw [he.pending_self]
    exact if_pos hid
  cases r with
  | ok u =>
    exact ⟨.running n id ids, rfl, hbase, ⟨hwritten (effected_of_ok hhappens), hothers⟩, rfl⟩
  | error m =>
    refine ⟨.sentEvent n id ids, rfl, hbase, ⟨⟨e, m, ?_⟩, fun s' heq => ?_, hothers⟩, .inr rfl⟩
    · rw [Async.happens_entries hhappens]
      exact List.mem_append_right _ (List.mem_singleton_self _)
    · rcases effected_or hhappens with ⟨-, heffects⟩ | he
      · rw [pending, heffects] at heq
        cases hmine.1.symm.trans heq
      · rw [hwritten he] at heq
        cases heq

/-- The status and its event. -/
lemma safe_updateStatus {ℓ : Duty} {data : TransactionData} {payload : Metadata}
    (hdata : data.status = some s) (hℓ : Begins n id ids ℓ)
    (hown : ∀ w, ℓ.Holds w → pending n id w = none ∨ pending n id w = some (.event s)) :
    Safe (keeping n) (call (.run id) (.updateTransaction id data) >>= fun _ =>
      Processor.logEvent id s payload) ℓ
      (upon (fun _ ℓ => ℓ = .running n id ids) (Thrown n id ids)) := by
  refine safe_bind (safe_writeStatus hdata hℓ hown) fun v ℓ hℓ => ?_
  subst hℓ
  exact safe_logEvent

lemma settles_write {data : TransactionData} {payload : Metadata} (hdata : data.status = some s) :
    Settles n id ids (call (.run id) (.updateTransaction id data) >>= fun _ =>
      Processor.logEvent id s payload) :=
  safe_updateStatus hdata begins_again fun _ h => .inl h.1

namespace Processor

lemma settles_updateStatus {failure : Option (String × String)} :
    Settles n id ids (updateStatus id s failure) :=
  settles_bind (settles_silent silent_completionDate) fun _ => settles_write rfl

/-- The first attempt writes the event of the claim. -/
lemma safe_prepareKeeping {ℓ : Duty} (hℓ : Begins n tx.id ids ℓ) :
    Safe (keeping n) (prepare tx) ℓ
      (upon (fun _ ℓ => ℓ = .running n tx.id ids) (Thrown n tx.id ids)) := by
  have hauthorized : Safe (keeping n) (updateStatus tx.id .AUTHORIZED none) ℓ
      (upon (fun _ ℓ => ℓ = .running n tx.id ids) (Thrown n tx.id ids)) := by
    rw [updateStatus, completionDate_of_ne (by decide)]
    refine safe_updateStatus rfl hℓ fun w h => ?_
    exact (hℓ.2.2 w h tx.id).imp_right And.left
  refine safe_bind hauthorized fun _ ℓ hℓ => ?_
  subst hℓ
  have hreward : Settles n tx.id ids (call (.run tx.id) (.findSpendReward tx.id)) :=
    settles_silent (all_call ⟨⟨rfl, trivial⟩, rfl⟩)
  refine safe_bind hreward fun reward ℓ hℓ => ?_
  subst hℓ
  cases reward with
  | none => exact .inl rfl
  | some reward =>
    exact settles_bind (settles_silent silent_lookup.1) fun _ =>
      settles_bind (settles_silent silent_lookup.2) fun _ => settles_done _

lemma settles_quote : Settles n tx.id ids (quote js tx) :=
  settles_bind settles_updateStatus fun _ =>
    settles_bind (settles_silent silent_getUsdcRate) fun _ =>
    settles_bind (settles_done _) fun _ => settles_bind (settles_done _) fun _ =>
    settles_bind (settles_silent (all_call ⟨⟨rfl, trivial⟩, rfl⟩)) fun _ => settles_updateStatus

lemma settles_convert : Settles n tx.id ids (convert js tx) :=
  settles_bind (settles_silent (all_call ⟨⟨rfl, trivial⟩, rfl⟩)) fun _ =>
    settles_bind settles_updateStatus fun _ =>
    settles_silent (all_call ⟨⟨trivial, trivial⟩, rfl⟩)

lemma safe_routeKeeping {ℓ : Duty} (hℓ : Begins n tx.id ids ℓ) :
    Safe (keeping n) (route js tx) ℓ
      (upon (fun _ ℓ => ℓ = .running n tx.id ids) (Thrown n tx.id ids)) := by
  refine safe_bind (safe_prepareKeeping hℓ) fun lookup ℓ hℓ => ?_
  subst hℓ
  exact settles_bind (settles_silent (all_call ⟨⟨rfl, trivial⟩, rfl⟩)) fun _ =>
    settles_bind settles_quote fun _ => settles_convert

lemma settles_settle {stellar : StellarResult} {attempt : ℕ} :
    Settles n tx.id ids (settle tx stellar attempt) := by
  have hmark : Settles n tx.id ids (markSettled tx stellar) := by
    refine safe_bind (safe_writeStatus rfl begins_again fun _ h => .inl h.1) fun _ ℓ hℓ => ?_
    subst hℓ
    refine safe_bind safe_logEvent fun _ ℓ hℓ => ?_
    subst hℓ
    exact settles_bind (settles_silent (all_call ⟨⟨rfl, trivial⟩, rfl⟩)) fun _ =>
      settles_updateStatus
  refine settles_bind hmark fun _ => settles_bind (settles_silent silent_payMerchant) fun _ => ?_
  refine settles_bind (settles_silent silent_issueStarRewards) fun _ => ?_
  refine settles_bind settles_updateStatus fun _ => ?_
  refine settles_bind (settles_silent (all_call ⟨⟨rfl, trivial⟩, rfl⟩)) fun _ => ?_
  refine settles_bind settles_updateStatus fun _ => ?_
  refine settles_bind (settles_silent (all_now ⟨⟨trivial, trivial⟩, rfl⟩)) fun _ => ?_
  refine settles_bind (settles_silent (all_call ⟨⟨rfl, trivial⟩, rfl⟩)) fun _ => ?_
  exact settles_silent silent_logCompletion

lemma settles_abort {hash : Option String} {message : String} :
    Settles n tx.id ids (abort tx hash message) :=
  settles_bind (settles_silent silent_saveHash) fun _ => settles_updateStatus

lemma first_abort {hash : Option String} {message : String} :
    (abort tx hash message).First (Resumes tx.id) := by
  rw [abort, saveHash]
  cases truthy hash with
  | none => exact ⟨rfl, rfl⟩
  | some hash => exact ⟨rfl, rfl⟩

lemma safe_processKeeping {attempt : ℕ} {ℓ : Duty} (hℓ : Begins n tx.id ids ℓ) :
    Safe (keeping n) (processTransaction js tx attempt) ℓ
      (upon (fun _ ℓ => ℓ = .running n tx.id ids) (Thrown n tx.id ids)) := by
  refine safe_attempt (safe_routeKeeping hℓ) (fun stellar ℓ hℓ => ?_) fun message ℓ hℓ => ?_
  · subst hℓ
    refine settles_attempt settles_settle (fun r => ?_) fun message => first_abort
    cases r with
    | ok _ => exact settles_done _
    | error message => exact settles_abort
  · exact safe_thrown hℓ first_abort settles_abort

/-- A run never gives up, and so it never throws. -/
lemma safe_retryKeeping {remaining : ℕ} {ℓ : Duty} (hℓ : Begins n tx.id ids ℓ) :
    Safe (keeping n) (retryFrom js tx remaining) ℓ
      (upon (fun _ ℓ => ℓ = .running n tx.id ids) fun _ => False) := by
  refine safe_attempts (fun _ _ hℓ => safe_processKeeping hℓ) (fun message ℓ hℓ => ?_)
    (fun ms ℓ hℓ => ?_) hℓ
  · refine safe_thrown hℓ (p := giveUp tx message) ⟨rfl, rfl⟩ ?_
    refine safe_bind (R := fun _ _ => False) ?_ fun _ _ h => h.elim
    refine Protocol.safe_call bookkeeping_lawful rfl trivial ?_
    intro w f r w' _ _ (hf : Faithful n ⟨.run tx.id, .updateTransaction tx.id _⟩ w r) _
    exact absurd (by simp [Request.givesUp]) hf.persists
  · refine safe_thrown hℓ (p := call (.run tx.id) (.sleep ms)) ⟨rfl, rfl⟩ ?_
    refine Protocol.safe_call bookkeeping_lawful rfl trivial ?_
    intro w f r w' hinv hmine hf hhappens
    have hsilent : (Op.sleep ms).silent tx.id := ⟨⟨trivial, trivial⟩, rfl⟩
    obtain ⟨hkept, hmine'⟩ := running_silent hsilent hinv hmine hf hhappens
    refine ⟨.running n tx.id ids, rfl, hkept, hmine', ?_⟩
    cases r with
    | ok v => exact begins_again
    | error e => exact hhappens.2.1 (.inr (.inr ⟨ms, rfl⟩))

/-- A tick on its way through the list: it owes nothing but the first events of the rest. -/
def OnItsWay (n : ℕ) (ids : List String) (ℓ : Duty) : Prop :=
  ℓ = .left n ids ∨ ∃ id, ℓ = .running n id ids

lemma safe_loopKeeping (rows : List Transaction) {ℓ : Duty}
    (hℓ : OnItsWay n (rows.map (·.id)) ℓ) :
    Safe (keeping n) (rows.forM (processTransactionWithRetry js)) ℓ
      (upon (fun _ ℓ => OnItsWay n [] ℓ) fun _ => False) := by
  induction rows generalizing ℓ with
  | nil => exact hℓ
  | cons tx rows ih =>
    have hbegins : Begins n tx.id (rows.map (·.id)) ℓ := by
      rcases hℓ with rfl | ⟨id, rfl⟩
      · exact begins_left
      · exact begins_running
    refine safe_bind (safe_retryKeeping hbegins) fun _ ℓ hℓ => ?_
    exact ih (.inr ⟨tx.id, hℓ⟩)

end Processor

end Runs

/-! ### Ticks -/

section Ticks

variable {js : Js} {n : ℕ}

/-- A call of a tick that does not claim. -/
lemma rests_of_tick {op : Op} {w w' : Office} {P : String → Prop} {i : String}
    {r : Except String (Request.Res ⟨.tick, op⟩)} (h : Rests n P w i)
    (hc : ¬Request.touches i w.state ⟨.tick, op⟩)
    (hhappens : Async.happens Returns Total Request.whole (.call n ⟨.tick, op⟩) w r w') :
    Rests n P w' i :=
  h.call hhappens (pending_happens hhappens hc) fun heq => by cases heq

lemma not_ran_of_tick {op : Op} {w w' : Office} {i : String}
    {r : Except String (Request.Res ⟨.tick, op⟩)} (h : ¬Ran n i w)
    (hhappens : Async.happens Returns Total Request.whole (.call n ⟨.tick, op⟩) w r w') :
    ¬Ran n i w' := by
  intro hran
  rcases (ran_happens hhappens).mp hran with hold | hruns
  · exact h hold
  · cases (of_decide_eq_true hruns).2

lemma fresh_of_tick {op : Op} {w w' : Office} {r : Except String (Request.Res ⟨.tick, op⟩)}
    (h : (Duty.fresh n).Holds w) (hc : ∀ i, ¬Request.touches i w.state ⟨.tick, op⟩)
    (hhappens : Async.happens Returns Total Request.whole (.call n ⟨.tick, op⟩) w r w') :
    (Duty.fresh n).Holds w' := fun i =>
  ⟨(pending_happens hhappens (hc i)).trans (h i).1, not_ran_of_tick (h i).2 hhappens⟩

namespace Processor

lemma safe_clock {ℓ : Duty} (hℓ : ℓ = .fresh n ∨ ℓ = .claimed n) :
    Safe (keeping n) (now .tick) ℓ (upon (fun _ ℓ' => ℓ' = ℓ) fun _ => False) := by
  have hn : ℓ.number = some n := by rcases hℓ with rfl | rfl <;> rfl
  have hlink : bookkeeping.link ℓ ⟨.tick, .now⟩ := by rcases hℓ with rfl | rfl <;> trivial
  refine Protocol.safe_call bookkeeping_lawful hn hlink ?_
  intro w f r w' hinv hmine (hf : Faithful n ⟨.tick, .now⟩ w r) hhappens
  have huntouched : ∀ i, ¬Request.touches i w.state ⟨.tick, .now⟩ := by
    rintro i (h | h)
    · exact h
    · exact h
  have hduly : Duly n w ⟨.tick, .now⟩ := trivial
  refine ⟨ℓ, hn, hinv.base.call hduly hf hhappens, ?_, ?_⟩
  · rcases hℓ with rfl | rfl
    · exact fresh_of_tick hmine huntouched hhappens
    · exact fun i => rests_of_tick (hmine i) (huntouched i) hhappens
  · cases r with
    | ok v => rfl
    | error e => exact hhappens.2.1 (.inl rfl)

/-- A tick that claims rows owes the first event of each. -/
lemma safe_claim {time authorizedAt : ℕ} :
    Safe (keeping n) (call .tick (.claimTransactions time authorizedAt)) (.fresh n)
      (upon (fun count ℓ => if (count : ℕ) = 0 then ℓ = .fresh n else ℓ = .claimed n) fun ℓ =>
        ℓ = .fresh n) := by
  refine Protocol.safe_call bookkeeping_lawful rfl trivial ?_
  intro w f r w' hinv (hmine : (Duty.fresh n).Holds w)
    (hf : Faithful n ⟨.tick, .claimTransactions time authorizedAt⟩ w r) hhappens
  have hduly : Duly n w ⟨.tick, .claimTransactions time authorizedAt⟩ := fun i => (hmine i).1
  have hkept : Kept w' := hinv.base.call hduly hf hhappens
  have hran : ∀ i, ¬Ran n i w' := fun i => not_ran_of_tick (hmine i).2 hhappens
  cases r with
  | error e =>
    refine ⟨.fresh n, rfl, hkept, fun i => ⟨?_, hran i⟩, rfl⟩
    rcases hhappens.2.2 with ⟨-, heffects⟩ | ⟨hlost, -⟩
    · rw [pending, heffects]
      exact (hmine i).1
    · exact absurd trivial hlost
  | ok count =>
    have he := effected_of_ok hhappens
    have hpending : ∀ i, ¬(w.state.transaction i).any (Backend.claimable time) →
        pending n i w' = none := by
      intro i hi
      rw [he.pending_self]
      exact (if_neg hi).trans (hmine i).1
    by_cases hzero : (count : ℕ) = 0
    · refine ⟨.fresh n, rfl, hkept, fun i => ⟨hpending i fun hany => ?_, hran i⟩, ?_⟩
      · obtain ⟨t, ht, htime⟩ := (Option.any_eq_true _ _).mp hany
        obtain ⟨o, hans⟩ := hhappens.2.1
        have hcount : w.state.transactions.countP (Backend.claimable time) = count :=
          (Prod.mk.inj (Option.some.inj hans)).1
        rw [hzero] at hcount
        exact List.countP_eq_zero.mp hcount t (mem_of_transaction ht) htime
      · exact (if_pos hzero).mpr rfl
    · refine ⟨.claimed n, rfl, hkept, fun i => ?_, ?_⟩
      · by_cases hi : (w.state.transaction i).any (Backend.claimable time)
        · refine .inr ⟨?_, ⟨⟨n, ⟨.tick, .claimTransactions time authorizedAt⟩, w.state⟩, ?_, ?_⟩,
            hran i, trivial⟩
          · rw [he.pending_self]
            exact if_pos hi
          · rw [he.effects]
            exact List.mem_append_right _ (List.mem_singleton_self _)
          · rw [claims, Bool.and_eq_true]
            exact ⟨decide_eq_true rfl, hi⟩
        · exact .inl (hpending i hi)
      · exact (if_neg hzero).mpr rfl

/-- A tick fetches everything that it has claimed. -/
lemma safe_fetch {since : ℕ} :
    Safe (keeping n) (call .tick (.findAuthorized since)) (.claimed n)
      (upon (fun rows ℓ => ℓ = .left n (List.map Transaction.id rows)) fun _ => False) := by
  refine Protocol.safe_call bookkeeping_lawful rfl trivial ?_
  intro w f r w' hinv (hmine : (Duty.claimed n).Holds w)
    (hf : Faithful n ⟨.tick, .findAuthorized since⟩ w r) hhappens
  have huntouched : ∀ i, ¬Request.touches i w.state ⟨.tick, .findAuthorized since⟩ := by
    rintro i (h | h)
    · exact h
    · exact h
  have hduly : Duly n w ⟨.tick, .findAuthorized since⟩ := trivial
  obtain ⟨hok, hlen, hclaimed⟩ := hf.prompt since rfl
  cases r with
  | error e => cases hok
  | ok rows =>
    have hrows : rows = w.state.authorizedSince since := by
      rw [(fetched_rows hhappens.2.1).2]
      exact List.take_of_length_le hlen
    refine ⟨.left n (List.map Transaction.id rows), rfl, hinv.base.call hduly hf hhappens,
      fun i => ?_, rfl⟩
    refine rests_of_tick ?_ (huntouched i) hhappens
    by_cases hi : pending n i w = none
    · exact .inl hi
    · refine (hmine i).mono fun _ => ?_
      obtain ⟨t, ht, rfl⟩ := hclaimed i hi
      rw [← hrows] at ht
      exact List.mem_map_of_mem ht

lemma safe_tickKeeping : Safe (keeping n) (handlePendingTransactions js) (.fresh n)
    (upon (fun _ ℓ => ℓ = .fresh n ∨ OnItsWay n [] ℓ) fun ℓ => ℓ = .fresh n) := by
  have hclock : ∀ {ℓ : Duty}, ℓ = .fresh n ∨ ℓ = .claimed n → Safe (keeping n) (now .tick) ℓ
      (upon (fun _ ℓ' => ℓ' = ℓ) fun ℓ => ℓ = .fresh n) := fun hℓ =>
    (safe_clock hℓ).weaken (fun _ _ h => h) fun _ h => h.elim
  refine safe_bind (hclock (.inl rfl)) fun now₁ ℓ hℓ => ?_
  subst hℓ
  refine safe_bind (hclock (.inl rfl)) fun now₂ ℓ hℓ => ?_
  subst hℓ
  refine safe_bind safe_claim fun count ℓ hℓ => ?_
  by_cases hzero : count = 0
  · rw [if_pos hzero] at hℓ ⊢
    exact .inl hℓ
  · rw [if_neg hzero] at hℓ ⊢
    subst hℓ
    refine safe_bind (hclock (.inr rfl)) fun now₃ ℓ hℓ => ?_
    subst hℓ
    refine safe_bind (safe_fetch.weaken (fun _ _ h => h) fun _ h => h.elim) fun rows ℓ hℓ => ?_
    refine (safe_loopKeeping rows (.inl hℓ)).weaken (fun _ _ h => .inr h) fun _ h => h.elim

end Processor

end Ticks

end PayEra.Api
