import PayEra.Lib.Protocol
import PayEra.Api.Forward
import PayEra.Api.Stranded

/-!
# The event log of a transaction

Every change of a row's status should have its event, but the row and the event are two writes: the
processor writes the event after the row, `cancel` and `fail` write it before, and the claim of a
tick leaves it to the run that follows. In between, the session owes one of the two.

What the sessions owe, the statuses that a row has had and its events account for each other. For
each kind of write it is proved here that it keeps the account.
-/

namespace PayEra.Api

open Async (Event)

/-! ### Events and statuses -/

/-- The events of a transaction. -/
def Backend.eventsOf (b : Backend) (id : String) : List TransactionEvent :=
  b.transactionEvents.filter (·.transactionId = id)

/-- The events of the transaction have the sequences `1` to `n`, one each, and their statuses are, in
the order of the sequences, those of the list. -/
def Backend.Records (b : Backend) (id : String) (l : List TransactionStatus) : Prop :=
  ((b.eventsOf id).map fun e => (e.status, e.sequence)).Perm (l.zipIdx 1)

instance (b : Backend) (id : String) (l : List TransactionStatus) : Decidable (b.Records id l) :=
  inferInstanceAs (Decidable (List.Perm _ _))

/-- One more observation of a status. -/
def follow (l : List TransactionStatus) : Option TransactionStatus → List TransactionStatus
  | none => l
  | some s => if l.getLast? = some s then l else l ++ [s]

/-- The statuses that the row of a transaction has had, one after the other. -/
def history (w : Office) (id : String) : List TransactionStatus :=
  follow ((w.effects.map fun e => e.found.status id).foldl follow []) (w.state.status id)

section Log

variable {b b' : Backend} {id : String} {l : List TransactionStatus} {s : TransactionStatus}

lemma follow_getLast? (l : List TransactionStatus) : follow l l.getLast? = l := by
  cases h : l.getLast? with
  | none => rfl
  | some s => rw [follow, if_pos h]

lemma follow_of_ne (h : l.getLast? ≠ some s) : follow l (some s) = l ++ [s] := if_neg h

lemma records_nil (h : b.transactionEvents = []) : b.Records id [] := by
  rw [Backend.Records, Backend.eventsOf, h]
  exact .refl _

/-- What has the same events has the same log. -/
lemma Backend.Records.of_perm (h : b.Records id l)
    (hb : b'.transactionEvents.Perm b.transactionEvents) : b'.Records id l :=
  ((hb.filter _).map _).trans h

lemma Backend.Records.length (h : b.Records id l) : (b.eventsOf id).length = l.length := by
  have hlength := List.Perm.length_eq h
  rwa [List.length_map, List.length_zipIdx] at hlength

lemma Backend.Records.sequence_le (h : b.Records id l) {e : TransactionEvent}
    (he : e ∈ b.eventsOf id) : e.sequence ≤ l.length := by
  have hmem : (e.status, e.sequence) ∈ l.zipIdx 1 :=
    h.subset (List.mem_map.mpr ⟨e, he, rfl⟩)
  have hlt := List.snd_lt_of_mem_zipIdx hmem
  exact Nat.le_of_lt_succ hlt

/-- Every number up to the number of events is a sequence. -/
lemma Backend.Records.exists_sequence (h : b.Records id l) {n : ℕ} (hpos : 0 < n)
    (hn : n ≤ l.length) : ∃ e ∈ b.eventsOf id, e.sequence = n := by
  have hlt : n - 1 < l.length := by omega
  have hmem : (l[n - 1], n) ∈ l.zipIdx 1 := by
    rw [List.mem_zipIdx_iff_le_and_getElem?_sub]
    exact ⟨hpos, List.getElem?_eq_getElem hlt⟩
  obtain ⟨e, he, heq⟩ := List.mem_map.mp (h.symm.subset hmem)
  exact ⟨e, he, congrArg Prod.snd heq⟩

/-- One more event. -/
lemma Backend.Records.snoc (h : b.Records id l) {e : TransactionEvent}
    (hid : e.transactionId = id) (hsequence : e.sequence = l.length + 1)
    (hb : b'.transactionEvents = b.transactionEvents ++ [e]) : b'.Records id (l ++ [e.status]) := by
  rw [Backend.Records, Backend.eventsOf, hb, List.filter_append, List.map_append,
    List.zipIdx_append]
  apply List.Perm.append h
  rw [List.filter_cons_of_pos (by simpa using hid)]
  rw [List.filter_nil, List.map_singleton, hsequence, Nat.add_comm]
  exact .refl _

/-- An event of another transaction. -/
lemma Backend.Records.other (h : b.Records id l) {e : TransactionEvent}
    (hid : e.transactionId ≠ id) (hb : b'.transactionEvents = b.transactionEvents ++ [e]) :
    b'.Records id l := by
  rw [Backend.Records, Backend.eventsOf, hb, List.filter_append,
    List.filter_cons_of_neg (by simpa using hid), List.filter_nil, List.append_nil]
  exact h

end Log

/-! ### What a session owes -/

/-- Of the two writes that belong together, the one that is still to be made. -/
inductive Pending where
  /-- The row has the status, and the event is still to be written. -/
  | event (s : TransactionStatus)
  /-- The event is there, and the row is still to be written. -/
  | row (s : TransactionStatus)
  deriving DecidableEq

/-- What is owed for the transaction after one more call that took effect. -/
def Pending.after (id : String) (p : Option Pending) (e : Async.Effect Backend Request) :
    Option Pending :=
  match e.op with
  | ⟨_, .claimTransactions time _⟩ =>
    if (e.found.transaction id).any (Backend.claimable time) then some (.event .AUTHORIZED) else p
  | ⟨.run _, .updateTransaction i data⟩ =>
    if i = id then (data.status.map .event).or p else p
  | ⟨.run _, .createEvent e⟩ => if e.transactionId = id then none else p
  | ⟨_, .createEvent e⟩ => if e.transactionId = id then some (.row e.status) else p
  | ⟨_, .updateTransaction i data⟩ => if i = id ∧ data.status.isSome then none else p
  | _ => p

/-- What the session `n` owes for the transaction `id`. -/
def pending (n : ℕ) (id : String) (w : Office) : Option Pending :=
  (w.effects.filter (·.session = n)).foldl (Pending.after id) none

/-- The call writes an event of the transaction. -/
def Request.records (id : String) (c : Request) : Prop :=
  match c.op with
  | .createEvent e => e.transactionId = id
  | .createTransaction t => t.row.id = id ∨ t.event.transactionId = id
  | _ => False

/-- What is owed is what the events and the statuses of the row differ by. -/
def Pending.Explains (statuses events : List TransactionStatus) : Pending → Prop
  | .event s => statuses = events ++ [s]
  | .row s => events = statuses ++ [s] ∧ statuses.getLast? ≠ some s

/-- The events of the transaction, the statuses that its row has had, and what the sessions owe. -/
structure Account (w : Office) (id : String) (l : List TransactionStatus) : Prop where
  records : w.state.Records id l
  last : (history w id).getLast? = w.state.status id
  settled : (∀ n, pending n id w = none) → l = history w id
  unsettled : ∀ n p, pending n id w = some p →
    p.Explains (history w id) l ∧ ∀ m, m ≠ n → pending m id w = none

section Steps

variable {lossless : Request → Prop} {n m : ℕ} {c : Request} {w w' : Office}
  {r : Except String c.Res} {id : String} {l l' : List TransactionStatus}

/-- A call that takes effect. -/
structure Effected (n : ℕ) (c : Request) (w w' : Office) : Prop where
  evolves : ∃ v, Returns c w.state v w'.state
  effects : w'.effects = w.effects ++ [⟨n, c, w.state⟩]

lemma effected_or (h : Async.happens Returns Total lossless (.call n c) w r w') :
    w'.state = w.state ∧ w'.effects = w.effects ∨ Effected n c w w' :=
  (Async.happens_call h).imp_right fun h => ⟨h.1, h.2⟩

lemma effected_of_ok {v : c.Res} (h : Async.happens Returns Total lossless (.call n c) w (.ok v) w') :
    Effected n c w w' := ⟨⟨v, h.2.1⟩, h.2.2⟩

lemma Effected.history (h : Effected n c w w') :
    history w' id = follow (history w id) (w'.state.status id) := by
  rw [PayEra.Api.history, h.effects, List.map_append, List.foldl_append]
  rfl

lemma Effected.pending_self (h : Effected n c w w') :
    pending n id w' = Pending.after id (pending n id w) ⟨n, c, w.state⟩ := by
  rw [pending, h.effects, List.filter_append, List.filter_cons_of_pos (by simp), List.filter_nil,
    List.foldl_append]
  rfl

lemma Effected.pending_of_ne (h : Effected n c w w') (hm : m ≠ n) :
    pending m id w' = pending m id w := by
  rw [pending, h.effects, List.filter_append, List.filter_cons_of_neg (by simpa using hm.symm),
    List.filter_nil, List.append_nil]
  rfl

/-- What happens besides the effects of calls keeps the account. -/
lemma Account.of_eq (h : Account w id l) (heffects : w'.effects = w.effects)
    (hstatus : w'.state.status id = w.state.status id)
    (hevents : w'.state.transactionEvents.Perm w.state.transactionEvents) : Account w' id l := by
  have hhistory : history w' id = history w id := by
    rw [history, heffects, hstatus]
    rfl
  have hpending : ∀ n, pending n id w' = pending n id w := fun n => by
    rw [pending, heffects]
    rfl
  refine ⟨h.records.of_perm hevents, ?_, ?_, ?_⟩
  · rw [hhistory, hstatus]
    exact h.last
  · simpa only [hpending, hhistory] using h.settled
  · simpa only [hpending, hhistory] using h.unsettled

/-- A call that neither writes the status of the row nor an event of the transaction. -/
lemma Account.aside (h : Account w id l) (he : Effected n c w w')
    (hstatus : w'.state.status id = w.state.status id) (hrecords : w'.state.Records id l)
    (hpending : pending n id w' = pending n id w) : Account w' id l := by
  have hhistory : history w' id = history w id := by
    rw [he.history, hstatus, ← h.last, follow_getLast?]
  have hall : ∀ m, pending m id w' = pending m id w := by
    intro m
    by_cases hm : m = n
    · rw [hm, hpending]
    · exact he.pending_of_ne hm
  refine ⟨hrecords, ?_, ?_, ?_⟩
  · rw [hhistory, hstatus]
    exact h.last
  · simpa only [hall, hhistory] using h.settled
  · simpa only [hall, hhistory] using h.unsettled

/-- A call that writes one of the two, while nobody else owes anything. -/
lemma Account.write (he : Effected n c w w') (hothers : ∀ m, m ≠ n → pending m id w = none)
    (hrecords : w'.state.Records id l') (hlast : (history w' id).getLast? = w'.state.status id)
    (hsettled : pending n id w' = none → l' = history w' id)
    (hunsettled : ∀ p, pending n id w' = some p → p.Explains (history w' id) l') :
    Account w' id l' := by
  have hnone : ∀ m, m ≠ n → pending m id w' = none := fun m hm =>
    (he.pending_of_ne hm).trans (hothers m hm)
  refine ⟨hrecords, hlast, fun hall => hsettled (hall n), fun m p hp => ?_⟩
  by_cases hm : m = n
  · subst hm
    exact ⟨hunsettled p hp, hnone⟩
  · rw [hnone m hm] at hp
    cases hp

/-! ### Each kind of write -/

/-- A tick claims the row. -/
lemma Account.claim {source : Source} {time authorizedAt : ℕ} (h : Account w id l)
    (he : Effected n ⟨source, .claimTransactions time authorizedAt⟩ w w')
    (hclaim : (w.state.transaction id).any (Backend.claimable time))
    (hall : ∀ m, pending m id w = none) : Account w' id l := by
  obtain ⟨v, o, hans⟩ := he.evolves
  obtain ⟨t, ht, htime⟩ := (Option.any_eq_true _ _).mp hclaim
  have hcreated : w.state.status id = some .CREATED := by
    rw [Backend.status, ht, Option.map_some, (of_decide_eq_true htime).1]
  have hrow : w'.state.transaction id = _ := answer_row hans
  have hauthorized : w'.state.status id = some .AUTHORIZED := by
    rw [Backend.status, hrow, ht, Op.row, Option.map_some, if_pos htime]
    rfl
  have hhistory : history w' id = l ++ [.AUTHORIZED] := by
    rw [he.history, hauthorized, ← h.settled hall]
    apply follow_of_ne
    rw [h.settled hall, h.last, hcreated]
    simp
  have hpending : pending n id w' = some (.event .AUTHORIZED) := by
    rw [he.pending_self]
    exact if_pos hclaim
  apply Account.write he (fun m _ => hall m)
  · exact h.records.of_perm (.of_eq ((answer_frame hans).transactionEvents rfl))
  · rw [hhistory, hauthorized]
    exact List.getLast?_concat
  · intro hnone
    rw [hpending] at hnone
    cases hnone
  · intro p hp
    rw [hpending] at hp
    cases hp
    exact hhistory

/-- A status that is written is the status of the row. -/
lemma Effected.status {source : Source} {data : TransactionData} {s : TransactionStatus}
    (he : Effected n ⟨source, .updateTransaction id data⟩ w w') (hdata : data.status = some s) :
    w'.state.status id = some s ∧ w'.state.transactionEvents = w.state.transactionEvents := by
  obtain ⟨v, hv⟩ := he.evolves
  obtain ⟨o, hans⟩ := hv
  exact ⟨status_of_updated ⟨o, hans⟩ hdata, (answer_frame hans).transactionEvents rfl⟩

/-- A run writes the row: a new status, or once more the one whose event it owes. -/
lemma Account.runWrite {i : String} {data : TransactionData} {s : TransactionStatus}
    (h : Account w id l) (he : Effected n ⟨.run i, .updateTransaction id data⟩ w w')
    (hdata : data.status = some s) (hothers : ∀ m, m ≠ n → pending m id w = none)
    (hown : pending n id w = none ∧ w.state.status id ≠ some s ∨
      pending n id w = some (.event s)) : Account w' id l := by
  obtain ⟨hstatus, hevents⟩ := he.status hdata
  have hpending : pending n id w' = some (.event s) := by
    rw [he.pending_self]
    exact (if_pos rfl).trans (by rw [hdata]; rfl)
  have hhistory : history w' id = l ++ [s] := by
    rw [he.history, hstatus]
    rcases hown with ⟨hnone, hne⟩ | howed
    · have hall : ∀ m, pending m id w = none := by
        intro m
        by_cases hm : m = n
        · rw [hm, hnone]
        · exact hothers m hm
      rw [h.settled hall]
      apply follow_of_ne
      rw [h.last]
      exact hne
    · have heq : history w id = l ++ [s] := (h.unsettled n _ howed).1
      rw [heq, follow, if_pos List.getLast?_concat]
  apply Account.write he hothers
  · exact h.records.of_perm (.of_eq hevents)
  · rw [hhistory, hstatus]
    exact List.getLast?_concat
  · intro hnone
    rw [hpending] at hnone
    cases hnone
  · intro p hp
    rw [hpending] at hp
    cases hp
    exact hhistory

/-- A request writes the row, after its event. -/
lemma Account.requestWrite {data : TransactionData} {s : TransactionStatus} (h : Account w id l)
    (he : Effected n ⟨.request, .updateTransaction id data⟩ w w') (hdata : data.status = some s)
    (hown : pending n id w = some (.row s)) : Account w' id l := by
  obtain ⟨hstatus, hevents⟩ := he.status hdata
  obtain ⟨⟨hl, hne⟩, hothers⟩ := h.unsettled n _ hown
  have hpending : pending n id w' = none := by
    rw [he.pending_self]
    exact if_pos ⟨rfl, by rw [hdata]; rfl⟩
  have hhistory : history w' id = l := by
    rw [he.history, hstatus, follow_of_ne hne, hl]
  apply Account.write he hothers
  · exact h.records.of_perm (.of_eq hevents)
  · rw [hhistory, hstatus, hl]
    exact List.getLast?_concat
  · exact fun _ => hhistory.symm
  · intro p hp
    rw [hpending] at hp
    cases hp

/-- An event whose sequence is not too high has the next one: the database refuses the others. -/
lemma createEvent_next {source : Source} {e : TransactionEvent} {b b' : Backend} {v : Unit}
    (hv : Returns ⟨source, .createEvent e⟩ b v b') (hb : b.Records e.transactionId l)
    (hpos : 0 < e.sequence) (hle : e.sequence ≤ l.length + 1) :
    e.sequence = l.length + 1 ∧ b'.transactionEvents = b.transactionEvents ++ [e] ∧
      b'.transactions = b.transactions := by
  obtain ⟨o, hans⟩ := hv
  simp only [Backend.answer] at hans
  split_ifs at hans with hnew
  cases hans
  refine ⟨?_, rfl, rfl⟩
  by_contra hne
  obtain ⟨e', he', hsequence⟩ := hb.exists_sequence hpos (by omega)
  obtain ⟨hmem, hid⟩ := List.mem_filter.mp he'
  exact hnew (List.any_eq_true.mpr ⟨e', hmem, decide_eq_true ⟨of_decide_eq_true hid, hsequence⟩⟩)

/-- A run writes the event that it owes. -/
lemma Account.runEvent {i : String} {e : TransactionEvent} (h : Account w e.transactionId l)
    (he : Effected n ⟨.run i, .createEvent e⟩ w w') (hpos : 0 < e.sequence)
    (hle : e.sequence ≤ l.length + 1) (hown : pending n e.transactionId w = some (.event e.status)) :
    Account w' e.transactionId (l ++ [e.status]) := by
  obtain ⟨v, hv⟩ := he.evolves
  obtain ⟨hsequence, hevents, hrows⟩ := createEvent_next hv h.records hpos hle
  obtain ⟨heq, hothers⟩ := h.unsettled n _ hown
  have heq : history w e.transactionId = l ++ [e.status] := heq
  have hstatus : w'.state.status e.transactionId = w.state.status e.transactionId := by
    rw [Backend.status, Backend.transaction, hrows]
    rfl
  have hpending : pending n e.transactionId w' = none := by
    rw [he.pending_self]
    exact if_pos rfl
  have hhistory : history w' e.transactionId = l ++ [e.status] := by
    rw [he.history, hstatus, ← h.last, follow_getLast?, heq]
  apply Account.write he hothers
  · exact h.records.snoc rfl hsequence hevents
  · rw [hhistory, hstatus, ← h.last, heq]
  · exact fun _ => hhistory.symm
  · intro p hp
    rw [hpending] at hp
    cases hp

/-- A request writes its event, of a status that the row does not have. -/
lemma Account.requestEvent {e : TransactionEvent} (h : Account w e.transactionId l)
    (he : Effected n ⟨.request, .createEvent e⟩ w w') (hpos : 0 < e.sequence)
    (hle : e.sequence ≤ l.length + 1) (hall : ∀ m, pending m e.transactionId w = none)
    (hne : w.state.status e.transactionId ≠ some e.status) :
    Account w' e.transactionId (l ++ [e.status]) := by
  obtain ⟨v, hv⟩ := he.evolves
  obtain ⟨hsequence, hevents, hrows⟩ := createEvent_next hv h.records hpos hle
  have hstatus : w'.state.status e.transactionId = w.state.status e.transactionId := by
    rw [Backend.status, Backend.transaction, hrows]
    rfl
  have hpending : pending n e.transactionId w' = some (.row e.status) := by
    rw [he.pending_self]
    exact if_pos rfl
  have hhistory : history w' e.transactionId = l := by
    rw [he.history, hstatus, ← h.last, follow_getLast?, h.settled hall]
  apply Account.write he fun m _ => hall m
  · exact h.records.snoc rfl hsequence hevents
  · rw [hhistory, hstatus, ← h.last, h.settled hall]
  · intro hnone
    rw [hpending] at hnone
    cases hnone
  · intro p hp
    rw [hpending] at hp
    cases hp
    refine ⟨by rw [hhistory], ?_⟩
    rw [hhistory, h.settled hall, h.last]
    exact hne

/-- `create` writes the row and its first event at once. -/
structure NewTransaction.Opens (t : NewTransaction) : Prop where
  status : t.row.status = .CREATED
  transactionId : t.event.transactionId = t.row.id
  sequence : t.event.sequence = 1
  event : t.event.status = .CREATED

lemma Account.create {t : NewTransaction} (h : Account w t.row.id l)
    (he : Effected n ⟨.request, .createTransaction t⟩ w w') (ht : t.Opens)
    (hall : ∀ m, pending m t.row.id w = none) : Account w' t.row.id [.CREATED] := by
  obtain ⟨v, o, hans⟩ := he.evolves
  have hrow : w'.state.transaction t.row.id = _ := answer_row hans
  simp only [Backend.answer] at hans
  split_ifs at hans with hnew
  rw [not_or] at hnew
  have hfind : w.state.transaction t.row.id = none := by
    rw [Backend.transaction, List.find?_eq_none]
    intro t' ht' hid
    exact hnew.1 (List.any_eq_true.mpr ⟨t', ht', decide_eq_true (.inl (of_decide_eq_true hid))⟩)
  have hstatus : w.state.status t.row.id = none := by
    rw [Backend.status, hfind]
    rfl
  have hstatus' : w'.state.status t.row.id = some .CREATED := by
    rw [Backend.status, hrow, hfind, Op.row, if_pos rfl, Option.none_or, Option.map_some, ht.status]
  have hnil : history w t.row.id = [] := by
    rw [← List.getLast?_eq_none_iff, h.last, hstatus]
  have hl : l = [] := (h.settled hall).trans hnil
  have hhistory : history w' t.row.id = [.CREATED] := by
    rw [he.history, hstatus', hnil]
    rfl
  have hpending : pending n t.row.id w' = none := by
    rw [he.pending_self]
    exact hall n
  have hevents : w'.state.transactionEvents = w.state.transactionEvents ++ [t.event] := by
    rw [← (Prod.mk.inj (Option.some.inj hans)).2]
  apply Account.write he fun m _ => hall m
  · have hrecords : w'.state.Records t.row.id (l ++ [t.event.status]) :=
      h.records.snoc ht.transactionId (by rw [ht.sequence, hl]; rfl) hevents
    rw [hl, ht.event] at hrecords
    exact hrecords
  · rw [hhistory, hstatus']
    rfl
  · exact fun _ => hhistory.symm
  · intro p hp
    rw [hpending] at hp
    cases hp

end Steps

end PayEra.Api
