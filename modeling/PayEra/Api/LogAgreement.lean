import PayEra.Api.Bookkeeping

/-!
# The event log agrees with the row

Requests follow the same protocol as ticks, and so nothing is owed for a transaction that nobody is
at work on: its events are the statuses that its row has had.
-/

namespace PayEra.Api

open Async (Program Safe Protocol upon safe_pure safe_throw safe_bind)
open Async.Program

/-! ### Requests -/

section Requests

variable {α : Type} {js : Js} {n : ℕ} {q : Asked} {id i : String} {s : TransactionStatus}
  {c : Request} {w w' : Office}

/-- Operations that write neither a status nor an event. -/
def Op.mute : Op → Bool
  | .claimTransactions _ _ | .updateTransaction _ _ | .createEvent _ | .createTransaction _ => false
  | _ => true

/-- Calls that may be made at any time: they are mute, or they write a new transaction together with
its first event. -/
def Request.Proper (c : Request) : Prop :=
  c.op.mute ∨ ∃ t : NewTransaction, c = ⟨.request, .createTransaction t⟩ ∧ t.Opens

lemma untouched_of_mute (hc : c.op.mute) (i : String) (b : Backend) : ¬c.touches i b := by
  obtain ⟨source, op⟩ := c
  rintro (hsets | hrecords)
  · cases op with
    | claimTransactions | updateTransaction => cases hc
    | _ => exact hsets
  · cases op with
    | createEvent | createTransaction => cases hc
    | _ => exact hrecords

lemma duly_of_mute (hc : c.op.mute) : Duly n w c := by
  obtain ⟨source, op⟩ := c
  cases op with
  | claimTransactions | updateTransaction | createEvent | createTransaction => cases hc
  | _ => trivial

/-- A session that owes nothing makes a proper call. -/
lemma calm_proper {f : Multiset Duty} {r : Except String c.Res} (hc : c.Proper)
    (hinv : bookkeeping.Inv w (.calm n q ::ₘ f)) (hmine : (Duty.calm n q).Holds w)
    (hf : Faithful n c w r)
    (hhappens : Async.happens Returns Total Request.whole (.call n c) w r w') :
    Kept w' ∧ (Duty.calm n q).Holds w' := by
  have hbegun : w'.Begun n q := (Async.begun_happens hhappens).mpr (.inl hmine.1)
  rcases hc with hmute | ⟨t, rfl, hopens⟩
  · refine ⟨hinv.base.call (duly_of_mute hmute) hf hhappens, hbegun, fun i => ?_⟩
    exact (pending_happens hhappens (untouched_of_mute hmute i w.state)).trans (hmine.2 i)
  · have hduly : Duly n w ⟨.request, .createTransaction t⟩ := ⟨hopens, hmine.2 _⟩
    refine ⟨hinv.base.call hduly hf hhappens, hbegun, fun i => ?_⟩
    rcases effected_or hhappens with ⟨-, heffects⟩ | he
    · rw [pending, heffects]
      exact hmine.2 i
    · rw [he.pending_self]
      exact hmine.2 i

lemma safe_proper {p : Service α} {R : Except String α → Duty → Prop}
    (hp : p.All Request.Proper) (hR : ∀ r, R r (.calm n q)) : Safe (keeping n) p (.calm n q) R := by
  refine Protocol.safe_all bookkeeping_lawful hp hR rfl fun c hc => ⟨trivial, ?_⟩
  intro w f r w' hinv hmine hf hhappens
  exact calm_proper hc hinv hmine hf hhappens

/-- A request looks up the next sequence of the transaction. -/
lemma safe_sequence : Safe (keeping n) (Transactions.nextEventSequence id) (.calm n q)
    (upon (fun k ℓ => ∃ v, k = v.getD 0 + 1 ∧ ℓ = .looked n q id v) fun ℓ => ℓ = .calm n q) := by
  refine safe_bind (R := fun v ℓ => ℓ = .looked n q id v) ?_ fun v ℓ hℓ => ⟨v, rfl, hℓ⟩
  refine Protocol.safe_call bookkeeping_lawful rfl trivial ?_
  intro w f r w' hinv (hmine : (Duty.calm n q).Holds w) hf hhappens
  have hbegun : w'.Begun n q := (Async.begun_happens hhappens).mpr (.inl hmine.1)
  have hkept : Kept w' := hinv.base.call (duly_of_mute rfl) hf hhappens
  have hpending : ∀ i, pending n i w' = none := fun i =>
    (pending_happens hhappens (untouched_of_mute rfl i _)).trans (hmine.2 i)
  cases r with
  | ok v =>
    refine ⟨.looked n q id v, rfl, hkept, ⟨hbegun, hpending, ?_⟩, rfl⟩
    rw [Async.happens_entries hhappens]
    exact List.mem_append_right _ (List.mem_singleton_self _)
  | error e => exact ⟨.calm n q, rfl, hkept, ⟨hbegun, hpending⟩, rfl⟩

/-- It writes the event of the next sequence, and owes the row its status. -/
lemma safe_announce {e : TransactionEvent} {v : Option ℕ} (hq : q.revises id)
    (hid : e.transactionId = id) (hsequence : e.sequence = v.getD 0 + 1) (hstatus : e.status = s) :
    Safe (keeping n) (call .request (.createEvent e)) (.looked n q id v)
      (upon (fun _ ℓ => ℓ = .owesRow n q id s) fun ℓ => ℓ = .looked n q id v) := by
  refine Protocol.safe_call bookkeeping_lawful rfl trivial ?_
  intro w f r w' hinv (hmine : (Duty.looked n q id v).Holds w) hf hhappens
  obtain ⟨hbegun, hnone, hlooked⟩ := hmine
  have hduly : Duly n w ⟨.request, .createEvent e⟩ :=
    ⟨hnone _, v, hsequence, by rw [hid]; exact hlooked⟩
  have hkept : Kept w' := hinv.base.call hduly hf hhappens
  have hbegun' : w'.Begun n q := (Async.begun_happens hhappens).mpr (.inl hbegun)
  cases r with
  | ok u =>
    have he := effected_of_ok hhappens
    refine ⟨.owesRow n q id s, rfl, hkept, ⟨hbegun', hq, ?_, fun i hi => ?_⟩, rfl⟩
    · rw [he.pending_self, ← hstatus]
      exact if_pos hid
    · rw [he.pending_self]
      exact (if_neg fun h => hi (h.symm.trans hid)).trans (hnone i)
  | error m =>
    refine ⟨.looked n q id v, rfl, hkept, ⟨hbegun', fun i => ?_, ?_⟩, rfl⟩
    · rcases hhappens.2.2 with ⟨-, heffects⟩ | ⟨hlost, -⟩
      · rw [pending, heffects]
        exact hnone i
      · exact absurd trivial hlost
    · rw [Async.happens_entries hhappens]
      exact List.mem_append_left _ hlooked

/-- It writes the row. -/
lemma safe_rewrite {data : TransactionData} (hdata : data.status = some s) :
    Safe (keeping n) (call .request (.updateTransaction id data)) (.owesRow n q id s)
      (upon (fun _ ℓ => ℓ = .calm n q) fun ℓ => ℓ = .sentRow n q id) := by
  refine Protocol.safe_call bookkeeping_lawful rfl trivial ?_
  intro w f r w' hinv (hmine : (Duty.owesRow n q id s).Holds w)
    (hf : Faithful n ⟨.request, .updateTransaction id data⟩ w r) hhappens
  obtain ⟨hbegun, hq, hrow, hothers⟩ := hmine
  have hduly : Duly n w ⟨.request, .updateTransaction id data⟩ := by
    intro s' hs'
    rw [hrow, Option.some.inj (hdata.symm.trans hs')]
  have hkept : Kept w' := hinv.base.call hduly hf hhappens
  have hbegun' : w'.Begun n q := (Async.begun_happens hhappens).mpr (.inl hbegun)
  have hrest : ∀ i, i ≠ id → pending n i w' = none := by
    intro i hi
    refine (pending_happens hhappens ?_).trans (hothers i hi)
    rintro (hsets | hrecords)
    · exact hi hsets.1.symm
    · exact hrecords
  have hwritten : Effected n ⟨.request, .updateTransaction id data⟩ w w' → pending n id w' = none := by
    intro he
    rw [he.pending_self]
    exact if_pos ⟨rfl, by rw [hdata]; rfl⟩
  cases r with
  | error m =>
    refine ⟨.sentRow n q id, rfl, hkept, ⟨hbegun', hq, ?_, hrest⟩, rfl⟩
    rcases effected_or hhappens with ⟨-, heffects⟩ | he
    · right
      refine ⟨s, ?_⟩
      rw [pending, heffects]
      exact hrow
    · exact .inl (hwritten he)
  | ok t =>
    refine ⟨.calm n q, rfl, hkept, ⟨hbegun', fun i => ?_⟩, rfl⟩
    by_cases hi : i = id
    · rw [hi]
      exact hwritten (effected_of_ok hhappens)
    · exact hrest i hi

/-- Where a request that revises a transaction may end. -/
def Revised (n : ℕ) (q : Asked) (id : String) (ℓ : Duty) : Prop :=
  ℓ = .calm n q ∨ (∃ v, ℓ = .looked n q id v) ∨ ℓ = .sentRow n q id

/-- A request looks up the next sequence, writes its event and then the row. -/
lemma safe_revise {data : TransactionData} {event : ℕ → TransactionEvent}
    (hq : q.revises id) (hdata : data.status = some s)
    (hid : ∀ k, (event k).transactionId = id) (hsequence : ∀ k, (event k).sequence = k)
    (hstatus : ∀ k, (event k).status = s) :
    Safe (keeping n) (do
      let sequence ← Transactions.nextEventSequence id
      call .request (.createEvent (event sequence))
      let _ ← call .request (.updateTransaction id data)) (.calm n q)
      (upon (fun _ ℓ => Revised n q id ℓ) fun ℓ => Revised n q id ℓ) := by
  refine safe_bind (safe_sequence.weaken (fun _ _ h => h) fun ℓ hℓ => .inl hℓ) fun k ℓ hℓ => ?_
  obtain ⟨v, rfl, rfl⟩ := hℓ
  have hannounce := safe_announce (n := n) (v := v) hq (hid _) (hsequence _) (hstatus _)
  refine safe_bind (hannounce.weaken (fun _ _ h => h) fun ℓ hℓ => .inr (.inl ⟨v, hℓ⟩)) fun _ ℓ hℓ => ?_
  subst hℓ
  exact safe_bind ((safe_rewrite hdata).weaken (fun _ _ h => h) fun _ h => .inr (.inr h))
    fun _ ℓ hℓ => .inl hℓ

namespace Transactions

lemma proper_findOne {owner : Principal} : (findOne owner id).All Request.Proper := by
  refine all_bind (all_perform (.inl rfl)) fun transaction => ?_
  cases transaction with
  | none => exact all_throw _
  | some transaction => exact all_pure _

lemma safe_findOne {owner : Principal} : Safe (keeping n) (findOne owner id) (.calm n q)
    (upon (fun _ ℓ => ℓ = .calm n q) fun ℓ => Revised n q id ℓ) := by
  refine safe_proper proper_findOne fun r => ?_
  cases r with
  | ok t => rfl
  | error e => exact .inl rfl

lemma safe_cancelKeeping {owner : Principal} (hq : q.revises id) :
    Safe (keeping n) (cancel owner id) (.calm n q)
      (upon (fun _ ℓ => Revised n q id ℓ) fun ℓ => Revised n q id ℓ) := by
  refine safe_bind safe_findOne fun t ℓ hℓ => ?_
  subst hℓ
  split_ifs
  · exact safe_throw (.inl rfl)
  · exact safe_revise hq rfl (fun _ => rfl) (fun _ => rfl) fun _ => rfl

lemma safe_failKeeping {owner : Principal} {dto : FailTransactionDto} (hq : q.revises id) :
    Safe (keeping n) (fail owner id dto) (.calm n q)
      (upon (fun _ ℓ => Revised n q id ℓ) fun ℓ => Revised n q id ℓ) := by
  refine safe_bind safe_findOne fun t ℓ hℓ => ?_
  subst hℓ
  split_ifs
  · exact safe_throw (.inl rfl)
  · exact safe_revise hq rfl (fun _ => rfl) (fun _ => rfl) fun _ => rfl

lemma proper_checking {p : Service α} (hp : p.All Checking) : p.All Request.Proper := by
  refine hp.mono fun c hc => ?_
  obtain ⟨source, op⟩ := c
  obtain ⟨rfl, hop⟩ := hc
  cases op with
  | now | uuid | findWallet | findMerchant | findActiveQrCode | fetchRates => exact .inl rfl
  | _ => exact hop.elim

/-- The first event of a new transaction comes with it. -/
lemma newTransaction_opens {owner : Principal} {dto : CreateTransactionDto}
    {id publicId settlementId merchantUpiVpa : String} {qrPayloadHash : Option String}
    {quote : Quote} :
    (newTransaction owner dto id publicId settlementId merchantUpiVpa qrPayloadHash quote).Opens :=
  ⟨rfl, rfl, rfl, rfl⟩

lemma proper_create {owner : Principal} {dto : CreateTransactionDto} :
    (create js owner dto).All Request.Proper := by
  refine all_bind ?_ fun _ => all_pure _
  refine all_bind (proper_checking checking_resolvePayee) fun _ => ?_
  refine all_bind (proper_checking checking_createQuote) fun _ => ?_
  refine all_bind (all_perform (.inl rfl)) fun _ => all_bind (all_perform (.inl rfl)) fun _ => ?_
  refine all_bind (all_perform (.inl rfl)) fun _ => ?_
  refine all_bind (all_perform (.inr ⟨_, rfl, newTransaction_opens⟩)) fun _ => ?_
  refine all_bind (all_perform (.inl rfl)) fun _ => all_bind (all_perform (.inl rfl)) fun _ => ?_
  exact all_bind (all_perform (.inl rfl)) fun _ => all_pure _

end Transactions

lemma proper_polling {p : Service α} (hp : p.All Polling) : p.All Request.Proper := by
  refine hp.mono fun c hc => ?_
  obtain ⟨source, op⟩ := c
  obtain ⟨rfl, hop⟩ := hc
  cases op with
  | now | findSentSettlements | checkPayoutStatus | updateSettlement => exact .inl rfl
  | _ => exact hop.elim

end Requests

/-! ### Sessions -/

section Sessions

variable {js : Js} {n : ℕ} {q : Asked} {w w' : Office}

/-- What neither writes to the rows and events nor answers a call. -/
lemma Kept.quiet (h : Kept w) (heffects : w'.effects = w.effects)
    (hentries : ∀ m c r, ⟨.call m c, r⟩ ∈ w'.entries → ⟨.call m c, r⟩ ∈ w.entries)
    (hdistinct : w'.state.Distinct) (hstatus : ∀ id, w'.state.status id = w.state.status id)
    (hevents : w'.state.transactionEvents.Perm w.state.transactionEvents) : Kept w' := by
  refine ⟨hdistinct, fun m source id v hentry => ?_, fun id => ?_⟩
  · have hle := h.looked m source id v (hentries m _ _ hentry)
    have hlength := (hevents.filter (·.transactionId = id)).length_eq
    rw [Backend.eventsOf, hlength]
    exact hle
  · obtain ⟨l, hl⟩ := h.account id
    exact ⟨l, hl.of_eq heffects (hstatus id) hevents⟩

/-- The beginning and the end of a session are such. -/
lemma Kept.still {e : Happening} {r : Except String (Happening.Res e)} (h : Kept w)
    (hhappens : Async.happens Returns Total Request.whole e w r w') (he : ∀ m c, e ≠ .call m c) :
    Kept w' := by
  obtain ⟨hstate, heffects⟩ := happens_still hhappens he
  refine h.quiet heffects (fun m c r' hmem => ?_) ?_ (fun id => ?_) ?_
  · rw [Async.happens_entries hhappens] at hmem
    rcases List.mem_append.mp hmem with hmem | hmem
    · exact hmem
    · cases List.mem_singleton.mp hmem
      exact absurd rfl (he m c)
  · rw [hstate]
    exact h.distinct
  · rw [hstate]
  · rw [hstate]

/-- A session may end when it owes nothing. -/
lemma ends_keeping {a : Except String Unit} {ℓ : Duty} (hn : ℓ.number = some n)
    (hℓ : ∀ w, ℓ.Holds w → (∀ i s, pending n i w ≠ some (.row s)) → ∀ i, pending n i w = none) :
    bookkeeping.Ends Returns Total Request.whole n a ℓ := by
  refine ⟨hn, fun w f r w' hinv hmine hfinish hhappens => ⟨?_, fun i => ?_⟩⟩
  · exact Kept.still hinv.base hhappens fun _ _ heq => by cases heq
  · rw [pending, (happens_still hhappens fun _ _ heq => by cases heq).2]
    exact hℓ w hmine hfinish i

lemma ends_calm {a : Except String Unit} : bookkeeping.Ends Returns Total Request.whole n a (.calm n q) :=
  ends_keeping rfl fun _ h _ => h.2

lemma ends_revised {a : Except String Unit} {id : String} {ℓ : Duty} (hℓ : Revised n q id ℓ) :
    bookkeeping.Ends Returns Total Request.whole n a ℓ := by
  rcases hℓ with rfl | ⟨v, rfl⟩ | rfl
  · exact ends_calm
  · exact ends_keeping rfl fun _ h _ => h.2.1
  · refine ends_keeping rfl fun w h hfinish i => ?_
    obtain ⟨-, -, hrow, hothers⟩ := h
    by_cases hi : i = id
    · rw [hi]
      exact hrow.resolve_right fun ⟨s, hs⟩ => hfinish id s hs
    · exact hothers i hi

/-- A tick that has nothing left to run owes nothing. -/
lemma ends_tick {a : Except String Unit} {ℓ : Duty} (hℓ : ℓ = .fresh n ∨ Processor.OnItsWay n [] ℓ) :
    bookkeeping.Ends Returns Total Request.whole n a ℓ := by
  have hrests : ∀ {w : Office} {i : String}, Rests n (· ∈ ([] : List String)) w i →
      pending n i w = none := fun h => h.resolve_right fun h => by cases h.2.2.2
  rcases hℓ with rfl | rfl | ⟨id, rfl⟩
  · exact ends_keeping rfl fun _ h _ i => (h i).1
  · exact ends_keeping rfl fun _ h _ i => hrests (h i)
  · refine ends_keeping rfl fun w h _ i => ?_
    by_cases hi : i = id
    · rw [hi]
      exact h.1
    · exact hrests (h.2 i hi)

/-- Every session follows the protocol. -/
lemma follows_keeping (q : Asked) :
    bookkeeping.Follows Returns Total Request.whole n q (q.program js) := by
  intro w f r w' hinv hentries heffects _ hhappens
  have hbegin : ∀ m c, (Async.Event.begin n q : Happening) ≠ .call m c := fun _ _ heq => by
    cases heq
  have hkept : Kept w' := Kept.still hinv.base hhappens hbegin
  have hbegun : w'.Begun n q := (Async.begun_happens hhappens).mpr (.inr rfl)
  have hpending : ∀ i, pending n i w' = none := by
    intro i
    have hnil : w.effects.filter (·.session = n) = [] :=
      List.filter_eq_nil_iff.mpr fun e he => by simpa using heffects e he
    rw [pending, (happens_still hhappens hbegin).2, hnil]
    rfl
  have hcalm : ∀ {ℓ : Duty}, ℓ = .calm n q → ∀ {p : Service Unit},
      Safe (keeping n) p ℓ (bookkeeping.Ends Returns Total Request.whole n) →
        ∃ ℓ, bookkeeping.number ℓ = some n ∧ bookkeeping.base w' (ℓ ::ₘ f) ∧
          bookkeeping.mine ℓ w' ∧
            Safe (keeping n) p ℓ (bookkeeping.Ends Returns Total Request.whole n) := by
    rintro ℓ rfl p hp
    exact ⟨.calm n q, rfl, hkept, ⟨hbegun, hpending⟩, hp⟩
  cases q with
  | tick =>
    refine ⟨.fresh n, rfl, hkept, fun i => ⟨hpending i, fun hran => ?_⟩, ?_⟩
    · rcases (ran_happens hhappens).mp hran with ⟨e, he, hruns⟩ | hruns
      · apply hentries e he
        obtain ⟨e, r⟩ := e
        cases e with
        | call m c => exact (of_decide_eq_true hruns).1
        | begin | finish => cases hruns
      · cases hruns
    · refine Processor.safe_tickKeeping.mono fun a ℓ hℓ => ends_tick ?_
      cases a with
      | ok v => exact hℓ
      | error e => exact .inl hℓ
  | poller =>
    exact hcalm rfl (safe_proper (proper_polling Processor.polling_handlePendingSettlements)
      fun _ => ends_calm)
  | create owner dto =>
    exact hcalm rfl (safe_proper Transactions.proper_create fun _ => ends_calm)
  | cancel owner id =>
    have hq : Asked.revises id (.cancel owner id) := rfl
    refine hcalm rfl ((Transactions.safe_cancelKeeping hq).mono fun a ℓ hℓ => ?_)
    have hrevised : Revised n (.cancel owner id) id ℓ := by
      cases a with
      | ok v => exact hℓ
      | error e => exact hℓ
    exact ends_revised hrevised
  | fail owner id dto =>
    have hq : Asked.revises id (.fail owner id dto) := rfl
    refine hcalm rfl ((Transactions.safe_failKeeping hq).mono fun a ℓ hℓ => ?_)
    have hrevised : Revised n (.fail owner id dto) id ℓ := by
      cases a with
      | ok v => exact hℓ
      | error e => exact hℓ
    exact ends_revised hrevised

theorem keeping_governs : Async.Governs (bookkeeping.discipline Returns Total Request.whole)
    (staffing js Request.whole faithful) := by
  refine Protocol.governs bookkeeping_lawful ?_ (fun _ _ h => h) ?_ (fun _ _ _ _ h => h)
    fun _ q => follows_keeping q
  · intro w hempty hentries heffects
    have hstatus : ∀ id, w.state.status id = none := fun id => by
      rw [Backend.status, Backend.transaction, hempty.transactions]
      rfl
    have hpending : ∀ n id, pending n id w = none := fun n id => by
      rw [pending, heffects]
      rfl
    have hhistory : ∀ id, history w id = [] := fun id => by
      rw [history, heffects, hstatus]
      rfl
    refine ⟨?_, fun n source id v hentry => ?_, fun id => ⟨[], ?_⟩⟩
    · rw [Backend.Distinct, hempty.transactions]
      exact List.nodup_nil
    · rw [hentries] at hentry
      cases hentry
    · refine ⟨records_nil hempty.transactionEvents, ?_, fun _ => (hhistory id).symm,
        fun n p hp => ?_⟩
      · rw [hhistory, hstatus]
        rfl
      · rw [hpending] at hp
        cases hp
  · intro w w' f hentries heffects hother hbase
    refine Kept.quiet hbase heffects (fun m c r hmem => ?_) (other_distinct hother hbase.distinct)
      (fun id => ?_) hother.transactionEvents
    · rw [← hentries]
      exact hmem
    · exact other_status hother hbase.distinct

/-- A session that owes something for a transaction is at work on it. -/
lemma inOperation_of_pending {s : OfficeState} {f : Multiset Duty} {id : String}
    (hrel : Multiset.Rel (Async.Safely (bookkeeping.discipline Returns Total Request.whole)) s.threads f)
    (hinv : bookkeeping.Inv s.world f) (hn : pending n id s.world ≠ none) : InOperation id s := by
  obtain ⟨e, he, rfl, -⟩ := exists_touch_of_pending hn
  obtain ⟨q, hq⟩ := hinv.effects e he
  rcases hinv.entered _ q hq with ⟨ℓ, hℓ, hnum⟩ | ⟨a, ha⟩
  · obtain ⟨p, hp, x, hx, hsession, hnext⟩ :=
      Protocol.next_of_ghost bookkeeping_lawful hrel hinv hℓ hnum
    refine ⟨p, hp, x, hx, ?_⟩
    have hmine := (hinv.running ℓ hℓ _ hnum).2.2
    rw [hsession]
    -- a tick that has claimed the transaction and not run it yet
    have hresting : ∀ {P : String → Prop}, Rests e.session P s.world id →
        WorksOn e.session x id s.world := by
      intro P hrests
      obtain ⟨-, hclaimed, hran, -⟩ := hrests.resolve_left hn
      exact .inr (.inl ⟨hclaimed, hran⟩)
    -- a run that owes an event does not end
    have hrunning : (∀ c, bookkeeping.link ℓ c → c.source = .run id) →
        (∀ i s', pending e.session i s.world ≠ some (.row s')) → WorksOn e.session x id s.world := by
      intro hlink hfinish
      rcases hnext with ⟨c, rfl, hc⟩ | ⟨a, rfl, hover⟩
      · exact .inl ⟨c, rfl, hlink c hc⟩
      · exact absurd (hover hfinish id) hn
    have hrow : ∀ {P : String → Prop} {i : String}, (∀ s', pending e.session i s.world ≠ some (.row s')) →
        (∀ j, j ≠ i → Rests e.session P s.world j) →
          ∀ j s', pending e.session j s.world ≠ some (.row s') := by
      intro P i hself hrests j s' heq
      by_cases hj : j = i
      · rw [hj] at heq
        exact hself s' heq
      · rcases hrests j hj with hnone | ⟨hevent, -⟩
        · cases hnone.symm.trans heq
        · cases hevent.symm.trans heq
    cases ℓ with
    | away => cases hnum
    | calm m q =>
      cases hnum
      exact absurd (hmine.2 id) hn
    | looked m q i v =>
      cases hnum
      exact absurd (hmine.2.1 id) hn
    | owesRow m q i s =>
      cases hnum
      obtain ⟨hbegun, hrevises, -, hothers⟩ := hmine
      by_cases hi : id = i
      · subst hi
        exact .inr (.inr ⟨q, hbegun, hrevises⟩)
      · exact absurd (hothers id hi) hn
    | sentRow m q i =>
      cases hnum
      obtain ⟨hbegun, hrevises, -, hothers⟩ := hmine
      by_cases hi : id = i
      · subst hi
        exact .inr (.inr ⟨q, hbegun, hrevises⟩)
      · exact absurd (hothers id hi) hn
    | fresh m =>
      cases hnum
      exact absurd (hmine id).1 hn
    | claimed m =>
      cases hnum
      exact hresting (hmine id)
    | left m ids =>
      cases hnum
      exact hresting (hmine id)
    | running m i ids =>
      cases hnum
      by_cases hi : id = i
      · subst hi
        exact absurd hmine.1 hn
      · exact hresting (hmine.2 id hi)
    | owesEvent m i s ids =>
      cases hnum
      by_cases hi : id = i
      · subst hi
        exact hrunning (fun _ h => h) (hrow (fun _ heq => by cases hmine.1.symm.trans heq) hmine.2)
      · exact hresting (hmine.2 id hi)
    | recording m i s ids v =>
      cases hnum
      by_cases hi : id = i
      · subst hi
        exact hrunning (fun _ h => h) (hrow (fun _ heq => by cases hmine.1.symm.trans heq) hmine.2.1)
      · exact hresting (hmine.2.1 id hi)
    | sentEvent m i ids =>
      cases hnum
      by_cases hi : id = i
      · subst hi
        exact hrunning (fun _ h => h.1) (hrow hmine.2.1 hmine.2.2)
      · exact hresting (hmine.2.2 id hi)
  · exact absurd (hinv.ended _ a ha id) hn

/-- **The event log agrees with the row**, where the writes that belong together are not separated:
whenever nobody is at work on the transaction, its events have the sequences `1` to `n`, they are of
the statuses that the row has had, and the last of these is the row's. -/
theorem log_agrees {s : OfficeState} (h : (office js Request.whole faithful).Reachable s) (id : String)
    (hid : ¬InOperation id s) : s.world.state.Records id (history s.world id) ∧
      (history s.world id).getLast? = s.world.state.status id := by
  obtain ⟨f, hrel, hinv⟩ := Async.reachable_sound keeping_governs h
  have hbase : Kept s.world := hinv.base
  obtain ⟨l, hl⟩ := hbase.account id
  have hnone : ∀ n, pending n id s.world = none := by
    intro n
    by_contra hn
    exact hid (inOperation_of_pending hrel hinv hn)
  rw [← hl.settled hnone]
  refine ⟨hl.records, ?_⟩
  rw [hl.settled hnone]
  exact hl.last

end Sessions

/-! ### The shop -/

/-- The transactions whose status or events the call may write. -/
def Request.touched (c : Request) (b : Backend) : List String :=
  match c.op with
  | .claimTransactions time _ => (b.transactions.filter (Backend.claimable time)).map (·.id)
  | .updateTransaction i _ => [i]
  | .createEvent e => [e.transactionId]
  | .createTransaction t => [t.row.id, t.event.transactionId]
  | _ => []

lemma mem_touched {c : Request} {id : String} {b : Backend} (h : c.touches id b) :
    id ∈ c.touched b := by
  obtain ⟨source, op⟩ := c
  rcases h with hsets | hrecords
  · cases op with
    | claimTransactions time authorizedAt =>
      obtain ⟨t, ht, htime⟩ := hsets
      have hmem : t ∈ b.transactions.filter (Backend.claimable time) :=
        List.mem_filter.mpr ⟨mem_of_transaction ht, htime⟩
      exact List.mem_map.mpr ⟨t, hmem, id_of_transaction ht⟩
    | updateTransaction i data => exact List.mem_singleton.mpr hsets.1.symm
    | _ => exact hsets.elim
  · cases op with
    | createEvent e => exact List.mem_singleton.mpr hrecords.symm
    | createTransaction t =>
      rcases hrecords with hid | hid
      · exact List.mem_cons.mpr (.inl hid.symm)
      · exact List.mem_cons_of_mem _ (List.mem_singleton.mpr hid.symm)
    | _ => exact hrecords.elim

/-- What the session `n` owes, for a transaction that it has touched, is of the kind. -/
def checksPending (n : ℕ) (w : Office) (may : String → Option Pending → Bool) : Bool :=
  w.effects.all fun x => decide (x.session ≠ n) || (x.op.touched x.found).all fun id =>
    may id (pending n id w)

lemma may_of_checksPending {n : ℕ} {w : Office} {may : String → Option Pending → Bool} (id : String)
    (h : checksPending n w may = true) (hnone : may id none = true) : may id (pending n id w) = true := by
  by_cases hne : pending n id w = none
  · rw [hne]
    exact hnone
  · obtain ⟨x, hx, hsession, htouches⟩ := exists_touch_of_pending hne
    have hall := List.all_eq_true.mp h x hx
    rw [Bool.or_eq_true, decide_eq_true_eq, List.all_eq_true] at hall
    exact hall.resolve_left (not_not_intro hsession) id (mem_touched htouches)

def Pending.isRow : Option Pending → Bool
  | some (.row _) => true
  | _ => false

/-- What a run, a request and a tick respect, each for its own calls. -/
def checksFaithful (n : ℕ) (c : Request) (w : Office) (ok : Bool) : Bool :=
  match c with
  | ⟨.run _, .updateTransaction i data⟩ =>
    data.status.all fun s => decide (w.state.status i ≠ some s ∨ pending n i w = some (.event s)) &&
      (decide (pending n i w = none) || ok)
  | ⟨.run _, .maxEventSequence _⟩ => ok
  | ⟨.request, .createEvent e⟩ => decide (w.state.status e.transactionId ≠ some e.status)
  | ⟨_, .findAuthorized since⟩ => ok && decide ((w.state.authorizedSince since).length ≤ 10) &&
      checksPending n w fun id p => decide (p = none) || (w.state.authorizedSince since).any (·.id = id)
  | _ => true

/-- The transaction whose event the session `n` has got an error for. -/
def unansweredBy (n : ℕ) : Async.Entry Asked Request Request.Res String Unit → Option String
  | ⟨.call m ⟨.run id, .createEvent _⟩, .error _⟩ => if m = n then some id else none
  | _ => none

lemma faithful_checkedBy (threads : Multiset InProgress) : faithful.CheckedBy threads fun e w r =>
    Async.unused e w && match e with
      | .call n c => checksFaithful n c w r.isOk && !c.givesUp &&
          (c.logs || w.entries.all fun x => (unansweredBy n x).all fun id =>
            decide (pending n id w = none)) &&
          (c.touched w.state).all fun id => w.effects.all fun x =>
            decide (x.session = n ∨ pending x.session id w = none)
      | .finish n _ => checksPending n w fun _ p => !Pending.isRow p
      | .begin _ _ => true := by
  intro e w r h
  rw [Bool.and_eq_true] at h
  refine ⟨h.1, ?_⟩
  cases e with
  | begin => trivial
  | finish n a =>
    intro id s heq
    have hrow := may_of_checksPending id h.2 rfl
    rw [heq] at hrow
    cases hrow
  | call n c =>
    obtain ⟨-, hcheck⟩ := h
    simp only [Bool.and_eq_true, Bool.or_eq_true, Bool.not_eq_true', List.all_eq_true,
      decide_eq_true_eq] at hcheck
    obtain ⟨⟨⟨hown, hgives⟩, hgoesOn⟩, halone⟩ := hcheck
    have hwrite : ∀ id s, c.source = .run id → c.writes id s →
        (w.state.status id ≠ some s ∨ pending n id w = some (.event s)) ∧
          (pending n id w = none ∨ r.isOk) := by
      intro id s hsource hwrites
      obtain ⟨source, op⟩ := c
      obtain rfl : source = .run id := hsource
      cases op with
      | updateTransaction i data =>
        obtain ⟨rfl, hdata⟩ := of_decide_eq_true hwrites
        simpa [checksFaithful, hdata] using hown
      | _ => cases hwrites
    refine ⟨fun id hc m hm => ?_, fun id s hs hw => (hwrite id s hs hw).1, fun e he => ?_,
      fun id s hs hw => (hwrite id s hs hw).2, fun i id hc => ?_, fun hc id hsent => ?_, ?_,
      fun since hop => ?_⟩
    · by_contra hne
      obtain ⟨x, hx, rfl, -⟩ := exists_touch_of_pending hne
      exact hne ((halone id (mem_touched hc) x hx).resolve_left hm)
    · subst he
      exact of_decide_eq_true hown
    · subst hc
      exact hown
    · obtain ⟨e, m, hentry⟩ := hsent
      rcases hgoesOn with hlogs | hall
      · rw [hc] at hlogs
        cases hlogs
      · have hid := hall _ hentry
        rw [unansweredBy, if_pos rfl] at hid
        exact of_decide_eq_true hid
    · rw [hgives]
      exact Bool.false_ne_true
    · obtain ⟨source, op⟩ := c
      obtain rfl : op = .findAuthorized since := hop
      have hfetch : (r.isOk && decide ((w.state.authorizedSince since).length ≤ 10) &&
          checksPending n w fun id p => decide (p = none) ||
            (w.state.authorizedSince since).any (·.id = id)) = true := by
        cases source <;> exact hown
      rw [Bool.and_eq_true, Bool.and_eq_true, decide_eq_true_eq] at hfetch
      obtain ⟨⟨hok, hlen⟩, hall⟩ := hfetch
      refine ⟨hok, hlen, fun id hne => ?_⟩
      have hfound := may_of_checksPending id hall rfl
      rw [Bool.or_eq_true, decide_eq_true_eq] at hfound
      simpa using hfound.resolve_left hne

namespace OneOrder

/-- Stellar refuses the payment. -/
def refusesPayment (c : Request) : Bool :=
  match c.op with
  | .submitPayment _ => true
  | _ => false

/-- A tick runs the order to its end. -/
def refusedTick : InProgress × Office :=
  (Async.session 1 .tick (Asked.tick.program js)).runFor
    (Async.journalled (respondTo oracle refusesPayment)) 100 orderedOffice.2

end OneOrder

lemma not_inOperation {s : OfficeState} (h : ∀ p ∈ s.threads, p.next = none) (id : String) :
    ¬InOperation id s := by
  rintro ⟨p, hp, e, he, -⟩
  rw [h p hp] at he
  cases he

/-- In the shop a tick runs the order, and the run fails when the payment is refused. -/
theorem log_agrees_of_order : ∃ s, (office OneOrder.js Request.whole faithful).Reachable s ∧
    s.world.state.status OneOrder.orderId = some .FAILED ∧
    history s.world OneOrder.orderId =
      [.CREATED, .AUTHORIZED, .QUOTED, .CONVERTING, .ROUTING_STELLAR, .FAILED] ∧
    s.world.state.Records OneOrder.orderId (history s.world OneOrder.orderId) := by
  have hordered : (office OneOrder.js Request.whole faithful).Reachable
      ⟨OneOrder.orderedOffice.2, OneOrder.orderedOffice.1 ::ₘ 0⟩ :=
    OneOrder.attended_reachable OneOrder.openedOffice_reachable (faithful_checkedBy 0) (by decide +kernel)
  have hpayment : ∀ c, OneOrder.refusesPayment c → ¬Total c := by
    rintro ⟨source, op⟩ hc (heq | heq | ⟨ms, heq⟩) <;> (subst heq; cases hc)
  have htick : (office OneOrder.js Request.whole faithful).Reachable
      ⟨OneOrder.refusedTick.2, OneOrder.refusedTick.1 ::ₘ OneOrder.orderedOffice.1 ::ₘ 0⟩ :=
    playOn hpayment (faithful_checkedBy _) (by decide +kernel) (sessionBegins 1 .tick hordered)
  refine ⟨_, htick, by decide +kernel, by decide +kernel, ?_⟩
  refine (log_agrees htick OneOrder.orderId (not_inOperation (fun p hp => ?_) _)).1
  simp only [Multiset.mem_cons, Multiset.notMem_zero, or_false] at hp
  rcases hp with rfl | rfl
  · decide +kernel
  · decide +kernel

/-- Seven seconds pass between the claim and the fetch: the tick finds nothing and finishes, the row
has been claimed, and there is no event of it. -/
theorem claim_unrecorded : ∃ s, (office OneOrder.js Request.whole anyHappening).Reachable s ∧
    ¬InOperation OneOrder.orderId s ∧
    s.world.state.status OneOrder.orderId = some .AUTHORIZED ∧
    s.world.state.Records OneOrder.orderId [.CREATED] ∧
    ¬(s.world.state.Records OneOrder.orderId (history s.world OneOrder.orderId) ∧
      (history s.world OneOrder.orderId).getLast? = s.world.state.status OneOrder.orderId) := by
  have hordered : (office OneOrder.js Request.whole anyHappening).Reachable
      ⟨OneOrder.orderedOffice.2, OneOrder.orderedOffice.1 ::ₘ 0⟩ :=
    OneOrder.attended_reachable OneOrder.openedOffice_reachable (anyHappening_checkedBy 0)
      (by decide +kernel)
  have hclaiming : (office OneOrder.js Request.whole anyHappening).Reachable
      ⟨OneOrder.claimingTick.2, OneOrder.claimingTick.1 ::ₘ OneOrder.orderedOffice.1 ::ₘ 0⟩ :=
    OneOrder.attended_reachable hordered (anyHappening_checkedBy _) (by decide +kernel)
  have hlater : (office OneOrder.js Request.whole anyHappening).Reachable
      ⟨OneOrder.sevenSecondsLater, OneOrder.claimingTick.1 ::ₘ OneOrder.orderedOffice.1 ::ₘ 0⟩ := by
    apply Async.reachable_world hclaiming
    exact ⟨rfl, rfl, .refl _, .refl _, .refl _, rfl, List.Subset.refl _, Nat.zero_le _,
      fun id s hs => ⟨s, hs, .inl rfl⟩⟩
  have hlate : (office OneOrder.js Request.whole anyHappening).Reachable
      ⟨OneOrder.lateTick.2, OneOrder.lateTick.1 ::ₘ OneOrder.orderedOffice.1 ::ₘ 0⟩ :=
    playOn (fun _ h => absurd h Bool.false_ne_true) (anyHappening_checkedBy _) (by decide +kernel)
      hlater
  refine ⟨_, hlate, not_inOperation (fun p hp => ?_) _, by decide +kernel, by decide +kernel, ?_⟩
  · simp only [Multiset.mem_cons, Multiset.notMem_zero, or_false] at hp
    rcases hp with rfl | rfl
    · decide +kernel
    · decide +kernel
  · decide +kernel

end PayEra.Api
