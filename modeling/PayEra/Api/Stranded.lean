import PayEra.Lib.Protocol
import PayEra.Api.Exclusive

/-!
# What a tick leaves behind

A tick claims every row that it may, but it fetches at most ten rows, those claimed in the last six
seconds, and it stops at the first row whose run throws. If it finds all that it has claimed among
ten rows, and can write the last failure of each, nothing that it has claimed stays behind.

The ghost state of a tick says how far it is: it has claimed nothing yet, it has claimed, or it has
so much left to run.
-/

namespace PayEra.Api

open Async (Program Event Safe Protocol upon safe_pure safe_bind safe_attempt)
open Async.Program

/-! ### What a tick has claimed, listed and run -/

/-- The session `n` was given an answer to its fetch. -/
def lists (n : ℕ) : Async.Entry Asked Request Request.Res String Unit → Bool
  | ⟨.call m ⟨_, .findAuthorized _⟩, .ok _⟩ => decide (m = n)
  | _ => false

def Listed (n : ℕ) (w : Office) : Prop := ∃ e ∈ w.entries, lists n e

instance (n : ℕ) (w : Office) : Decidable (Listed n w) :=
  inferInstanceAs (Decidable (∃ e ∈ w.entries, _))

/-- The session `n` is in progress. -/
def Working (n : ℕ) (s : OfficeState) : Prop := ∃ p ∈ s.threads, ∃ e, p.next = some e ∧ e.session = n

/-- What the session `n` has claimed is on its list once it has one, and is handed over by it, unless
the session is still to do so. -/
structure Unstranded (n : ℕ) (id : String) (s : OfficeState) : Prop where
  listed : Claimed n id s.world → Listed n s.world → Fetched n id s.world
  handed : Claimed n id s.world → Ran n id s.world ∨ Working n s

/-- The write after the last attempt. -/
def Request.givesUp (c : Request) : Bool :=
  match c.op with
  | .updateTransaction _ data => data.failureCode = some "MAX_RETRIES_EXCEEDED"
  | _ => false

/-- A claim that throws has claimed nothing. -/
def Request.claims (c : Request) : Prop := ∃ time at', c.op = .claimTransactions time at'

/-- Whenever a tick fetches, the fetch succeeds, everything that the tick has claimed is still
`AUTHORIZED` since less than six seconds, and there are at most ten such rows; and no run fails to
write that it gives up. -/
def prompt : OfficeCondition := fun _ e w r => match e with
  | .call n ⟨_, .findAuthorized since⟩ => r.isOk ∧ (w.state.authorizedSince since).length ≤ 10 ∧
      ∀ id, Claimed n id w → ∃ t ∈ w.state.authorizedSince since, t.id = id
  | .call _ c => c.givesUp → r.isOk
  | _ => True

/-! ### The protocol -/

inductive Round where
  | away
  | fresh (n : ℕ)
  | holding (n : ℕ)
  | left (n : ℕ) (ids : List String)

def Round.number : Round → Option ℕ
  | .away => none
  | .fresh n | .holding n | .left n _ => some n

def rounds : Protocol Backend Asked Request Request.Res String Unit Round where
  number := Round.number
  idle := .away
  allowed e w r := prompt 0 e w r
  link _ _ := True
  base _ _ := True
  mine ℓ w := match ℓ with
    | .away => True
    | .fresh n => (∀ id, ¬Claimed n id w) ∧ ¬Listed n w
    | .holding n => ¬Listed n w
    | .left n ids => ∀ id, Claimed n id w → Fetched n id w ∧ (Ran n id w ∨ id ∈ ids)
  ended n _ w := ∀ id, Claimed n id w → Ran n id w ∧ (Listed n w → Fetched n id w)

section Agrees

variable {n : ℕ} {id : String} {w w' : Office}

lemma claimed_agrees (h : w.Agrees n w') : Claimed n id w' ↔ Claimed n id w := by
  apply h.exists_effect
  intro e he
  obtain ⟨m, ⟨source, op⟩, b⟩ := e
  cases op with
  | claimTransactions time authorizedAt =>
    rw [claims, Bool.and_eq_true] at he
    exact of_decide_eq_true he.1
  | _ => cases he

lemma fetched_agrees (h : w.Agrees n w') : Fetched n id w' ↔ Fetched n id w := by
  apply h.exists_entry
  intro e he
  obtain ⟨e, r⟩ := e
  cases e with
  | call m c =>
    obtain ⟨source, op⟩ := c
    cases op with
    | findAuthorized since =>
      cases r with
      | ok rows =>
        rw [fetches, Bool.and_eq_true] at he
        exact of_decide_eq_true he.1
      | error e => cases he
    | _ => cases he
  | begin | finish => cases he

lemma listed_agrees (h : w.Agrees n w') : Listed n w' ↔ Listed n w := by
  apply h.exists_entry
  intro e he
  obtain ⟨e, r⟩ := e
  cases e with
  | call m c =>
    obtain ⟨source, op⟩ := c
    cases op with
    | findAuthorized since =>
      cases r with
      | ok rows => exact of_decide_eq_true he
      | error e => cases he
    | _ => cases he
  | begin | finish => cases he

lemma ran_agrees (h : w.Agrees n w') : Ran n id w' ↔ Ran n id w := by
  apply h.exists_entry
  intro e he
  obtain ⟨e, r⟩ := e
  cases e with
  | call m c => exact (of_decide_eq_true he).1
  | begin | finish => cases he

end Agrees

lemma rounds_lawful : rounds.Lawful where
  idle := rfl
  mine n ℓ w w' hn h hmine := by
    cases ℓ with
    | away => cases hn
    | fresh m =>
      cases hn
      simp only [rounds, claimed_agrees h, listed_agrees h]
      exact hmine
    | holding m =>
      cases hn
      simp only [rounds, listed_agrees h]
      exact hmine
    | left m ids =>
      cases hn
      simp only [rounds, claimed_agrees h, fetched_agrees h, ran_agrees h]
      exact hmine
  ended n a w w' h hover := by
    simp only [rounds, claimed_agrees h, fetched_agrees h, ran_agrees h, listed_agrees h]
    exact hover

/-! ### Calls of a tick -/

section Calls

variable {lossless : Request → Prop} {n : ℕ} {c : Request} {w w' : Office} {r : Except String c.Res}
  {id : String}

lemma listed_happens {e : Happening} {r : Except String (Happening.Res e)}
    (h : Async.happens Returns Total lossless e w r w') :
    Listed n w' ↔ Listed n w ∨ lists n ⟨e, r⟩ := by
  simp only [Listed, Async.happens_entries h, List.mem_append, List.mem_singleton, or_and_right,
    exists_or, exists_eq_left]

/-- A call that claims nothing. -/
lemma claimed_of_not_claims (h : Async.happens Returns Total lossless (.call n c) w r w')
    (hc : ¬c.claims) {m : ℕ} : Claimed m id w' ↔ Claimed m id w := by
  constructor
  · intro hid
    rcases claimed_happens h hid with hid | ⟨d, time, at', heq, hop, -⟩
    · exact hid
    · cases heq
      exact absurd ⟨time, at', hop⟩ hc
  · exact claimed_mono h

/-- A call that fetches nothing. -/
lemma listed_of_not_fetch (h : Async.happens Returns Total lossless (.call n c) w r w')
    (hc : ∀ since, c.op ≠ .findAuthorized since) {m : ℕ} : Listed m w' ↔ Listed m w := by
  rw [listed_happens h]
  apply or_iff_left
  obtain ⟨source, op⟩ := c
  cases op with
  | findAuthorized since => exact absurd rfl (hc since)
  | _ => exact Bool.false_ne_true

/-- A claim of no rows. -/
lemma not_claimed_of_zero {source : Source} {time at' : ℕ}
    {r : Except String (Request.Res ⟨source, .claimTransactions time at'⟩)}
    (h : Async.happens Returns Total lossless (.call n ⟨source, .claimTransactions time at'⟩) w r w')
    (hr : r = .ok (0 : ℕ)) (hid : Claimed n id w') : Claimed n id w := by
  subst hr
  rcases claimed_happens h hid with hid | ⟨c, time', at'', heq, hop, hany, -⟩
  · exact hid
  · cases heq
    cases hop
    obtain ⟨t, ht, htime⟩ := (Option.any_eq_true _ _).mp hany
    obtain ⟨o, hans⟩ := h.2.1
    have hcount : w.state.transactions.countP (Backend.claimable time) = 0 := by
      simp only [Backend.answer, Option.some.injEq, Prod.mk.injEq] at hans
      exact hans.1
    exact absurd htime (List.countP_eq_zero.mp hcount t (mem_of_transaction ht))

/-- A prompt fetch returns everything that was claimed. -/
lemma fetched_of_prompt {source : Source} {since : ℕ}
    {r : Except String (Request.Res ⟨source, .findAuthorized since⟩)}
    (h : Async.happens Returns Total lossless (.call n ⟨source, .findAuthorized since⟩) w r w')
    (hprompt : prompt 0 (.call n ⟨source, .findAuthorized since⟩) w r) :
    ∃ rows : List Transaction, r = .ok rows ∧
      ∀ id, Claimed n id w' → Fetched n id w' ∧ id ∈ rows.map (·.id) := by
  obtain ⟨hok, hlen, hclaimed⟩ := hprompt
  cases r with
  | error e => cases hok
  | ok rows =>
    refine ⟨rows, rfl, fun id hid => ?_⟩
    have hrows : rows = w.state.authorizedSince since := by
      rw [(fetched_rows h.2.1).2]
      exact List.take_of_length_le hlen
    have hid' : Claimed n id w :=
      (claimed_of_not_claims h fun ⟨_, _, heq⟩ => by cases heq).mp hid
    obtain ⟨t, ht, rfl⟩ := hclaimed id hid'
    rw [← hrows] at ht
    refine ⟨(fetched_happens h).mpr (.inr ?_), List.mem_map_of_mem ht⟩
    rw [fetches, Bool.and_eq_true]
    exact ⟨decide_eq_true rfl, List.any_eq_true.mpr ⟨t, ht, decide_eq_true rfl⟩⟩

end Calls

/-! ### Safe programs -/

section Programs

variable {α : Type} {js : Js} {lossless : Request → Prop} {n : ℕ} {p : Service α}

/-- A call that neither claims nor fetches. -/
def Request.Aside (c : Request) : Prop := ¬c.claims ∧ ∀ since, c.op ≠ .findAuthorized since

lemma safe_fresh (hp : p.All Request.Aside) {R : Except String α → Round → Prop}
    (hR : ∀ r, R r (.fresh n)) :
    Safe ((rounds.discipline Returns Total lossless).at n) p (.fresh n) R := by
  apply Protocol.safe_all rounds_lawful hp hR rfl
  intro c hc
  refine ⟨trivial, fun w f r w' _ hmine _ hhappens => ⟨trivial, ?_⟩⟩
  simp only [rounds, claimed_of_not_claims hhappens hc.1, listed_of_not_fetch hhappens hc.2]
  exact hmine

lemma aside_of {source : Source} {P : Op → Prop} (hp : p.All (Request.By source P))
    (hclaim : ∀ time at', ¬P (.claimTransactions time at'))
    (hfetch : ∀ since, ¬P (.findAuthorized since)) : p.All Request.Aside := by
  refine hp.mono fun c hc => ⟨?_, fun since heq => ?_⟩
  · rintro ⟨time, at', heq⟩
    exact hclaim time at' (heq ▸ hc.2)
  · exact hfetch since (heq ▸ hc.2)

namespace Processor

variable {tx : Transaction} {ids : List String}

/-- A run throws only if its last write does. -/
lemma resilient_retryFrom {remaining : ℕ} : (retryFrom js tx remaining).Resilient
    (fun c => ¬c.givesUp ∧ ¬Total c) False := by
  induction remaining with
  | zero =>
    refine resilient_bind (resilient_attempt (resilient_any _)) fun r => ?_
    cases r with
    | ok v => exact resilient_pure _
    | error message =>
      refine resilient_bind (resilient_perform fun hgives => ?_) fun _ => resilient_pure _
      exact hgives.1 (by simp [Request.givesUp])
  | succ remaining ih =>
    refine resilient_bind (resilient_attempt (resilient_any _)) fun r => ?_
    cases r with
    | ok v => exact resilient_pure _
    | error message =>
      refine resilient_bind (resilient_perform fun hsleep => ?_) fun _ => ih
      exact hsleep.2 (.inr (.inr ⟨_, rfl⟩))

/-- A run begins with a call. -/
lemma retryFrom_await {remaining : ℕ} :
    ∃ c k, retryFrom js tx remaining = Program.await c k := by
  cases remaining with
  | zero => exact ⟨_, _, rfl⟩
  | succ remaining => exact ⟨_, _, rfl⟩

/-- Calls of a run keep what is left. -/
lemma left_happens {c : Request} {w w' : Office} {r : Except String c.Res}
    (hc : Running tx.id c) (hmine : rounds.mine (.left n ids) w)
    (hhappens : Async.happens Returns Total lossless (.call n c) w r w') :
    rounds.mine (.left n ids) w' := by
  have hclaims : ¬c.claims := by
    rintro ⟨time, at', heq⟩
    have hop := hc.2
    rw [heq] at hop
    exact hop
  intro id hid
  obtain ⟨hfetched, hran⟩ := hmine id ((claimed_of_not_claims hhappens hclaims).mp hid)
  exact ⟨(fetched_happens hhappens).mpr (.inl hfetched),
    hran.imp_left fun hran => (ran_happens hhappens).mpr (.inl hran)⟩

/-- Which calls of a run may fail. -/
lemma fails_prompt {c : Request} {w w' : Office} {r : Except String c.Res}
    (hc : Running tx.id c) (hprompt : prompt 0 (.call n c) w r)
    (hhappens : Async.happens Returns Total lossless (.call n c) w r w') (e : String)
    (hr : r = .error e) : ¬c.givesUp ∧ ¬Total c := by
  subst hr
  refine ⟨fun hgives => ?_, hhappens.2.1⟩
  obtain ⟨source, op⟩ := c
  cases op with
  | updateTransaction i data => cases hprompt hgives
  | _ => cases hgives

/-- Running a transaction crosses it off. -/
lemma safe_runRound {remaining : ℕ} :
    Safe ((rounds.discipline Returns Total lossless).at n) (retryFrom js tx remaining)
      (.left n (tx.id :: ids)) (upon (fun _ ℓ => ℓ = .left n ids) fun _ => False) := by
  have hp : (retryFrom js tx remaining).All (Running tx.id) := running_retryFrom
  have hres : (retryFrom js tx remaining).Resilient _ False := resilient_retryFrom
  have hawait : ∃ c k, retryFrom js tx remaining = Program.await c k := retryFrom_await
  obtain ⟨c, k, heq⟩ := hawait
  rw [heq] at hp hres ⊢
  obtain ⟨hc, hk⟩ := hp
  refine ⟨⟨rfl, trivial⟩, ?_⟩
  intro w f r w' hinv hprompt (hhappens : Async.happens Returns Total lossless (.call n c) w r w')
  have hmine := (hinv.running _ (Multiset.mem_cons_self ..) n rfl).2.2
  have hmine' := left_happens hc hmine hhappens
  refine ⟨.left n ids, hinv.call rounds_lawful rfl hhappens rfl trivial fun id hid => ?_, ?_⟩
  · obtain ⟨hfetched, hran⟩ := hmine' id hid
    refine ⟨hfetched, ?_⟩
    rcases hran with hran | hmem
    · exact .inl hran
    · rcases List.mem_cons.mp hmem with rfl | hmem
      · have hruns : runs n tx.id (.call n c) := decide_eq_true ⟨rfl, hc.1⟩
        exact .inl ((ran_happens hhappens).mpr (.inr hruns))
      · exact .inr hmem
  · have hkr : (k r).Resilient (fun c => ¬c.givesUp ∧ ¬Total c) False := by
      cases r with
      | ok v => exact hres.1 v
      | error e => exact hres.2 (fails_prompt hc hprompt hhappens e rfl) e
    apply Protocol.safe_resilient rounds_lawful (hk r) hkr (fun _ => rfl) (fun h => h.elim) rfl
    intro d hd
    refine ⟨trivial, fun w f r w' _ hmine hprompt hhappens => ⟨trivial, ?_, ?_⟩⟩
    · exact left_happens hd hmine hhappens
    · exact fails_prompt hd hprompt hhappens

/-- The loop of a tick. -/
lemma safe_loopRounds (rows : List Transaction) :
    Safe ((rounds.discipline Returns Total lossless).at n)
      (rows.forM (processTransactionWithRetry js)) (.left n (rows.map (·.id)))
      (upon (fun _ ℓ => ℓ = .left n []) fun _ => False) := by
  induction rows with
  | nil => rfl
  | cons tx rows ih =>
    refine safe_bind safe_runRound fun _ ℓ hℓ => ?_
    rw [hℓ]
    exact ih

/-- A claim that changes a row makes the session hold it. -/
lemma safe_claimRounds {now₁ now₂ : ℕ} : Safe ((rounds.discipline Returns Total Request.claims).at n)
    (call .tick (.claimTransactions now₁ now₂)) (.fresh n)
    (upon (fun claimed ℓ => ((claimed : ℕ) = 0 → ℓ = .fresh n) ∧ (claimed ≠ 0 → ℓ = .holding n))
      fun ℓ => ℓ = .fresh n) := by
  apply Protocol.safe_call rounds_lawful rfl trivial
  intro w f r w' _ hmine _ hhappens
  have hlisted : ¬Listed n w' := by
    rw [listed_of_not_fetch hhappens fun _ heq => by cases heq]
    exact hmine.2
  cases r with
  | error e =>
    refine ⟨.fresh n, rfl, trivial, ⟨fun id hid => ?_, hlisted⟩, rfl⟩
    rcases hhappens.2.2 with ⟨-, heffects⟩ | ⟨hlost, -⟩
    · rw [Claimed, heffects] at hid
      exact hmine.1 id hid
    · exact hlost ⟨_, _, rfl⟩
  | ok claimed =>
    by_cases hzero : (claimed : ℕ) = 0
    · refine ⟨.fresh n, rfl, trivial, ⟨fun id hid => ?_, hlisted⟩, fun _ => rfl,
        fun h => absurd hzero h⟩
      exact hmine.1 id (not_claimed_of_zero hhappens (congrArg Except.ok hzero) hid)
    · exact ⟨.holding n, rfl, trivial, hlisted, fun h => absurd h hzero, fun _ => rfl⟩

lemma safe_clockRounds : Safe ((rounds.discipline Returns Total Request.claims).at n) (now .tick)
    (.holding n) (upon (fun _ ℓ => ℓ = .holding n) fun ℓ => ℓ = .fresh n) := by
  apply Protocol.safe_call rounds_lawful rfl trivial
  intro w f r w' _ hmine _ hhappens
  cases r with
  | error e => exact absurd (.inl rfl) hhappens.2.1
  | ok v =>
    have hlisted : ¬Listed n w' := by
      rw [listed_of_not_fetch hhappens fun _ heq => by cases heq]
      exact hmine
    exact ⟨.holding n, rfl, trivial, hlisted, rfl⟩

/-- The list has what the session holds. -/
lemma safe_fetchRounds {since : ℕ} : Safe ((rounds.discipline Returns Total Request.claims).at n)
    (call .tick (.findAuthorized since)) (.holding n)
    (upon (fun rows ℓ => ℓ = .left n (List.map Transaction.id rows)) fun ℓ => ℓ = .fresh n) := by
  apply Protocol.safe_call rounds_lawful rfl trivial
  intro w f r w' _ _ hprompt hhappens
  obtain ⟨rows, rfl, hrows⟩ := fetched_of_prompt hhappens hprompt
  exact ⟨.left n (List.map Transaction.id rows), rfl, trivial,
    fun id hid => ⟨(hrows id hid).1, .inr (hrows id hid).2⟩, rfl⟩

lemma safe_tickRounds : Safe ((rounds.discipline Returns Total Request.claims).at n)
    (handlePendingTransactions js) (.fresh n)
    (upon (fun _ ℓ => ℓ = .fresh n ∨ ℓ = .left n []) fun ℓ => ℓ = .fresh n) := by
  have hnow : Safe ((rounds.discipline Returns Total Request.claims).at n) (now .tick) (.fresh n)
      (upon (fun _ ℓ => ℓ = .fresh n) fun ℓ => ℓ = .fresh n) := by
    apply safe_fresh
    · have hop : Request.Aside ⟨.tick, .now⟩ :=
        ⟨fun ⟨_, _, heq⟩ => (by cases heq), fun _ heq => by cases heq⟩
      exact all_perform hop
    · intro r
      cases r with
      | ok v => rfl
      | error e => rfl
  refine safe_bind hnow fun now₁ ℓ hℓ => ?_
  obtain rfl := hℓ
  refine safe_bind hnow fun now₂ ℓ hℓ => ?_
  obtain rfl := hℓ
  refine safe_bind safe_claimRounds fun claimed ℓ hℓ => ?_
  by_cases hzero : claimed = 0
  · rw [if_pos hzero]
    exact .inl (hℓ.1 hzero)
  · rw [if_neg hzero]
    obtain rfl := hℓ.2 hzero
    refine safe_bind safe_clockRounds fun now₃ ℓ hℓ => ?_
    obtain rfl := hℓ
    refine safe_bind safe_fetchRounds fun rows ℓ hℓ => ?_
    obtain rfl := hℓ
    exact (safe_loopRounds rows).weaken (fun _ _ h => .inr h) fun _ h => h.elim

end Processor

/-- What is said when a session finishes. -/
lemma ends_rounds {a : Except String Unit} {ℓ : Round} (hℓ : ℓ = .fresh n ∨ ℓ = .left n []) :
    rounds.Ends Returns Total lossless n a ℓ := by
  have hclaimed : ∀ {w w' : Office} {r : Except String Unit} {id : String},
      Async.happens Returns Total lossless (.finish n a) w r w' → Claimed n id w' →
        Claimed n id w := by
    intro w w' r id hhappens hid
    rcases claimed_happens hhappens hid with hid | ⟨c, _, _, heq, -⟩
    · exact hid
    · cases heq
  rcases hℓ with rfl | rfl
  · refine ⟨rfl, fun w f r w' _ hmine _ hhappens => ⟨trivial, fun id hid => ?_⟩⟩
    exact absurd (hclaimed hhappens hid) (hmine.1 id)
  · refine ⟨rfl, fun w f r w' _ hmine _ hhappens => ⟨trivial, fun id hid => ?_⟩⟩
    obtain ⟨hfetched, hran⟩ := hmine id (hclaimed hhappens hid)
    rcases hran with hran | hmem
    · exact ⟨(ran_happens hhappens).mpr (.inl hran),
        fun _ => (fetched_happens hhappens).mpr (.inl hfetched)⟩
    · cases hmem

/-- Every session follows the protocol. -/
lemma follows_rounds (q : Asked) :
    rounds.Follows Returns Total Request.claims n q (q.program js) := by
  intro w f r w' _ hentries heffects _ hhappens
  have hclaimed : ∀ id, ¬Claimed n id w' := by
    intro id hid
    rcases claimed_happens hhappens hid with ⟨e, he, hclaims⟩ | ⟨c, _, _, heq, -⟩
    · apply heffects e he
      obtain ⟨m, ⟨source, op⟩, b⟩ := e
      cases op with
      | claimTransactions time authorizedAt =>
        rw [claims, Bool.and_eq_true] at hclaims
        exact of_decide_eq_true hclaims.1
      | _ => cases hclaims
    · cases heq
  have hlisted : ¬Listed n w' := by
    rw [listed_happens hhappens]
    rintro (⟨⟨e, r⟩, he, hlists⟩ | hlists)
    · apply hentries _ he
      cases e with
      | call m c =>
        obtain ⟨source, op⟩ := c
        cases op with
        | findAuthorized since =>
          cases r with
          | ok rows => exact of_decide_eq_true hlists
          | error e => cases hlists
        | _ => cases hlists
      | begin | finish => cases hlists
    · cases hlists
  refine ⟨.fresh n, rfl, trivial, ⟨hclaimed, hlisted⟩, ?_⟩
  have haside : ∀ {p : Service Unit}, p.All Request.Aside →
      Safe ((rounds.discipline Returns Total Request.claims).at n) p (.fresh n)
        (rounds.Ends Returns Total Request.claims n) :=
    fun hp => safe_fresh hp fun _ => ends_rounds (.inl rfl)
  have hrequest : ∀ {p : Service Unit}, p.All Requested → p.All Request.Aside :=
    fun hp => aside_of hp (fun _ _ h => h) fun _ h => h
  cases q with
  | tick =>
    refine Processor.safe_tickRounds.mono fun a ℓ hℓ => ends_rounds ?_
    cases a with
    | ok v => exact hℓ
    | error e => exact .inl hℓ
  | poller =>
    exact haside (aside_of Processor.polling_handlePendingSettlements (fun _ _ h => h) fun _ h => h)
  | create owner dto => exact haside (hrequest Transactions.requested_create)
  | cancel owner id => exact haside (hrequest Transactions.requested_cancel)
  | fail owner id dto => exact haside (hrequest Transactions.requested_fail)

end Programs

/-! ### The office -/

section Office

variable {js : Js}

theorem rounds_governs : Async.Governs (rounds.discipline Returns Total Request.claims)
    (staffing js Request.claims prompt) :=
  Protocol.governs rounds_lawful (fun _ _ _ _ => trivial) (fun _ _ _ => trivial)
    (fun _ _ _ _ _ _ _ => trivial) (fun _ _ _ _ h => h) fun _ q => follows_rounds q

/-- The journal's own account of a session that has claimed. -/
lemma begun_of_claimed {w : Office} {f : Multiset Round} (hinv : rounds.Inv w f) {n : ℕ}
    {id : String} (h : Claimed n id w) : ∃ q, w.Begun n q := by
  obtain ⟨e, he, hclaims⟩ := h
  obtain ⟨m, ⟨source, op⟩, b⟩ := e
  cases op with
  | claimTransactions time authorizedAt =>
    rw [claims, Bool.and_eq_true] at hclaims
    obtain rfl : m = n := of_decide_eq_true hclaims.1
    exact hinv.effects _ he
  | _ => cases hclaims

/-- **No stranded transaction**, where ticks are prompt: what a tick has claimed is on its list, and
is handed over by it. -/
theorem claimed_unstranded {s : OfficeState}
    (h : (office js Request.claims prompt).Reachable s) (n : ℕ) (id : String) :
    Unstranded n id s := by
  obtain ⟨f, -, hinv⟩ := Async.reachable_sound rounds_governs h
  constructor
  · intro hid hlisted
    obtain ⟨q, hq⟩ := begun_of_claimed hinv hid
    rcases hinv.entered n q hq with ⟨ℓ, hℓ, hn⟩ | ⟨a, ha⟩
    · have hmine := (hinv.running ℓ hℓ n hn).2.2
      cases ℓ with
      | away => cases hn
      | fresh m =>
        cases hn
        exact absurd hid (hmine.1 id)
      | holding m =>
        cases hn
        exact absurd hlisted hmine
      | left m ids =>
        cases hn
        exact (hmine id hid).1
    · exact (hinv.ended n a ha id hid).2 hlisted
  · intro hid
    obtain ⟨q, hq⟩ := begun_of_claimed hinv hid
    rcases Protocol.in_progress rounds_lawful rounds_governs h hq with ⟨a, ha⟩ | hworking
    · exact .inl (hinv.ended n a ha id hid).1
    · exact .inr hworking

end Office

/-! ### The shop -/

lemma found_of_claims {n : ℕ} {id : String} {e : Async.Effect Backend Request}
    (h : claims n id e) : ∃ t, e.found.transaction id = some t := by
  obtain ⟨m, ⟨source, op⟩, b⟩ := e
  cases op with
  | claimTransactions time authorizedAt =>
    rw [claims, Bool.and_eq_true] at h
    obtain ⟨t, ht, -⟩ := (Option.any_eq_true _ _).mp h.2
    exact ⟨t, ht⟩
  | _ => cases h

lemma prompt_checkedBy (threads : Multiset InProgress) : prompt.CheckedBy threads fun e w r =>
    Async.unused e w && match e with
      | .call n ⟨_, .findAuthorized since⟩ => r.isOk &&
          decide ((w.state.authorizedSince since).length ≤ 10) &&
          w.effects.all fun x => x.found.transactions.all fun t =>
            decide (claims n t.id x → ∃ t' ∈ w.state.authorizedSince since, t'.id = t.id)
      | .call _ c => !c.givesUp
      | _ => true := by
  intro e w r h
  rw [Bool.and_eq_true] at h
  refine ⟨h.1, ?_⟩
  cases e with
  | begin | finish => trivial
  | call n c =>
    obtain ⟨source, op⟩ := c
    cases op with
    | findAuthorized since =>
      have hcheck := h.2
      simp only [Bool.and_eq_true, decide_eq_true_eq, List.all_eq_true] at hcheck
      obtain ⟨⟨hok, hlen⟩, hall⟩ := hcheck
      refine ⟨hok, hlen, ?_⟩
      rintro id ⟨x, hx, hclaims⟩
      obtain ⟨t, ht⟩ := found_of_claims hclaims
      obtain rfl := id_of_transaction ht
      exact hall x hx t (mem_of_transaction ht) hclaims
    | updateTransaction i data =>
      intro hgives
      simp [hgives] at h
    | _ => exact fun hgives => by cases hgives

namespace OneOrder

/-- A tick claims the order, up to its second reading of the clock. -/
def claimingTick : InProgress × Office := attended 1 .tick 4 orderedOffice.2

/-- Seven seconds pass. -/
def sevenSecondsLater : Office :=
  { claimingTick.2 with state := { claimingTick.2.state with clock := 7000 } }

/-- The tick goes on. -/
def lateTick : InProgress × Office :=
  claimingTick.1.runFor (Async.journalled (respondTo oracle fun _ => false)) 3 sevenSecondsLater

end OneOrder

/-- In the shop a tick claims the order and fetches it at once. -/
theorem claimed_unstranded_of_order : ∃ s, (office OneOrder.js Request.claims prompt).Reachable s ∧
    Claimed 1 OneOrder.orderId s.world ∧ Listed 1 s.world ∧ Unstranded 1 OneOrder.orderId s := by
  have hordered : (office OneOrder.js Request.claims prompt).Reachable
      ⟨OneOrder.orderedOffice.2, OneOrder.orderedOffice.1 ::ₘ 0⟩ :=
    OneOrder.attended_reachable OneOrder.openedOffice_reachable (prompt_checkedBy 0) (by decide +kernel)
  have htick : (office OneOrder.js Request.claims prompt).Reachable
      ⟨OneOrder.firstTick.2, OneOrder.firstTick.1 ::ₘ OneOrder.orderedOffice.1 ::ₘ 0⟩ :=
    OneOrder.attended_reachable hordered (prompt_checkedBy _) (by decide +kernel)
  have hclaimed : Claimed 1 OneOrder.orderId OneOrder.firstTick.2 := by decide +kernel
  have hlisted : Listed 1 OneOrder.firstTick.2 := by decide +kernel
  exact ⟨_, htick, hclaimed, hlisted, claimed_unstranded htick 1 OneOrder.orderId⟩

/-- Seven seconds pass between the claim and the fetch: the tick finds nothing and finishes, and the
order is left `AUTHORIZED` with nothing in progress. -/
theorem claimed_order_stranded : ∃ s,
    (office OneOrder.js Request.claims anyHappening).Reachable s ∧
    Claimed 1 OneOrder.orderId s.world ∧ Listed 1 s.world ∧ ¬Fetched 1 OneOrder.orderId s.world ∧
    s.world.state.status OneOrder.orderId = some .AUTHORIZED ∧
    (∀ n, ¬Ran n OneOrder.orderId s.world) ∧ ∀ p ∈ s.threads, p.next = none := by
  have hordered : (office OneOrder.js Request.claims anyHappening).Reachable
      ⟨OneOrder.orderedOffice.2, OneOrder.orderedOffice.1 ::ₘ 0⟩ :=
    OneOrder.attended_reachable OneOrder.openedOffice_reachable (anyHappening_checkedBy 0)
      (by decide +kernel)
  have hclaiming : (office OneOrder.js Request.claims anyHappening).Reachable
      ⟨OneOrder.claimingTick.2, OneOrder.claimingTick.1 ::ₘ OneOrder.orderedOffice.1 ::ₘ 0⟩ :=
    OneOrder.attended_reachable hordered (anyHappening_checkedBy _) (by decide +kernel)
  have hlater : (office OneOrder.js Request.claims anyHappening).Reachable
      ⟨OneOrder.sevenSecondsLater, OneOrder.claimingTick.1 ::ₘ OneOrder.orderedOffice.1 ::ₘ 0⟩ := by
    apply Async.reachable_world hclaiming
    exact ⟨rfl, rfl, .refl _, .refl _, .refl _, rfl, List.Subset.refl _, Nat.zero_le _,
      fun id s hs => ⟨s, hs, .inl rfl⟩⟩
  have hlate : (office OneOrder.js Request.claims anyHappening).Reachable
      ⟨OneOrder.lateTick.2, OneOrder.lateTick.1 ::ₘ OneOrder.orderedOffice.1 ::ₘ 0⟩ :=
    playOn (fun _ h => absurd h Bool.false_ne_true) (anyHappening_checkedBy _) (by decide +kernel)
      hlater
  have hclaimed : Claimed 1 OneOrder.orderId OneOrder.lateTick.2 := by decide +kernel
  have hlisted : Listed 1 OneOrder.lateTick.2 ∧ ¬Fetched 1 OneOrder.orderId OneOrder.lateTick.2 := by
    decide +kernel
  have hstatus : OneOrder.lateTick.2.state.status OneOrder.orderId = some .AUTHORIZED := by decide +kernel
  have hrun : ∀ e ∈ OneOrder.lateTick.2.entries, ¬runs e.1.session OneOrder.orderId e.1 := by
    decide +kernel
  refine ⟨_, hlate, hclaimed, hlisted.1, hlisted.2, hstatus, ?_, fun p hp => ?_⟩
  · rintro n ⟨⟨e, r⟩, he, hruns⟩
    cases e with
    | call m c => exact hrun _ he (decide_eq_true ⟨rfl, (of_decide_eq_true hruns).2⟩)
    | begin | finish => cases hruns
  · simp only [Multiset.mem_cons, Multiset.notMem_zero, or_false] at hp
    rcases hp with rfl | rfl
    · decide +kernel
    · decide +kernel

end PayEra.Api
