import PayEra.Ramps.Refresh

/-!
# Polling until the provider's verdict

A ramp is refreshed again and again, and each time the provider answers with one of the statuses of
SEP-24. The first answer that `mapStatus` makes terminal is the last one that the ramp takes in. This
is the first final answer, unless the transaction was on hold before: `mapStatus` knows nothing of
`on_hold` and takes it for an error.
-/

namespace PayEra.Ramps

open Transition (System Move)
open MoneyGramProvider RampsService

/-- The statuses of SEP-24. -/
inductive Sep24Status where
  | incomplete
  | pending_user_transfer_start
  | pending_user_transfer_complete
  | pending_external
  | pending_anchor
  | pending_stellar
  | pending_trust
  | pending_user
  | pending_customer_info_update
  | on_hold
  | completed
  | refunded
  | expired
  | error
  | no_market
  | too_small
  | too_large
  deriving DecidableEq, Repr

namespace Sep24Status

/-- The status in a response. -/
def raw : Sep24Status → String
  | incomplete => "incomplete"
  | pending_user_transfer_start => "pending_user_transfer_start"
  | pending_user_transfer_complete => "pending_user_transfer_complete"
  | pending_external => "pending_external"
  | pending_anchor => "pending_anchor"
  | pending_stellar => "pending_stellar"
  | pending_trust => "pending_trust"
  | pending_user => "pending_user"
  | pending_customer_info_update => "pending_customer_info_update"
  | on_hold => "on_hold"
  | completed => "completed"
  | refunded => "refunded"
  | expired => "expired"
  | error => "error"
  | no_market => "no_market"
  | too_small => "too_small"
  | too_large => "too_large"

def isFinal : Sep24Status → Bool
  | completed | refunded | expired | error | no_market | too_small | too_large => true
  | _ => false

/-- The adapter makes the status terminal. -/
def stops (a : Sep24Status) : Bool := isTerminal (mapStatus a.raw)

/-- The adapter stops at the final statuses, and at one that is not final. -/
lemma stops_iff (a : Sep24Status) : a.stops = true ↔ a.isFinal = true ∨ a = on_hold := by
  cases a <;> decide

end Sep24Status

/-- The first final answer. -/
def verdict (answers : List Sep24Status) : Option Sep24Status := answers.find? (·.isFinal)

/-! ### Polling as a system -/

/-- A refresh that returns, and how the provider answered if it was asked. -/
structure Poll where
  answer : Sep24Status
  requests : List Attempted

/-- The ramp `id` is refreshed from time to time, from when it is waiting for the provider. -/
def polling (anchor : Anchor) (id : String) : System Rails Poll where
  Init s := ∃ t, s.ramp id = some t ∧ ¬t.Idle
  Step s poll s' :=
    (∃ status, Ran (refreshStatus anchor id) s poll.requests (.ok status) s') ∧
    ∀ a ∈ poll.requests, ∀ tx, a.reported = some tx → tx.status = poll.answer.raw

def answers (tr : List (Move Rails Poll)) : List Sep24Status := tr.map (·.label.answer)

/-- A poll, after those that had the answers `before`, does what the provider's answers ask for. -/
structure Converges (id : String) (before : List Sep24Status) (m : Move Rails Poll) : Prop where
  pending : verdict (before ++ [m.label.answer]) = none →
    ∃ t, m.post.ramp id = some t ∧ isTerminal t.status = false
  settled : ∀ a, verdict (before ++ [m.label.answer]) = some a →
    ∃ t, m.post.ramp id = some t ∧ t.status = mapStatus a.raw
  noop : (verdict before).isSome →
    m.post.ramps = m.pre.ramps ∧ m.post.events = m.pre.events

/-- A transaction is on hold only once it is final. -/
def NeverHeld (l : List Sep24Status) : Prop :=
  ∀ before after, l = before ++ .on_hold :: after → (verdict before).isSome

section Polling

variable {anchor : Anchor} {id : String} {s s' : Rails} {tr : List (Move Rails Poll)}
  {t : RampTransaction} {a : Sep24Status} {l l' : List Sep24Status}

/-! ### The answer that stops the polling -/

/-- The first answer that the adapter makes terminal. -/
def stopper (l : List Sep24Status) : Option Sep24Status := l.find? (·.stops)

lemma stopper_snoc : stopper (l ++ [a]) = (stopper l).or (if a.stops then some a else none) := by
  rw [stopper, List.find?_append, stopper, List.find?_singleton]

lemma NeverHeld.left (h : NeverHeld (l ++ l')) : NeverHeld l := by
  rintro before after rfl
  exact h before (after ++ l') (List.append_assoc ..)

/-- Without a hold, the polling stops at the verdict. -/
lemma stopper_eq_verdict (h : NeverHeld l) : stopper l = verdict l := by
  induction l with
  | nil => rfl
  | cons a l ih =>
    by_cases hfinal : a.isFinal = true
    · have hstops : a.stops = true := a.stops_iff.mpr (.inl hfinal)
      rw [stopper, verdict, List.find?_cons_of_pos hstops, List.find?_cons_of_pos hfinal]
    · have hheld : a ≠ .on_hold := by
        rintro rfl
        have hnil := h [] l rfl
        cases hnil
      have hstops : ¬a.stops = true := by
        rw [a.stops_iff, not_or]
        exact ⟨hfinal, hheld⟩
      rw [stopper, verdict, List.find?_cons_of_neg hstops, List.find?_cons_of_neg hfinal]
      refine ih ?_
      rintro before after rfl
      have hsome := h (a :: before) after rfl
      rwa [verdict, List.find?_cons_of_neg hfinal] at hsome

/-! ### What the ramp takes in -/

/-- A row that has taken in the answers `l`. -/
structure Tracks (l : List Sep24Status) (t : RampTransaction) : Prop where
  opened : given t.providerTxId ≠ none
  running : stopper l = none → isTerminal t.status = false
  stopped : ∀ a, stopper l = some a → t.status = mapStatus a.raw

lemma Tracks.idle_iff (h : Tracks l t) : t.Idle ↔ (stopper l).isSome := by
  rw [RampTransaction.Idle, or_iff_left h.opened]
  cases hl : stopper l with
  | none => simp [h.running hl]
  | some a =>
    have hstops : a.stops = true := List.find?_some hl
    rw [h.stopped a hl]
    exact iff_of_true hstops rfl

lemma tracks_nil (h : ¬t.Idle) : Tracks [] t := by
  rw [RampTransaction.Idle, not_or] at h
  refine ⟨h.2, fun _ => Bool.eq_false_iff.mpr h.1, fun a ha => ?_⟩
  cases ha

lemma Tracks.stay (h : Tracks l t) (hl : (stopper l).isSome) : Tracks (l ++ [a]) t := by
  obtain ⟨b, hb⟩ := Option.isSome_iff_exists.mp hl
  have hsnoc : stopper (l ++ [a]) = some b := by
    rw [stopper_snoc, hb]
    rfl
  refine ⟨h.opened, fun hnone => ?_, fun c hc => ?_⟩
  · rw [hsnoc] at hnone
    cases hnone
  · rw [hsnoc] at hc
    obtain rfl := Option.some.inj hc
    exact h.stopped b hb

lemma Tracks.take {t' : RampTransaction} {polledAt : ℕ} (h : Tracks l t) (hl : stopper l = none)
    (ht' : Refreshed (mapStatus a.raw) polledAt t t') : Tracks (l ++ [a]) t' := by
  have hsnoc : stopper (l ++ [a]) = if a.stops then some a else none := by
    rw [stopper_snoc, hl]
    rfl
  refine ⟨?_, fun hnone => ?_, fun c hc => ?_⟩
  · rw [ht'.providerTxId]
    exact h.opened
  · rw [hsnoc] at hnone
    split_ifs at hnone with hstops
    rw [ht'.status_eq]
    exact Bool.eq_false_iff.mpr hstops
  · rw [hsnoc] at hc
    split_ifs at hc
    obtain rfl := Option.some.inj hc
    exact ht'.status_eq

/-- A poll takes its answer in, unless the polling has stopped. -/
lemma tracks_step {poll : Poll} (hstep : (polling anchor id).Step s poll s')
    (ht : s.ramp id = some t) (h : Tracks l t) :
    (∃ t', s'.ramp id = some t' ∧ Tracks (l ++ [poll.answer]) t') ∧
    ((stopper l).isSome → s'.ramps = s.ramps ∧ s'.events = s.events) := by
  obtain ⟨⟨status, hran⟩, hanswer⟩ := hstep
  rcases refreshStatus_ok hran ht with ⟨hidle, hramps, hevents⟩ |
    ⟨hidle, a, ha, tx, hreported, t', polledAt, ht', -, hrefreshed⟩
  · refine ⟨⟨t, (ramp_congr hramps id).trans ht, h.stay (h.idle_iff.mp hidle)⟩, fun _ => ?_⟩
    exact ⟨hramps, hevents⟩
  · rw [h.idle_iff, Option.not_isSome_iff_eq_none] at hidle
    rw [hanswer a ha tx hreported] at hrefreshed
    refine ⟨⟨t', ht', h.take hidle hrefreshed⟩, fun hsome => ?_⟩
    rw [hidle] at hsome
    cases hsome

lemma tracks_run (hinit : (polling anchor id).Init s) (h : (polling anchor id).Run s tr s') :
    ∃ t, s'.ramp id = some t ∧ Tracks (answers tr) t := by
  induction h with
  | nil =>
    obtain ⟨t, ht, hidle⟩ := hinit
    exact ⟨t, ht, tracks_nil hidle⟩
  | snoc hrun hstep ih =>
    obtain ⟨t, ht, htracks⟩ := ih
    have htaken := (tracks_step hstep ht htracks).1
    rwa [answers, List.map_append]

/-- Every poll of a run, with the answers up to it. -/
lemma tracks_move (hinit : (polling anchor id).Init s) {before after : List (Move Rails Poll)}
    {m : Move Rails Poll} (h : (polling anchor id).Run s (before ++ m :: after) s') :
    (∃ t, m.post.ramp id = some t ∧ Tracks (answers before ++ [m.label.answer]) t) ∧
    ((stopper (answers before)).isSome →
      m.post.ramps = m.pre.ramps ∧ m.post.events = m.pre.events) := by
  obtain ⟨hbefore, hstep⟩ := h.split before m after
  obtain ⟨t, ht, htracks⟩ := tracks_run hinit hbefore
  exact tracks_step hstep ht htracks

/-! ### Convergence -/

lemma answers_split (before after : List (Move Rails Poll)) (m : Move Rails Poll) :
    answers (before ++ m :: after) = answers before ++ m.label.answer :: answers after := by
  rw [answers, List.map_append, List.map_cons]
  rfl

/-- A ramp follows the provider's answers if and only if the provider does not put the transaction
on hold before its verdict. -/
theorem converges_iff (hinit : (polling anchor id).Init s) (h : (polling anchor id).Run s tr s') :
    (∀ before m after, tr = before ++ m :: after → Converges id (answers before) m) ↔
      NeverHeld (answers tr) := by
  constructor
  · intro hconverges before after hsplit
    obtain ⟨tr₁, tr₂, rfl, rfl, htr₂⟩ := List.map_eq_append_iff.mp hsplit
    obtain ⟨m, tr₃, rfl, hheld, -⟩ := List.map_eq_cons_iff.mp htr₂
    by_contra hnone
    rw [Option.not_isSome_iff_eq_none] at hnone
    have hpending : verdict (answers tr₁ ++ [m.label.answer]) = none := by
      rw [hheld, verdict, List.find?_append]
      exact Option.or_eq_none_iff.mpr ⟨hnone, rfl⟩
    obtain ⟨t, ht, hrunning⟩ := (hconverges tr₁ m tr₃ rfl).pending hpending
    obtain ⟨⟨t', ht', htracks⟩, -⟩ := tracks_move hinit h
    obtain rfl := Option.some.inj (ht.symm.trans ht')
    have hstopped : (stopper (answers tr₁ ++ [m.label.answer])).isSome := by
      rw [stopper, List.find?_isSome]
      exact ⟨_, List.mem_append_right _ (List.mem_singleton_self _), by rw [hheld]; rfl⟩
    have hidle := htracks.idle_iff.mpr hstopped
    rw [RampTransaction.Idle, or_iff_left htracks.opened, hrunning] at hidle
    cases hidle
  · rintro hheld before m after rfl
    rw [answers_split, List.append_cons] at hheld
    have hverdict := stopper_eq_verdict hheld.left
    have hbefore := stopper_eq_verdict hheld.left.left
    obtain ⟨⟨t, ht, htracks⟩, hnoop⟩ := tracks_move hinit h
    refine ⟨fun hnone => ?_, fun a ha => ?_, fun hsome => ?_⟩
    · exact ⟨t, ht, htracks.running (hverdict.trans hnone)⟩
    · exact ⟨t, ht, htracks.stopped a (hverdict.trans ha)⟩
    · rw [← hbefore] at hsome
      exact hnoop hsome

end Polling

/-! ### A transaction on hold -/

namespace PlayedRamps

/-- A refresh of the ramp when the provider answers `a`. -/
def refreshed (a : Sep24Status) (s : Rails) : List Attempted × Except Thrown RampStatus × Rails :=
  (refreshStatus anchor "ramp").play (answering a.raw) s

/-- It returns, and nothing else was reported. -/
def heard (a : Sep24Status) (r : List Attempted × Except Thrown RampStatus × Rails) : Bool :=
  r.2.1.isOk && r.1.all fun x => x.reported.all (·.status = a.raw)

lemma step_refreshed {a : Sep24Status} {s : Rails} (h : heard a (refreshed a s)) :
    (polling anchor "ramp").Step s ⟨a, (refreshed a s).1⟩ (refreshed a s).2.2 := by
  obtain ⟨hok, hheard⟩ := Bool.and_eq_true_iff.mp h
  have hran := ran_answeringBy (fun _ s => { PlayedRamps.oracle s with
    transaction := { status := 200, body := .ok { status := a.raw } } })
    (refreshStatus anchor "ramp") s
  cases hstatus : (refreshed a s).2.1 with
  | error e =>
    rw [hstatus] at hok
    cases hok
  | ok status =>
    rw [show ((refreshStatus anchor "ramp").play (answering a.raw) s).2.1 = _ from hstatus] at hran
    refine ⟨⟨status, hran⟩, fun x hx tx htx => ?_⟩
    have hall := List.all_eq_true.mp hheard x hx
    rw [htx] at hall
    exact of_decide_eq_true hall

/-- Two refreshes, one after the other. -/
lemma run_refreshed {a b : Sep24Status} (ha : heard a (refreshed a waiting))
    (hb : heard b (refreshed b (refreshed a waiting).2.2)) : (polling anchor "ramp").Run waiting
      [⟨waiting, ⟨a, (refreshed a waiting).1⟩, (refreshed a waiting).2.2⟩,
        ⟨(refreshed a waiting).2.2, ⟨b, (refreshed b (refreshed a waiting).2.2).1⟩,
          (refreshed b (refreshed a waiting).2.2).2.2⟩]
      (refreshed b (refreshed a waiting).2.2).2.2 :=
  (System.Run.single (step_refreshed ha)).snoc (step_refreshed hb)

lemma waiting_init : (polling anchor "ramp").Init waiting := by
  refine ⟨_, rfl, ?_⟩
  rintro (h | h)
  · cases h
  · cases h

end PlayedRamps

/-- The ramp takes in that the transfer is pending and that it is completed. -/
theorem converges_iff_of_completed : ∃ tr s',
    (polling PlayedRamps.anchor "ramp").Run PlayedRamps.waiting tr s' ∧
    answers tr = [.pending_stellar, .completed] ∧ s'.status "ramp" = some .COMPLETED ∧
    ∀ before m after, tr = before ++ m :: after → Converges "ramp" (answers before) m := by
  have hrun := PlayedRamps.run_refreshed (a := .pending_stellar) (b := .completed) (by decide +kernel)
    (by decide +kernel)
  refine ⟨_, _, hrun, rfl, by decide +kernel, (converges_iff PlayedRamps.waiting_init hrun).mpr ?_⟩
  intro before after hsplit
  have hmem : Sep24Status.on_hold ∈ [.pending_stellar, .completed] := by
    rw [show [Sep24Status.pending_stellar, .completed] = _ from hsplit]
    exact List.mem_append_right _ (List.mem_cons_self ..)
  exact absurd hmem (by decide)

/-- A transaction is put on hold and completed after that: the ramp has failed for good. -/
theorem held_transaction_fails : ∃ tr s',
    (polling PlayedRamps.anchor "ramp").Init PlayedRamps.waiting ∧
    (polling PlayedRamps.anchor "ramp").Run PlayedRamps.waiting tr s' ∧
    answers tr = [.on_hold, .completed] ∧ s'.status "ramp" = some .ERROR ∧
    ¬∀ before m after, tr = before ++ m :: after → Converges "ramp" (answers before) m := by
  have hrun := PlayedRamps.run_refreshed (a := .on_hold) (b := .completed) (by decide +kernel)
    (by decide +kernel)
  refine ⟨_, _, PlayedRamps.waiting_init, hrun, rfl, by decide +kernel, fun h => ?_⟩
  obtain ⟨t, ht, hrunning⟩ := (h [] _ _ rfl).pending rfl
  have hfailed : ((PlayedRamps.refreshed .on_hold PlayedRamps.waiting).2.2.ramp "ramp").map (·.status) =
      some .ERROR := by decide +kernel
  rw [show (PlayedRamps.refreshed .on_hold PlayedRamps.waiting).2.2.ramp "ramp" = some t from ht] at hfailed
  have hstatus : t.status = .ERROR := Option.some.inj hfailed
  rw [hstatus] at hrunning
  cases hrunning

end PayEra.Ramps
