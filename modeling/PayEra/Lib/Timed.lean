import Mathlib.Logic.Relation
import PayEra.Lib.Sequenced

/-!
# Ledgers with sequence numbers and deadlines

A ledger next to a clock. What was submitted is applied or fails with the next number of its source,
if it is held at all and its deadline has not passed; both use up the number. So there is a way for
a transaction to be applied until it is not held, its number is used up or its deadline has passed,
and none afterwards: `never_applied_iff`.
-/

namespace Sequenced

variable {Account Tx : Type}

/-- The clock, the ledger, and the positions of what was included without effect. -/
structure Timed (Account Tx : Type) where
  time : ℕ := 0
  ledger : Ledger Account Tx
  failed : List ℕ := []

/-- What the ledger looks at. -/
structure Terms (Account Tx : Type) where
  source : Tx → Account
  number : Tx → ℕ
  held : Tx → Prop
  deadline : Tx → ℕ

namespace Timed

variable [DecidableEq Account] (T : Terms Account Tx)

/-- What happens by itself, other submissions included. -/
inductive Evolves : Timed Account Tx → Timed Account Tx → Prop
  | pass (s : Timed Account Tx) {t : ℕ} (ht : s.time ≤ t) : Evolves s { s with time := t }
  | submit (s : Timed Account Tx) (tx : Tx) : Evolves s { s with ledger := s.ledger.submit tx }
  | move (s : Timed Account Tx) {l : Ledger Account Tx}
      (h : s.ledger.Moves T.source T.number (fun tx => T.held tx ∧ s.time ≤ T.deadline tx) l) :
      Evolves s { s with ledger := l }
  | fail (s : Timed Account Tx) {i : ℕ} {tx : Tx} (hi : s.ledger.submitted[i]? = some tx)
      (hnumber : T.number tx = s.ledger.sequence (T.source tx) + 1) (hheld : T.held tx)
      (htime : s.time ≤ T.deadline tx) :
      Evolves s { s with
        ledger := s.ledger.advance (T.source tx) (T.number tx), failed := s.failed ++ [i] }

abbrev Later : Timed Account Tx → Timed Account Tx → Prop := Relation.ReflTransGen (Evolves T)

/-- The transaction has not been applied, and the time for it is over. -/
def Hopeless (s : Timed Account Tx) (i : ℕ) : Prop :=
  ∃ tx, s.ledger.submitted[i]? = some tx ∧ i ∉ s.ledger.applied ∧
    (¬T.held tx ∨ T.number tx ≤ s.ledger.sequence (T.source tx) ∨ T.deadline tx < s.time)

/-- What was included was submitted, and its number is used up. -/
structure Sound (s : Timed Account Tx) : Prop where
  past : s.ledger.Past
  failed : ∀ i ∈ s.failed, ∃ tx, s.ledger.submitted[i]? = some tx ∧
    T.number tx ≤ s.ledger.sequence (T.source tx)

variable {T} {s s' : Timed Account Tx} {i : ℕ} {tx : Tx} {a : Account}

/-! ### What stays -/

lemma Evolves.time_le (h : Evolves T s s') : s.time ≤ s'.time := by
  cases h with
  | pass ht => exact ht
  | submit | move | fail => exact le_refl _

lemma Evolves.sequence_le (h : Evolves T s s') : s.ledger.sequence a ≤ s'.ledger.sequence a := by
  cases h with
  | pass | submit => exact le_refl _
  | move h => exact h.sequence_le
  | fail hi hnumber hheld htime => exact s.ledger.sequence_le_update (by omega)

lemma Evolves.getElem? (h : Evolves T s s') (hi : s.ledger.submitted[i]? = some tx) :
    s'.ledger.submitted[i]? = some tx := by
  cases h with
  | pass | fail => exact hi
  | submit tx' => exact Ledger.getElem?_submit hi
  | move h =>
    show (_ : Ledger Account Tx).submitted[i]? = some tx
    rw [h.submitted_eq]
    exact hi

lemma Evolves.sound (h : Evolves T s s') (hs : s.Sound T) : s'.Sound T := by
  refine ⟨?_, fun i hi => ?_⟩
  · cases h with
    | pass => exact hs.past
    | submit tx => exact hs.past.submit
    | move h => exact hs.past.moves h
    | fail hi => exact hs.past
  · have hold : i ∈ s.failed → ∃ tx, s'.ledger.submitted[i]? = some tx ∧
        T.number tx ≤ s'.ledger.sequence (T.source tx) := by
      intro hmem
      obtain ⟨tx, htx, hle⟩ := hs.failed i hmem
      exact ⟨tx, h.getElem? htx, hle.trans h.sequence_le⟩
    cases h with
    | pass | submit | move => exact hold hi
    | @fail j tx hj hnumber hheld htime =>
      rcases List.mem_append.mp hi with hmem | hnew
      · exact hold hmem
      · obtain rfl := List.mem_singleton.mp hnew
        refine ⟨tx, hj, ?_⟩
        show T.number tx ≤ Function.update s.ledger.sequence (T.source tx) (T.number tx) (T.source tx)
        rw [Function.update_self]

lemma Hopeless.evolves (h : s.Hopeless T i) (hs : Evolves T s s') : s'.Hopeless T i := by
  obtain ⟨tx, hi, hnot, hover⟩ := h
  refine ⟨tx, hs.getElem? hi, ?_, ?_⟩
  · cases hs with
    | pass | submit | fail => exact hnot
    | move hmove =>
      cases hmove with
      | advance b n hn => exact hnot
      | apply j tx' hj hnumber hadmissible =>
        intro hmem
        rcases List.mem_append.mp hmem with hold | hnew
        · exact hnot hold
        · obtain rfl := List.mem_singleton.mp hnew
          obtain rfl := Option.some.inj (hi.symm.trans hj)
          rcases hover with hheld | hused | hlate
          · exact hheld hadmissible.1
          · omega
          · exact absurd hadmissible.2 (not_le.mpr hlate)
  · exact hover.imp_right (Or.imp (fun hle => hle.trans hs.sequence_le)
      fun hlt => hlt.trans_le hs.time_le)

/-! ### Later -/

lemma Later.keeps {P : Timed Account Tx → Prop} (hP : ∀ s s', Evolves T s s' → P s → P s')
    (h : Later T s s') (hs : P s) : P s' := by
  induction h with
  | refl => exact hs
  | tail _ hstep ih => exact hP _ _ hstep ih

lemma Later.time_le (h : Later T s s') : s.time ≤ s'.time :=
  h.keeps (P := fun t => s.time ≤ t.time) (fun _ _ hstep hle => hle.trans hstep.time_le) (le_refl _)

lemma Later.getElem? (h : Later T s s') (hi : s.ledger.submitted[i]? = some tx) :
    s'.ledger.submitted[i]? = some tx :=
  h.keeps (P := fun t => t.ledger.submitted[i]? = some tx) (fun _ _ hstep => hstep.getElem?) hi

lemma Later.sound (h : Later T s s') (hs : s.Sound T) : s'.Sound T :=
  h.keeps (fun _ _ hstep => hstep.sound) hs

lemma Later.hopeless (h : Later T s s') (hs : s.Hopeless T i) : s'.Hopeless T i :=
  h.keeps (P := fun t => t.Hopeless T i) (fun _ _ hstep hh => hh.evolves hstep) hs

/-- A held transaction with a number that is free still, in time. -/
lemma exists_applied (hi : s.ledger.submitted[i]? = some tx) (hheld : T.held tx)
    (hfree : s.ledger.sequence (T.source tx) < T.number tx) (htime : s.time ≤ T.deadline tx) :
    ∃ s', Later T s s' ∧ i ∈ s'.ledger.applied := by
  -- other transactions of the source take the numbers before
  have hadvance : Evolves T s { s with
      ledger := s.ledger.advance (T.source tx) (T.number tx - 1) } :=
    .move s (.advance s.ledger _ _ (by omega))
  have hnumber : T.number tx =
      (s.ledger.advance (T.source tx) (T.number tx - 1)).sequence (T.source tx) + 1 := by
    show _ = Function.update s.ledger.sequence (T.source tx) (T.number tx - 1) (T.source tx) + 1
    rw [Function.update_self]
    omega
  refine ⟨_, .tail (.single hadvance) (.move _ (.apply _ i tx hi hnumber ⟨hheld, htime⟩)), ?_⟩
  exact List.mem_append_right _ (List.mem_singleton_self i)

/-- **Now or later.** A submitted transaction is never applied exactly where the time for it is
over. -/
theorem never_applied_iff (hi : s.ledger.submitted[i]? = some tx) :
    (∀ s', Later T s s' → i ∉ s'.ledger.applied) ↔ s.Hopeless T i := by
  constructor
  · intro h
    refine ⟨tx, hi, h s .refl, ?_⟩
    by_contra hover
    rw [not_or, not_or, not_not, not_le, not_lt] at hover
    obtain ⟨hheld, hfree, htime⟩ := hover
    obtain ⟨s', hlater, happlied⟩ := exists_applied hi hheld hfree htime
    exact h s' hlater happlied
  · intro h s' hlater
    obtain ⟨tx', -, hnot, -⟩ := hlater.hopeless h
    exact hnot

end Timed

end Sequenced
