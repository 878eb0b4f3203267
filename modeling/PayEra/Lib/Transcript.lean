import PayEra.Lib.Script

/-!
# Transcripts

The transcript of a session is the list of its own calls with their answers. A session in progress, or
finished, is its program after its transcript, whatever other sessions did in the meantime. So what
holds of a program whatever it is answered, holds of every session in every interleaving; and what was
answered can be looked up in the journal.
-/

namespace Async

open Program

/-- A call and its answer. -/
abbrev Exchange (Op : Type) (Res : Op → Type) (ε : Type) : Type := Σ op : Op, Except ε (Res op)

section Transcripts

variable {σ Q Op : Type} {Res : Op → Type} {ε α β : Type}

/-! ### Programs and transcripts -/

/-- The program makes these calls, and what is left of it when they are answered so. -/
inductive Program.Went :
    Program Op Res ε α → List (Exchange Op Res ε) → Program Op Res ε α → Prop where
  | start (p : Program Op Res ε α) : p.Went [] p
  | call {op : Op} {k : Except ε (Res op) → Program Op Res ε α} {r : Except ε (Res op)}
      {l : List (Exchange Op Res ε)} {p : Program Op Res ε α} (h : (k r).Went l p) :
      (Program.await op k).Went (⟨op, r⟩ :: l) p

lemma Program.Went.unique {p p₁ p₂ : Program Op Res ε α} {l : List (Exchange Op Res ε)}
    (h₁ : p.Went l p₁) (h₂ : p.Went l p₂) : p₁ = p₂ := by
  induction h₁ with
  | start =>
    cases h₂
    rfl
  | call _ ih =>
    cases h₂ with
    | call h₂ => exact ih h₂

lemma Program.Went.snoc {p : Program Op Res ε α} {l : List (Exchange Op Res ε)} {op : Op}
    {k : Except ε (Res op) → Program Op Res ε α} (h : p.Went l (.await op k))
    (r : Except ε (Res op)) : p.Went (l ++ [⟨op, r⟩]) (k r) := by
  generalize hp : Program.await op k = p' at h
  induction h with
  | start =>
    subst hp
    exact .call (.start _)
  | call _ ih => exact .call (ih hp)

/-- The script whose places are transcripts: the calls that a session may make, given what it was asked
and what it was answered so far. -/
def told (C : Q → List (Exchange Op Res ε) → Op → Prop) :
    Script Q Op Res ε (Q × List (Exchange Op Res ε)) where
  start q := (q, [])
  may κ op := C κ.1 κ.2 op
  leads κ op r κ' := κ' = (κ.1, κ.2 ++ [⟨op, r⟩])

section Told

variable {C : Q → List (Exchange Op Res ε) → Op → Prop} {q : Q} {l l' : List (Exchange Op Res ε)}
  {p p' : Program Op Res ε α} {G : Except ε α → Q × List (Exchange Op Res ε) → Prop}

lemma admits_told_mono {C' : Q → List (Exchange Op Res ε) → Op → Prop}
    (hC : ∀ l op, C q l op → C' q l op) (h : (told C).Admits p (q, l) G) :
    (told C').Admits p (q, l) G := by
  induction p generalizing l with
  | done r => exact h
  | await op k ih =>
    refine ⟨hC l op h.1, ?_⟩
    rintro r κ rfl
    exact ih r (h.2 r _ rfl)

/-- What is left of a program keeps to what the program keeps to. -/
lemma admits_went (h : (told C).Admits p (q, l) G) (hp : p.Went l' p') :
    (told C).Admits p' (q, l ++ l') G := by
  induction hp generalizing l with
  | start =>
    rw [List.append_nil]
    exact h
  | call _ ih =>
    have hk := ih (h.2 _ (q, l ++ [_]) rfl)
    rwa [List.append_assoc] at hk

lemma may_of_went (h : (told C).Admits p (q, l) G) {l₁ l₂ : List (Exchange Op Res ε)} {op : Op}
    {r : Except ε (Res op)} (hp : p.Went (l₁ ++ ⟨op, r⟩ :: l₂) p') : C q (l ++ l₁) op := by
  induction l₁ generalizing p l with
  | nil =>
    cases hp with
    | call _ =>
      rw [List.append_nil]
      exact h.1
  | cons e l₁ ih =>
    cases hp with
    | call hk =>
      have hmay := ih (h.2 _ (q, l ++ [_]) rfl) hk
      rwa [List.append_assoc] at hmay

end Told

/-! ### The transcript of a session -/

/-- The session's calls and their answers. -/
def Journal.own (n : ℕ) (w : Journal σ Q Op Res ε β) : List (Exchange Op Res ε) :=
  w.entries.filterMap fun
    | ⟨.call m op, r⟩ => if m = n then some ⟨op, r⟩ else none
    | _ => none

/-- After the calls `l` the session has made this one, and was answered so. -/
def Journal.Called (n : ℕ) (l : List (Exchange Op Res ε)) (op : Op) (r : Except ε (Res op))
    (w : Journal σ Q Op Res ε β) : Prop :=
  ∃ l', w.own n = l ++ ⟨op, r⟩ :: l'

section Own

variable {Returns : (op : Op) → σ → Res op → σ → Prop} {total lossless : Op → Prop} {n : ℕ}
  {w w' : Journal σ Q Op Res ε β}

lemma mem_own {op : Op} {r : Except ε (Res op)} : ⟨op, r⟩ ∈ w.own n ↔ w.Answered n op r := by
  rw [Journal.own, List.mem_filterMap]
  constructor
  · rintro ⟨⟨e, r'⟩, he, heq⟩
    cases e with
    | call m op' =>
      by_cases hm : m = n
      · simp only [hm, if_true] at heq
        cases heq
        cases hm
        exact he
      · simp only [hm, if_false] at heq
        cases heq
    | begin | finish => cases heq
  · exact fun h => ⟨_, h, by simp⟩

lemma exists_called {op : Op} {r : Except ε (Res op)} (h : w.Answered n op r) :
    ∃ l, w.Called n l op r := by
  obtain ⟨l, l', hl⟩ := List.append_of_mem (mem_own.mpr h)
  exact ⟨l, l', hl⟩

lemma Journal.Called.sublist {l : List (Exchange Op Res ε)} {op : Op} {r : Except ε (Res op)}
    (h : w.Called n l op r) : l.Sublist (w.own n) := by
  obtain ⟨l', hl⟩ := h
  rw [hl]
  exact List.sublist_append_left ..

lemma Journal.Called.answered {l : List (Exchange Op Res ε)} {op : Op} {r : Except ε (Res op)}
    (h : w.Called n l op r) : w.Answered n op r := by
  obtain ⟨l', hl⟩ := h
  rw [← mem_own, hl]
  exact List.mem_append_right _ (List.mem_cons_self ..)

lemma Journal.Agrees.own (h : w.Agrees n w') : w'.own n = w.own n := by
  have hown : ∀ w : Journal σ Q Op Res ε β, w.own n =
      (w.entries.filter (·.1.session = n)).filterMap fun
        | ⟨.call m op, r⟩ => if m = n then some ⟨op, r⟩ else none
        | _ => none := by
    intro w
    rw [List.filterMap_filter]
    apply List.filterMap_congr
    rintro ⟨e, r⟩ -
    cases e with
    | call m op =>
      by_cases hm : m = n
      · simp [Event.session, hm]
      · simp [Event.session, hm]
    | begin | finish => simp
  rw [hown, hown, h.entries]

lemma own_call {op : Op} {r : Except ε (Res op)}
    (h : happens Returns total lossless (.call n op) w r w') : w'.own n = w.own n ++ [⟨op, r⟩] := by
  rw [Journal.own, Journal.own, happens_entries h, List.filterMap_append]
  simp

lemma own_eq_nil (h : ∀ e ∈ w.entries, e.1.session ≠ n) : w.own n = [] := by
  rw [Journal.own, List.filterMap_eq_nil_iff]
  rintro ⟨e, r⟩ he
  cases e with
  | call m op =>
    have hm : m ≠ n := h _ he
    simp [hm]
  | begin | finish => rfl

end Own

/-! ### The protocol of transcripts -/

/-- The ghost state of a session is its number and what is left of its program. -/
def transcripts (program : Q → Program Op Res ε β) :
    Protocol σ Q Op Res ε β (Option (ℕ × Program Op Res ε β)) where
  number := Option.map Prod.fst
  idle := none
  allowed _ _ _ := True
  link ℓ op := ∃ n k, ℓ = some (n, .await op k)
  base _ _ := True
  mine ℓ w := ∀ n p q, ℓ = some (n, p) → w.Begun n q → (program q).Went (w.own n) p
  ended n a w := ∀ q, w.Begun n q → (program q).Went (w.own n) (.done a)

section Protocols

variable {Returns : (op : Op) → σ → Res op → σ → Prop} {total lossless : Op → Prop} {n : ℕ}
  {w w' : Journal σ Q Op Res ε β} {program : Q → Program Op Res ε β}

lemma transcripts_lawful : (transcripts (σ := σ) program).Lawful where
  idle := rfl
  mine n ℓ w w' hn h hmine m p q hℓ hq := by
    rw [hℓ] at hn
    obtain rfl : m = n := Option.some.inj hn
    rw [h.own]
    exact hmine m p q hℓ (h.begun.mp hq)
  ended n a w w' h hended q hq := by
    rw [h.own]
    exact hended q (h.begun.mp hq)

/-- A program goes through its transcript. -/
lemma safe_transcript (p : Program Op Res ε β) :
    Safe (((transcripts program).discipline Returns total lossless).at n) p (some (n, p))
      fun a ℓ => ℓ = some (n, .done a) := by
  induction p with
  | done r => rfl
  | await op k ih =>
    refine ⟨⟨rfl, n, k, rfl⟩, ?_⟩
    intro w f r w' hinv _ (hhappens : happens Returns total lossless (.call n op) w r w')
    refine ⟨some (n, k r), ?_, ih r⟩
    have hmine := (hinv.running _ (Multiset.mem_cons_self ..) n rfl).2.2
    refine hinv.call transcripts_lawful rfl hhappens rfl trivial ?_
    rintro m p q heq hq
    cases heq
    rw [own_call hhappens]
    rcases (begun_happens hhappens).mp hq with hq | heq
    · exact (hmine n _ q rfl hq).snoc r
    · cases heq

lemma follows_transcript (q : Q) :
    (transcripts program).Follows Returns total lossless n q (program q) := by
  intro w f r w' hinv hentries _ _ hhappens
  refine ⟨some (n, program q), rfl, trivial, ?_,
    (safe_transcript (program q)).mono ?_⟩
  · rintro m p q' heq hq'
    cases heq
    have hown : w'.own n = [] := by
      rw [Journal.own, happens_entries hhappens, List.filterMap_append]
      have hnil : w.own n = [] := own_eq_nil hentries
      rw [Journal.own] at hnil
      rw [hnil]
      rfl
    rw [hown]
    rcases (begun_happens hhappens).mp hq' with hq' | heq
    · exact absurd rfl (hentries _ hq')
    · cases heq
      exact .start _
  · rintro a ℓ rfl
    refine ⟨rfl, fun w f r w' hinv hmine _ hhappens => ⟨trivial, ?_⟩⟩
    intro q' hq'
    have hown : w'.own n = w.own n := by
      rw [Journal.own, Journal.own, happens_entries hhappens, List.filterMap_append]
      exact List.append_nil _
    rw [hown]
    rcases (begun_happens hhappens).mp hq' with hq' | heq
    · exact hmine n _ q' rfl hq'
    · cases heq

/-! ### What sessions keep to -/

variable {init : σ → Prop} {other : σ → σ → Prop}
  {cond : Multiset (Program (Event Q Op (Except ε β)) (Event.Res Res) ε Unit) →
    (e : Event Q Op (Except ε β)) → Journal σ Q Op Res ε β → Except ε (e.Res Res) → Prop}
  {s : Pool (Journal σ Q Op Res ε β) (Event Q Op (Except ε β)) (Event.Res Res) ε}

theorem transcripts_governs :
    Governs ((transcripts program).discipline Returns total lossless)
      (sessions Returns total lossless program init other cond) := by
  apply Protocol.governs transcripts_lawful
  · exact fun _ _ _ _ => trivial
  · exact fun _ _ h => h
  · exact fun _ _ _ _ _ _ _ => trivial
  · exact fun _ _ _ _ _ => trivial
  · exact fun _ q => follows_transcript q

/-- What is in the journal stays there. -/
lemma entries_step {t : Pool (Journal σ Q Op Res ε β) (Event Q Op (Except ε β)) (Event.Res Res) ε}
    {l : Label (Event Q Op (Except ε β)) (Event.Res Res) ε}
    (h : (system (sessions Returns total lossless program init other cond)).Step s l t) :
    s.world.entries ⊆ t.world.entries := by
  cases l with
  | call e r =>
    obtain ⟨k, rest, -, -, henv, -⟩ := h
    rw [happens_entries henv]
    exact List.subset_append_left ..
  | start p =>
    rw [h.2.1]
    exact List.Subset.refl _
  | world =>
    rw [h.1.1]
    exact List.Subset.refl _

/-- **Transcripts.** A session that has begun is its program after its transcript, and if it is finished
there is nothing left of it. -/
theorem transcript_of_begun
    (h : (system (sessions Returns total lossless program init other cond)).Reachable s) {q : Q}
    (hq : s.world.Begun n q) :
    ∃ p, (program q).Went (s.world.own n) p ∧ ∀ a, s.world.Finished n a → p = .done a := by
  obtain ⟨f, -, hinv⟩ := reachable_sound transcripts_governs h
  rcases hinv.entered n q hq with ⟨ℓ, hℓ, hn⟩ | ⟨a, ha⟩
  · obtain ⟨-, hfinished, hmine⟩ := hinv.running ℓ hℓ n hn
    cases ℓ with
    | none => cases hn
    | some np =>
      obtain ⟨m, p⟩ := np
      obtain rfl : m = n := Option.some.inj hn
      exact ⟨p, hmine m p q rfl hq, fun a ha => absurd ha (hfinished a)⟩
  · refine ⟨.done a, hinv.ended n a ha q hq, fun b hb => ?_⟩
    exact (hinv.ended n a ha q hq).unique (hinv.ended n b hb q hq)

/-- **What programs keep to, sessions keep to.** If a program respects `C` before each call and ends in
`G`, whatever it is answered, so does each session, however sessions interleave. -/
theorem told_of_reachable {C : Q → List (Exchange Op Res ε) → Op → Prop}
    {G : Except ε β → Q × List (Exchange Op Res ε) → Prop}
    (hprogram : ∀ q, (told C).Admits (program q) (q, []) G)
    (h : (system (sessions Returns total lossless program init other cond)).Reachable s) {q : Q}
    (hq : s.world.Begun n q) :
    (∀ l₁ op r l₂, s.world.own n = l₁ ++ ⟨op, r⟩ :: l₂ → C q l₁ op) ∧
      ∀ a, s.world.Finished n a → G a (q, s.world.own n) := by
  obtain ⟨p, hwent, hfinished⟩ := transcript_of_begun h hq
  constructor
  · intro l₁ op r l₂ hl
    rw [hl] at hwent
    exact may_of_went (hprogram q) hwent
  · intro a ha
    obtain rfl := hfinished a ha
    exact admits_went (hprogram q) hwent

/-- A session has begun if it has made a call. -/
theorem begun_of_answered
    (h : (system (sessions Returns total lossless program init other cond)).Reachable s) {op : Op}
    {r : Except ε (Res op)} (hr : s.world.Answered n op r) : ∃ q, s.world.Begun n q := by
  obtain ⟨f, -, hinv⟩ := reachable_sound transcripts_governs h
  exact hinv.entries _ hr

/-- A session has begun if it is finished. -/
theorem begun_of_finished
    (h : (system (sessions Returns total lossless program init other cond)).Reachable s)
    {a : Except ε β} (ha : s.world.Finished n a) : ∃ q, s.world.Begun n q := by
  obtain ⟨f, -, hinv⟩ := reachable_sound transcripts_governs h
  exact hinv.entries _ ha

/-- **Invariants of the journal.** A call is made in a session that keeps to `C`; everything else leaves
the answers and the effects as they are. -/
theorem invariant_of_told {C : Q → List (Exchange Op Res ε) → Op → Prop}
    {G : Except ε β → Q × List (Exchange Op Res ε) → Prop} {I : Journal σ Q Op Res ε β → Prop}
    (hprogram : ∀ q, (told C).Admits (program q) (q, []) G)
    (hinit : ∀ w, init w.state → w.entries = [] → w.effects = [] → I w)
    (hcall : ∀ n q op w r w', I w → happens Returns total lossless (.call n op) w r w' →
      w.Begun n q → C q (w.own n) op → I w')
    (hother : ∀ w w', I w → w.entries ⊆ w'.entries →
      (∀ n op r, w'.Answered n op r → w.Answered n op r) → w'.effects = w.effects →
      (w'.state = w.state ∨ other w.state w'.state) → I w')
    (h : (system (sessions Returns total lossless program init other cond)).Reachable s) :
    I s.world := by
  refine h.invariant (P := fun s => I s.world) ?_ ?_
  · rintro s ⟨⟨hstate, hentries, heffects⟩, -⟩
    exact hinit s.world hstate hentries heffects
  · intro s l t hs hI hstep
    have ht := hs.step hstep
    have hsubset := entries_step hstep
    cases l with
    | call e r =>
      obtain ⟨k, rest, -, -, henv, -⟩ := hstep
      have hhappens : happens Returns total lossless e s.world r t.world := henv
      cases e with
      | call n op =>
        have hcalled : t.world.Answered n op r := by
          rw [Journal.Answered, happens_entries hhappens]
          exact List.mem_append_right _ (List.mem_singleton_self _)
        obtain ⟨q, hq⟩ := begun_of_answered ht hcalled
        have hmay := (told_of_reachable hprogram ht hq).1 (s.world.own n) op r [] (own_call hhappens)
        refine hcall n q op s.world r t.world hI hhappens ?_ hmay
        rcases (begun_happens hhappens).mp hq with hq | heq
        · exact hq
        · cases heq
      | begin n q =>
        refine hother s.world t.world hI hsubset (fun m op r' hr => ?_) ?_ (.inl ?_)
        · refine (answered_happens hhappens hr).resolve_right fun heq => ?_
          cases heq
        · rw [hhappens.2.2]
        · rw [hhappens.2.2]
      | finish n a =>
        refine hother s.world t.world hI hsubset (fun m op r' hr => ?_) ?_ (.inl ?_)
        · refine (answered_happens hhappens hr).resolve_right fun heq => ?_
          cases heq
        · rw [hhappens.2]
        · rw [hhappens.2]
    | start p =>
      have hw := hstep.2.1
      refine hother s.world t.world hI hsubset (fun m op r hr => ?_) ?_ (.inl ?_)
      · rwa [Journal.Answered, hw] at hr
      · rw [hw]
      · rw [hw]
    | world =>
      obtain ⟨⟨hentries, heffects, hstate⟩, -⟩ := hstep
      refine hother s.world t.world hI hsubset (fun m op r hr => ?_) heffects (.inr hstate)
      rwa [Journal.Answered, hentries] at hr

/-- A call was allowed after the calls before it. -/
theorem checked_of_called {C : Q → List (Exchange Op Res ε) → Op → Prop}
    {G : Except ε β → Q × List (Exchange Op Res ε) → Prop}
    (hprogram : ∀ q, (told C).Admits (program q) (q, []) G)
    (h : (system (sessions Returns total lossless program init other cond)).Reachable s) {op : Op}
    {r : Except ε (Res op)} {l : List (Exchange Op Res ε)} (hr : s.world.Called n l op r) :
    ∃ q, s.world.Begun n q ∧ C q l op := by
  obtain ⟨q, hq⟩ := begun_of_answered h hr.answered
  obtain ⟨l', hl⟩ := hr
  exact ⟨q, hq, (told_of_reachable hprogram h hq).1 l op r l' hl⟩

end Protocols

end Transcripts

end Async
