import PayEra.Lib.Async

/-!
# Sessions

A session is a program that somebody has asked for: it begins, makes its calls and finishes with an
outcome, and each of these is an event under the session's number. The journal of a pool of sessions
keeps the events with their answers and, for each call that took effect, the state that it found. It
tells what a request was answered and whose call it was that changed the state, which a log of bare
calls does not.
-/

namespace Async

/-- What happens in a session. -/
inductive Event (Q Op A : Type) where
  | begin (n : ℕ) (q : Q)
  | call (n : ℕ) (op : Op)
  | finish (n : ℕ) (a : A)

abbrev Event.Res {Q Op A : Type} (Res : Op → Type) : Event Q Op A → Type
  | .call _ op => Res op
  | .begin _ _ | .finish _ _ => Unit

/-- A call that took effect, and the state that it found. -/
structure Effect (σ Op : Type) where
  session : ℕ
  op : Op
  found : σ

section Sessions

variable {σ Q Op : Type} {Res : Op → Type} {ε β : Type}

/-- An event and its answer. -/
abbrev Entry (Q Op : Type) (Res : Op → Type) (ε β : Type) : Type :=
  Σ e : Event Q Op (Except ε β), Except ε (e.Res Res)

structure Journal (σ Q Op : Type) (Res : Op → Type) (ε β : Type) where
  state : σ
  entries : List (Entry Q Op Res ε β) := []
  effects : List (Effect σ Op) := []

/-- The session `n` has begun with the request `q`. -/
def Journal.Begun (w : Journal σ Q Op Res ε β) (n : ℕ) (q : Q) : Prop :=
  ⟨.begin n q, .ok ()⟩ ∈ w.entries

def Journal.Finished (w : Journal σ Q Op Res ε β) (n : ℕ) (a : Except ε β) : Prop :=
  ⟨.finish n a, .ok ()⟩ ∈ w.entries

/-- The call `op` of the session `n` was answered by `r`. -/
def Journal.Answered (w : Journal σ Q Op Res ε β) (n : ℕ) (op : Op) (r : Except ε (Res op)) : Prop :=
  ⟨.call n op, r⟩ ∈ w.entries

/-- The call `op` of the session `n` took effect on the state `s`. -/
def Journal.Took (w : Journal σ Q Op Res ε β) (n : ℕ) (op : Op) (s : σ) : Prop :=
  ⟨n, op, s⟩ ∈ w.effects

/-! ### Programs of sessions -/

/-- The calls of a session, under its number. -/
def Program.within {α : Type} (n : ℕ) :
    Program Op Res ε α → Program (Event Q Op (Except ε β)) (Event.Res Res) ε α
  | .done r => .done r
  | .await op k => .await (.call n op) fun r => (k r).within n

/-- The whole session: what it was asked, its calls and its outcome. -/
def session (n : ℕ) (q : Q) (p : Program Op Res ε β) :
    Program (Event Q Op (Except ε β)) (Event.Res Res) ε Unit :=
  .await (.begin n q) fun _ =>
    (p.within n).attempt.bind fun a => .await (.finish n a) fun _ => .done (a.map fun _ => ())

/-! ### The environment -/

variable (Returns : (op : Op) → σ → Res op → σ → Prop) (total lossless : Op → Prop)

/-- Events are journalled. Numbers of sessions are used once, and a call that fails may have taken
effect unless it is `lossless`. -/
def happens : (e : Event Q Op (Except ε β)) → Journal σ Q Op Res ε β → Except ε (e.Res Res) →
    Journal σ Q Op Res ε β → Prop
  | .begin n q, w, r, w' => r = .ok () ∧ (∀ q, ¬w.Begun n q) ∧
      w' = { w with entries := w.entries ++ [⟨.begin n q, r⟩] }
  | .call n op, w, r, w' => w'.entries = w.entries ++ [⟨.call n op, r⟩] ∧
      match r with
      | .ok v => Returns op w.state v w'.state ∧ w'.effects = w.effects ++ [⟨n, op, w.state⟩]
      | .error _ => ¬total op ∧ (w'.state = w.state ∧ w'.effects = w.effects ∨
          ¬lossless op ∧ (∃ v, Returns op w.state v w'.state) ∧
            w'.effects = w.effects ++ [⟨n, op, w.state⟩])
  | .finish n a, w, r, w' => r = .ok () ∧ w' = { w with entries := w.entries ++ [⟨.finish n a, r⟩] }

variable {Returns total lossless}

lemma happens_entries {e : Event Q Op (Except ε β)} {w w' : Journal σ Q Op Res ε β}
    {r : Except ε (e.Res Res)} (h : happens Returns total lossless e w r w') :
    w'.entries = w.entries ++ [⟨e, r⟩] := by
  cases e with
  | begin n q =>
    obtain ⟨-, -, rfl⟩ := h
    rfl
  | call n op => exact h.1
  | finish n a =>
    obtain ⟨-, rfl⟩ := h
    rfl

/-- A call changes nothing or takes effect. -/
lemma happens_call {n : ℕ} {op : Op} {w w' : Journal σ Q Op Res ε β} {r : Except ε (Res op)}
    (h : happens Returns total lossless (.call n op) w r w') :
    w'.state = w.state ∧ w'.effects = w.effects ∨
      (∃ v, Returns op w.state v w'.state) ∧ w'.effects = w.effects ++ [⟨n, op, w.state⟩] := by
  obtain ⟨-, h⟩ := h
  cases r with
  | ok v => exact .inr ⟨⟨v, h.1⟩, h.2⟩
  | error e =>
    rcases h.2 with hnone | hlost
    · exact .inl hnone
    · exact .inr hlost.2

/-- What took effect is not forgotten. -/
lemma happens_effects {e : Event Q Op (Except ε β)} {w w' : Journal σ Q Op Res ε β}
    {r : Except ε (e.Res Res)} (h : happens Returns total lossless e w r w') :
    w.effects ⊆ w'.effects := by
  cases e with
  | begin n q =>
    obtain ⟨-, -, rfl⟩ := h
    exact List.Subset.refl _
  | call n op =>
    rcases happens_call h with ⟨-, heq⟩ | ⟨-, heq⟩
    · rw [heq]
      exact List.Subset.refl _
    · rw [heq]
      exact List.subset_append_left ..
  | finish n a =>
    obtain ⟨-, rfl⟩ := h
    exact List.Subset.refl _

/-- An effect is an old one, or the one of the call. -/
lemma took_happens {e : Event Q Op (Except ε β)} {w w' : Journal σ Q Op Res ε β}
    {r : Except ε (e.Res Res)} (h : happens Returns total lossless e w r w') {n : ℕ} {op : Op} {s : σ}
    (htook : w'.Took n op s) : w.Took n op s ∨ e = .call n op ∧ s = w.state := by
  cases e with
  | begin m q =>
    obtain ⟨-, -, rfl⟩ := h
    exact .inl htook
  | call m op' =>
    rcases happens_call h with ⟨-, heq⟩ | ⟨-, heq⟩
    · rw [Journal.Took, heq] at htook
      exact .inl htook
    · rw [Journal.Took, heq] at htook
      rcases List.mem_append.mp htook with htook | htook
      · exact .inl htook
      · cases List.mem_singleton.mp htook
        exact .inr ⟨rfl, rfl⟩
  | finish m a =>
    obtain ⟨-, rfl⟩ := h
    exact .inl htook

/-- An answer is an old one, or the one of the call. -/
lemma answered_happens {e : Event Q Op (Except ε β)} {w w' : Journal σ Q Op Res ε β}
    {r : Except ε (e.Res Res)} (h : happens Returns total lossless e w r w') {n : ℕ} {op : Op}
    {r' : Except ε (Res op)} (hanswered : w'.Answered n op r') :
    w.Answered n op r' ∨ (⟨.call n op, r'⟩ : Entry Q Op Res ε β) = ⟨e, r⟩ := by
  rw [Journal.Answered, happens_entries h] at hanswered
  exact (List.mem_append.mp hanswered).imp_right List.mem_singleton.mp

variable (Returns total lossless)

/-- Sessions of the programs that requests stand for, over a state on which other things happen
too. -/
def sessions (program : Q → Program Op Res ε β) (init : σ → Prop) (other : σ → σ → Prop)
    (cond : Multiset (Program (Event Q Op (Except ε β)) (Event.Res Res) ε Unit) →
      (e : Event Q Op (Except ε β)) → Journal σ Q Op Res ε β → Except ε (e.Res Res) → Prop) :
    Setting (Journal σ Q Op Res ε β) (Event Q Op (Except ε β)) (Event.Res Res) ε where
  init w := init w.state ∧ w.entries = [] ∧ w.effects = []
  env := happens Returns total lossless
  cond := cond
  start _ p := ∃ n q, p = session n q (program q)
  world w w' := w'.entries = w.entries ∧ w'.effects = w.effects ∧ other w.state w'.state

variable {Returns total lossless} in
/-- A call takes effect in a step, or none does and the state is left to the rest of the system. -/
lemma effect_step {program : Q → Program Op Res ε β} {init : σ → Prop} {other : σ → σ → Prop}
    {cond : Multiset (Program (Event Q Op (Except ε β)) (Event.Res Res) ε Unit) →
      (e : Event Q Op (Except ε β)) → Journal σ Q Op Res ε β → Except ε (e.Res Res) → Prop}
    {s t : Pool (Journal σ Q Op Res ε β) (Event Q Op (Except ε β)) (Event.Res Res) ε}
    {l : Label (Event Q Op (Except ε β)) (Event.Res Res) ε}
    (h : (system (sessions Returns total lossless program init other cond)).Step s l t) :
    (t.world.effects = s.world.effects ∧
      (t.world.state = s.world.state ∨ other s.world.state t.world.state)) ∨
    ∃ n op k rest, s.threads = .await (.call n op) k ::ₘ rest ∧
      (∃ v, Returns op s.world.state v t.world.state) ∧
        t.world.effects = s.world.effects ++ [⟨n, op, s.world.state⟩] := by
  cases l with
  | call e r =>
    obtain ⟨k, rest, hs, -, henv, -⟩ := h
    cases e with
    | call n op =>
      rcases happens_call henv with ⟨hstate, heffects⟩ | ⟨hreturns, heffects⟩
      · exact .inl ⟨heffects, .inl hstate⟩
      · exact .inr ⟨n, op, k, rest, hs, hreturns, heffects⟩
    | begin n q =>
      obtain ⟨-, -, hw⟩ := henv
      rw [hw]
      exact .inl ⟨rfl, .inl rfl⟩
    | finish n a =>
      obtain ⟨-, hw⟩ := henv
      rw [hw]
      exact .inl ⟨rfl, .inl rfl⟩
  | start p =>
    obtain ⟨-, hw, -⟩ := h
    rw [hw]
    exact .inl ⟨rfl, .inl rfl⟩
  | world =>
    obtain ⟨⟨-, heffects, hother⟩, -⟩ := h
    exact .inl ⟨heffects, .inr hother⟩

/-! ### What a session has missed -/

/-- An effect of `P` has happened, and the session `n` has not looked since. -/
def Missed (P : Effect σ Op → Prop) (looks : Op → Prop) (n : ℕ) (effects : List (Effect σ Op)) : Prop :=
  ∃ l₁ e l₂, effects = l₁ ++ e :: l₂ ∧ P e ∧ ∀ e' ∈ l₂, e'.session = n → ¬looks e'.op

section Missed

variable {P : Effect σ Op → Prop} {looks : Op → Prop} {n : ℕ} {effects : List (Effect σ Op)}
  {e : Effect σ Op}

lemma missed_snoc : Missed P looks n (effects ++ [e]) ↔
    P e ∨ Missed P looks n effects ∧ (e.session = n → ¬looks e.op) := by
  rw [Missed, Transition.exists_split_snoc]
  refine or_congr (by simp) ⟨?_, ?_⟩
  · rintro ⟨l₁, e', l₂, heq, hP, hnot⟩
    exact ⟨⟨l₁, e', l₂, heq, hP, fun e'' h => hnot e'' (List.mem_append_left _ h)⟩, hnot e (by simp)⟩
  · rintro ⟨⟨l₁, e', l₂, heq, hP, hnot⟩, hlast⟩
    refine ⟨l₁, e', l₂, heq, hP, fun e'' h => ?_⟩
    rcases List.mem_append.mp h with h | h
    · exact hnot e'' h
    · obtain rfl := List.mem_singleton.mp h
      exact hlast

lemma Missed.exists_mem (h : Missed P looks n effects) : ∃ e ∈ effects, P e := by
  obtain ⟨l₁, e, l₂, rfl, hP, -⟩ := h
  exact ⟨e, by simp, hP⟩

end Missed

/-! ### Forgetting the sessions -/

section Forget

variable {Returns total lossless}

/-- The program without its beginning, its end and the numbers of its calls. -/
def Program.forget {α : Type} :
    Program (Event Q Op (Except ε β)) (Event.Res Res) ε α → Program Op Res ε α
  | .done r => .done r
  | .await (.call _ op) k => .await op fun r => (k r).forget
  | .await (.begin _ _) k => (k (.ok ())).forget
  | .await (.finish _ _) k => (k (.ok ())).forget

/-- The program without its result. -/
def Program.discard (p : Program Op Res ε β) : Program Op Res ε Unit := p.bind fun _ => .done (.ok ())

lemma discard_unit (p : Program Op Res ε Unit) : p.discard = p := by
  induction p with
  | done r =>
    cases r with
    | ok a => rfl
    | error e => rfl
  | await op k ih =>
    show Program.await op (fun r => (k r).discard) = _
    simp only [ih]

/-- What is left of a session is the program that it was asked for. -/
lemma forget_session (n : ℕ) (q : Q) (p : Program Op Res ε β) :
    (session n q p).forget = p.discard := by
  show (((p.within n).attempt.bind fun a =>
    .await (.finish n a) fun _ => .done (a.map fun _ => ())) :
      Program (Event Q Op (Except ε β)) (Event.Res Res) ε Unit).forget = _
  induction p with
  | done r =>
    cases r with
    | ok a => rfl
    | error e => rfl
  | await op k ih =>
    show Program.await op _ = Program.await op fun r => (k r).discard
    congr 1
    funext r
    exact ih r

/-- The answers to the calls. -/
def Journal.forget (w : Journal σ Q Op Res ε β) : Logged σ Op Res ε where
  state := w.state
  calls := w.entries.filterMap fun e => match e with
    | ⟨.call _ op, r⟩ => some ⟨op, r⟩
    | _ => none

variable {program : Q → Program Op Res ε β} {init : σ → Prop} {other : σ → σ → Prop}
  {cond : Multiset (Program (Event Q Op (Except ε β)) (Event.Res Res) ε Unit) →
    (e : Event Q Op (Except ε β)) → Journal σ Q Op Res ε β → Except ε (e.Res Res) → Prop}
  {S : Setting (Logged σ Op Res ε) Op Res ε}

/-- A setting of bare programs in which everything may happen that may happen in sessions. -/
structure Covers (S : Setting (Logged σ Op Res ε) Op Res ε)
    (Returns : (op : Op) → σ → Res op → σ → Prop) (total : Op → Prop)
    (program : Q → Program Op Res ε β) (init : σ → Prop) (other : σ → σ → Prop) : Prop where
  init : ∀ s, init s → S.init { state := s }
  env : ∀ op w r w', faulty Returns total op w r w' → S.env op w r w'
  cond : ∀ rest op w r, S.cond rest op w r
  start : ∀ w q, S.start w (program q).discard
  world : ∀ w w', w'.calls = w.calls → other w.state w'.state → S.world w w'

lemma faulty_of_happens {n : ℕ} {op : Op} {w w' : Journal σ Q Op Res ε β} {r : Except ε (Res op)}
    (h : happens Returns total lossless (.call n op) w r w') :
    faulty Returns total op w.forget r w'.forget := by
  refine ⟨?_, ?_⟩
  · simp [Journal.forget, happens_entries h]
  · obtain ⟨-, h⟩ := h
    cases r with
    | ok v => exact h.1
    | error e => exact ⟨h.1, h.2.imp And.left fun h => h.2.1⟩

/-- **Simulation.** A pool of sessions, with the sessions forgotten, is a pool of their programs. -/
theorem reachable_forget (hS : Covers S Returns total program init other)
    {s : Pool (Journal σ Q Op Res ε β) (Event Q Op (Except ε β)) (Event.Res Res) ε}
    (h : (system (sessions Returns total lossless program init other cond)).Reachable s) :
    (system S).Reachable ⟨s.world.forget, s.threads.map Program.forget⟩ := by
  refine h.invariant (P := fun s => (system S).Reachable
    ⟨s.world.forget, s.threads.map Program.forget⟩) ?_ ?_
  · rintro s ⟨⟨hinit, hentries, -⟩, hthreads⟩
    refine .init ⟨?_, by rw [hthreads]; rfl⟩
    have hforget : s.world.forget = { state := s.world.state } := by
      simp [Journal.forget, hentries]
    rw [hforget]
    exact hS.init _ hinit
  · rintro s l t - ih hstep
    cases l with
    | call e r =>
      obtain ⟨k, rest, hs, -, henv, ht⟩ := hstep
      rw [hs, Multiset.map_cons] at ih
      rw [ht, Multiset.map_cons]
      cases e with
      | call n op =>
        exact ih.step (l := .call op r)
          ⟨_, _, rfl, hS.cond _ _ _ _, hS.env _ _ _ _ (faulty_of_happens henv), rfl⟩
      | begin n q =>
        obtain ⟨rfl, -, hw⟩ := henv
        have hforget : t.world.forget = s.world.forget := by simp [hw, Journal.forget]
        rw [hforget]
        exact ih
      | finish n a =>
        obtain ⟨rfl, hw⟩ := henv
        have hforget : t.world.forget = s.world.forget := by simp [hw, Journal.forget]
        rw [hforget]
        exact ih
    | start p =>
      obtain ⟨⟨n, q, rfl⟩, hw, ht⟩ := hstep
      rw [hw, ht, Multiset.map_cons, forget_session]
      exact reachable_start ih (hS.start _ q)
    | world =>
      obtain ⟨⟨hentries, -, hother⟩, ht⟩ := hstep
      rw [ht]
      refine reachable_world ih (hS.world _ _ ?_ hother)
      rw [Journal.forget, hentries]
      rfl

end Forget

/-! ### Safe sessions -/

variable {Returns total lossless} {L : Type}
  {D : Discipline (Journal σ Q Op Res ε β) (Event Q Op (Except ε β)) (Event.Res Res) ε L}

/-- What a discipline asks of the calls of the session `n`. -/
def Discipline.at
    (D : Discipline (Journal σ Q Op Res ε β) (Event Q Op (Except ε β)) (Event.Res Res) ε L) (n : ℕ) :
    Discipline (Journal σ Q Op Res ε β) Op Res ε L where
  env op := D.env (.call n op)
  inv := D.inv
  link ℓ op := D.link ℓ (.call n op)
  allowed f op := D.allowed f (.call n op)
  halt := D.halt

lemma safe_within {α : Type} {n : ℕ} {p : Program Op Res ε α} {ℓ : L} {E : Except ε α → L → Prop}
    (h : Safe (D.at n) p ℓ E) : Safe D (p.within n) ℓ E := by
  induction p generalizing ℓ with
  | done r => exact h
  | await op k ih =>
    refine ⟨h.1, fun w f r w' hinv hallowed henv => ?_⟩
    obtain ⟨ℓ', hinv', hk⟩ := h.2 w f r w' hinv hallowed henv
    exact ⟨ℓ', hinv', ih r hk⟩

/-- The outcome of a program may be told in every ghost state in which it ends. -/
def Tells (D : Discipline (Journal σ Q Op Res ε β) (Event Q Op (Except ε β)) (Event.Res Res) ε L)
    (n : ℕ) (a : Except ε β) (ℓ : L) : Prop :=
  D.link ℓ (.finish n a) ∧ ∀ w f r w', D.inv w (ℓ ::ₘ f) → D.allowed f (.finish n a) w r →
    D.env (.finish n a) w r w' → ∃ ℓ', D.inv w' (ℓ' ::ₘ f) ∧ D.halt ℓ'

lemma safe_finish {n : ℕ} {p : Program (Event Q Op (Except ε β)) (Event.Res Res) ε β} {ℓ : L}
    (h : Safe D p ℓ (Tells D n)) :
    Safely D (p.attempt.bind fun a => .await (.finish n a) fun _ => .done (a.map fun _ => ())) ℓ := by
  induction p generalizing ℓ with
  | done a => exact h
  | await e k ih =>
    refine ⟨h.1, fun w f r w' hinv hallowed henv => ?_⟩
    obtain ⟨ℓ', hinv', hk⟩ := h.2 w f r w' hinv hallowed henv
    exact ⟨ℓ', hinv', ih r hk⟩

/-- A session is safe if its beginning leads to a ghost state from which its program is safe. -/
lemma safe_session {n : ℕ} {q : Q} {p : Program Op Res ε β} {ℓ : L} (hlink : D.link ℓ (.begin n q))
    (hbegin : ∀ w f r w', D.inv w (ℓ ::ₘ f) → D.allowed f (.begin n q) w r →
      D.env (.begin n q) w r w' →
        ∃ ℓ', D.inv w' (ℓ' ::ₘ f) ∧ Safe (D.at n) p ℓ' (Tells D n)) :
    Safely D (session n q p) ℓ := by
  refine ⟨hlink, fun w f r w' hinv hallowed henv => ?_⟩
  obtain ⟨ℓ', hinv', hp⟩ := hbegin w f r w' hinv hallowed henv
  exact ⟨ℓ', hinv', safe_finish (safe_within hp)⟩

/-! ### Playing a session -/

/-- A handler of calls as a handler of events. -/
def journalled (h : (op : Op) → σ → Except ε (Res op) × σ) :
    (e : Event Q Op (Except ε β)) → Journal σ Q Op Res ε β →
      Except ε (e.Res Res) × Journal σ Q Op Res ε β
  | .begin n q, w => (.ok (), { w with entries := w.entries ++ [⟨.begin n q, .ok ()⟩] })
  | .call n op, w =>
    match h op w.state with
    | (.ok v, s) => (.ok v,
        { state := s, entries := w.entries ++ [⟨.call n op, .ok v⟩]
          effects := w.effects ++ [⟨n, op, w.state⟩] })
    | (.error e, _) => (.error e, { w with entries := w.entries ++ [⟨.call n op, .error e⟩] })
  | .finish n a, w => (.ok (), { w with entries := w.entries ++ [⟨.finish n a, .ok ()⟩] })

/-- The number is in use. -/
def Journal.used (w : Journal σ Q Op Res ε β) (n : ℕ) : Bool :=
  w.entries.any fun e => match e.1 with
    | .begin m _ => m = n
    | _ => false

lemma Journal.not_begun {w : Journal σ Q Op Res ε β} {n : ℕ} (h : w.used n = false) (q : Q) :
    ¬w.Begun n q := by
  intro hbegun
  have hused : w.used n := List.any_eq_true.mpr ⟨_, hbegun, decide_eq_true rfl⟩
  rw [h] at hused
  cases hused

/-- No number is used twice. -/
def unused : (e : Event Q Op (Except ε β)) → Journal σ Q Op Res ε β → Bool
  | .begin n _, w => !w.used n
  | _, _ => true

/-- An answer that the environment may give. -/
def Played (Returns : (op : Op) → σ → Res op → σ → Prop) (total : Op → Prop) (op : Op) (s : σ) :
    Except ε (Res op) × σ → Prop
  | (.ok v, s') => Returns op s v s'
  | (.error _, _) => ¬total op

/-- Playing a session is a way for it to happen. -/
lemma happens_journalled {h : (op : Op) → σ → Except ε (Res op) × σ}
    (hh : ∀ op s, Played Returns total op s (h op s))
    {e : Event Q Op (Except ε β)} {w : Journal σ Q Op Res ε β} (hunused : unused e w) :
    happens Returns total lossless e w (journalled h e w).1 (journalled h e w).2 := by
  cases e with
  | begin n q => exact ⟨rfl, w.not_begun (by simpa [unused] using hunused), rfl⟩
  | finish n a => exact ⟨rfl, rfl⟩
  | call n op =>
    have hop := hh op w.state
    rw [journalled]
    generalize h op w.state = r at hop
    obtain ⟨r, s⟩ := r
    cases r with
    | ok v => exact ⟨rfl, hop, rfl⟩
    | error e => exact ⟨rfl, hop, .inl ⟨rfl, rfl⟩⟩

section Playing

variable {program : Q → Program Op Res ε β} {init : σ → Prop} {other : σ → σ → Prop}
  {cond : Multiset (Program (Event Q Op (Except ε β)) (Event.Res Res) ε Unit) →
    (e : Event Q Op (Except ε β)) → Journal σ Q Op Res ε β → Except ε (e.Res Res) → Prop}
  {h : (op : Op) → σ → Except ε (Res op) × σ} {w : Journal σ Q Op Res ε β}
  {p : Program (Event Q Op (Except ε β)) (Event.Res Res) ε Unit}
  {threads : Multiset (Program (Event Q Op (Except ε β)) (Event.Res Res) ε Unit)}
  {C : (e : Event Q Op (Except ε β)) → Journal σ Q Op Res ε β → Except ε (e.Res Res) → Bool}

/-- The next events of one session, while the others wait. -/
lemma run_journalled (hh : ∀ op s, Played Returns total op s (h op s))
    (hC : ∀ e w r, C e w r → unused e w ∧ cond threads e w r) {k : ℕ}
    (hcheck : p.checkFor (journalled h) C k w) :
    ∃ tr, (system (sessions Returns total lossless program init other cond)).Run
      ⟨w, p ::ₘ threads⟩ tr
      ⟨(p.runFor (journalled h) k w).2, (p.runFor (journalled h) k w).1 ::ₘ threads⟩ :=
  run_runFor (fun e w hCe => happens_journalled hh (hC e w _ hCe).1)
    (fun e w r hCe => (hC e w r hCe).2) hcheck

/-- One more session, and its first events. -/
lemma run_session (hh : ∀ op s, Played Returns total op s (h op s)) (hcond : ∀ e w r, cond threads e w r)
    {n : ℕ} {q : Q} {k : ℕ} (hcheck : (session n q (program q)).checkFor (journalled h)
      (fun e w _ => unused e w) k w) :
    ∃ tr, (system (sessions Returns total lossless program init other cond)).Run ⟨w, threads⟩ tr
      ⟨((session n q (program q)).runFor (journalled h) k w).2,
        ((session n q (program q)).runFor (journalled h) k w).1 ::ₘ threads⟩ := by
  have hplay : ∃ tr, (system (sessions Returns total lossless program init other cond)).Run
      ⟨w, session n q (program q) ::ₘ threads⟩ tr _ :=
    run_journalled hh (fun e w r h => ⟨h, hcond e w r⟩) hcheck
  obtain ⟨tr, hrun⟩ := hplay
  have hstart : (system (sessions Returns total lossless program init other cond)).Step ⟨w, threads⟩
      (.start (session n q (program q))) ⟨w, session n q (program q) ::ₘ threads⟩ :=
    ⟨⟨n, q, rfl⟩, rfl, rfl⟩
  exact ⟨_, (Transition.System.Run.single hstart).append hrun⟩

lemma reachable_journalled (hh : ∀ op s, Played Returns total op s (h op s))
    (hC : ∀ e w r, C e w r → unused e w ∧ cond threads e w r) {k : ℕ}
    (hcheck : p.checkFor (journalled h) C k w)
    (hreach : (system (sessions Returns total lossless program init other cond)).Reachable
      ⟨w, p ::ₘ threads⟩) :
    (system (sessions Returns total lossless program init other cond)).Reachable
      ⟨(p.runFor (journalled h) k w).2, (p.runFor (journalled h) k w).1 ::ₘ threads⟩ := by
  have hplay : ∃ tr, (system (sessions Returns total lossless program init other cond)).Run
      ⟨w, p ::ₘ threads⟩ tr _ := run_journalled hh hC hcheck
  obtain ⟨tr, hrun⟩ := hplay
  exact hreach.run hrun

end Playing

end Sessions

end Async
