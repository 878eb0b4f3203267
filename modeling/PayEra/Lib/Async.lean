import Mathlib.Data.Multiset.ZeroCons
import Mathlib.Data.Multiset.Fold
import PayEra.Lib.Transition

/-!
# Asynchronous programs and pools of them

A program is a tree of awaited calls: what it does between two calls is part of the continuation, so
it happens in one go, and everything else may happen while a call is out. A pool interleaves any
number of programs at their calls over one shared world.

The logic is the one for thread pools. Every thread carries a ghost state, one invariant relates the
world to the multiset of all ghost states, and a program is safe from a ghost state if each of its
calls can update it so that the invariant is kept, whatever the other threads' ghost states are. The
soundness theorem `reachable_sound` puts safe threads together.
-/

namespace Async

/-! ### Programs -/

/-- A result, or an awaited call and what comes after each of its answers. -/
inductive Program (Op : Type) (Res : Op → Type) (ε α : Type) where
  | done (r : Except ε α)
  | await (op : Op) (k : Except ε (Res op) → Program Op Res ε α)

namespace Program

variable {Op : Type} {Res : Op → Type} {ε α β : Type}

def bind : Program Op Res ε α → (α → Program Op Res ε β) → Program Op Res ε β
  | .done (.ok a), f => f a
  | .done (.error e), _ => .done (.error e)
  | .await op k, f => .await op fun r => (k r).bind f

instance : Monad (Program Op Res ε) where
  pure a := .done (.ok a)
  bind := bind

/-- The outcome of a program as a value: the body of a `try`. -/
def attempt : Program Op Res ε α → Program Op Res ε (Except ε α)
  | .done r => .done (.ok r)
  | .await op k => .await op fun r => (k r).attempt

instance : MonadExcept ε (Program Op Res ε) where
  throw e := .done (.error e)
  tryCatch p h := p.attempt.bind fun
    | .ok a => .done (.ok a)
    | .error e => h e

/-- One call. -/
def perform (op : Op) : Program Op Res ε (Res op) := .await op .done

@[simp] lemma pure_def (a : α) : (pure a : Program Op Res ε α) = .done (.ok a) := rfl

@[simp] lemma throw_def (e : ε) : (throw e : Program Op Res ε α) = .done (.error e) := rfl

/-! ### Programs that make certain calls only -/

/-- Every call of the program is one of `P`. -/
def All (P : Op → Prop) : Program Op Res ε α → Prop
  | .done _ => True
  | .await op k => P op ∧ ∀ r, (k r).All P

variable {P : Op → Prop} {p : Program Op Res ε α} {f : α → Program Op Res ε β}

lemma all_pure (a : α) : (pure a : Program Op Res ε α).All P := trivial

lemma all_throw (e : ε) : (throw e : Program Op Res ε α).All P := trivial

lemma all_of (p : Program Op Res ε α) (h : ∀ op, P op) : p.All P := by
  induction p with
  | done r => trivial
  | await op k ih => exact ⟨h op, ih⟩

lemma all_perform {op : Op} (h : P op) : (perform op : Program Op Res ε _).All P :=
  ⟨h, fun _ => trivial⟩

lemma all_bind (hp : p.All P) (hf : ∀ a, (f a).All P) : (p >>= f).All P := by
  induction p with
  | done r =>
    cases r with
    | ok a => exact hf a
    | error e => exact all_throw e
  | await op k ih => exact ⟨hp.1, fun r => ih r (hp.2 r)⟩

lemma all_attempt (hp : p.All P) : p.attempt.All P := by
  induction p with
  | done r => trivial
  | await op k ih => exact ⟨hp.1, fun r => ih r (hp.2 r)⟩

lemma all_forM {l : List β} {g : β → Program Op Res ε PUnit} (h : ∀ b ∈ l, (g b).All P) :
    (l.forM g).All P := by
  induction l with
  | nil => exact all_pure _
  | cons b l ih =>
    refine all_bind (h b (List.mem_cons_self ..)) fun _ => ih fun c hc => ?_
    exact h c (List.mem_cons_of_mem b hc)

lemma all_foldlM {l : List β} {g : α → β → Program Op Res ε α} (h : ∀ a, ∀ b ∈ l, (g a b).All P)
    (a : α) : (l.foldlM g a).All P := by
  induction l generalizing a with
  | nil => exact all_pure _
  | cons b l ih =>
    refine all_bind (h a b (List.mem_cons_self ..)) fun c => ih (fun a d hd => ?_) c
    exact h a d (List.mem_cons_of_mem b hd)

lemma All.mono {P' : Op → Prop} (h : ∀ op, P op → P' op) (hp : p.All P) : p.All P' := by
  induction p with
  | done r => trivial
  | await op k ih => exact ⟨h op hp.1, fun r => ih r (hp.2 r)⟩

lemma All.and {P' : Op → Prop} (hp : p.All P) (hp' : p.All P') : p.All fun op => P op ∧ P' op := by
  induction p with
  | done r => trivial
  | await op k ih => exact ⟨⟨hp.1, hp'.1⟩, fun r => ih r (hp.2 r) (hp'.2 r)⟩

/-- The program makes a call, and the first one is one of `P`. -/
def First (P : Op → Prop) : Program Op Res ε α → Prop
  | .done _ => False
  | .await op _ => P op

/-! ### Programs that fail only when certain calls fail -/

/-- The program does not fail as long as no call outside `G` does; if `E`, it may fail anyhow. -/
def Resilient (G : Op → Prop) (E : Prop) : Program Op Res ε α → Prop
  | .done (.ok _) => True
  | .done (.error _) => E
  | .await op k => (∀ v, (k (.ok v)).Resilient G E) ∧ (G op → ∀ e, (k (.error e)).Resilient G E)

section Resilient

variable {G : Op → Prop} {E : Prop}

lemma resilient_pure (a : α) : (pure a : Program Op Res ε α).Resilient G E := trivial

/-- Every program may fail anyhow. -/
lemma resilient_any (p : Program Op Res ε α) : p.Resilient G True := by
  induction p with
  | done r =>
    cases r with
    | ok a => trivial
    | error e => trivial
  | await op k ih => exact ⟨fun v => ih _, fun _ e => ih _⟩

lemma resilient_perform {op : Op} (h : G op → E) : (perform op : Program Op Res ε _).Resilient G E :=
  ⟨fun _ => trivial, fun hop _ => h hop⟩

lemma resilient_bind (hp : p.Resilient G E) (hf : ∀ a, (f a).Resilient G E) :
    (p >>= f).Resilient G E := by
  induction p with
  | done r =>
    cases r with
    | ok a => exact hf a
    | error e => exact hp
  | await op k ih => exact ⟨fun v => ih _ (hp.1 v), fun hop e => ih _ (hp.2 hop e)⟩

/-- A `try` catches what may fail anyhow. -/
lemma resilient_attempt (hp : p.Resilient G True) : p.attempt.Resilient G E := by
  induction p with
  | done r => trivial
  | await op k ih => exact ⟨fun v => ih _ (hp.1 v), fun hop e => ih _ (hp.2 hop e)⟩

lemma resilient_foldlM {l : List β} {g : α → β → Program Op Res ε α}
    (h : ∀ a b, (g a b).Resilient G E) (a : α) : (l.foldlM g a).Resilient G E := by
  induction l generalizing a with
  | nil => exact resilient_pure _
  | cons b l ih => exact resilient_bind (h a b) fun c => ih c

end Resilient

/-! ### Programs that learn from the answers -/

section Tracked

variable {K : Type} {learn : K → (op : Op) → Except ε (Res op) → K} {may : K → Op → Prop}
  {Q : α → K → Prop} {κ : K}

/-- What the answers have taught so far allows every call, and the result. -/
def Tracked (learn : K → (op : Op) → Except ε (Res op) → K) (may : K → Op → Prop) :
    Program Op Res ε α → K → (α → K → Prop) → Prop
  | .done (.ok a), κ, Q => Q a κ
  | .done (.error _), _, _ => True
  | .await op k, κ, Q => may κ op ∧ ∀ r, (k r).Tracked learn may (learn κ op r) Q

lemma tracked_pure {a : α} (h : Q a κ) :
    (pure a : Program Op Res ε α).Tracked learn may κ Q := h

lemma tracked_perform {op : Op} {Q : Res op → K → Prop} (hop : may κ op)
    (h : ∀ v, Q v (learn κ op (.ok v))) :
    (perform op : Program Op Res ε (Res op)).Tracked learn may κ Q := by
  refine ⟨hop, fun r => ?_⟩
  cases r with
  | ok v => exact h v
  | error e => trivial

lemma tracked_bind {Q' : β → K → Prop} (hp : p.Tracked learn may κ Q)
    (hf : ∀ a κ, Q a κ → (f a).Tracked learn may κ Q') : (p >>= f).Tracked learn may κ Q' := by
  induction p generalizing κ with
  | done r =>
    cases r with
    | ok a => exact hf a κ hp
    | error e => trivial
  | await op k ih => exact ⟨hp.1, fun r => ih r (hp.2 r)⟩

/-- Calls that are always allowed. -/
lemma tracked_of_all (hp : p.All P) (hP : ∀ op, P op → ∀ κ, may κ op) (hQ : ∀ a κ, Q a κ) :
    p.Tracked learn may κ Q := by
  induction p generalizing κ with
  | done r =>
    cases r with
    | ok a => exact hQ a κ
    | error e => trivial
  | await op k ih => exact ⟨hP op hp.1 κ, fun r => ih r (hp.2 r)⟩

end Tracked

/-! ### A program on its own -/

section Handler

variable {ω : Type} (h : (op : Op) → ω → Except ε (Res op) × ω)

/-- The first `n` calls, answered at once by a handler: what is left of the program, and the
world. -/
def runFor : ℕ → Program Op Res ε α → ω → Program Op Res ε α × ω
  | 0, p, w => (p, w)
  | _ + 1, .done r, w => (.done r, w)
  | n + 1, .await op k, w => (k (h op w).1).runFor n (h op w).2

/-- The whole program, answered by a handler: its outcome, and the world. -/
def run : Program Op Res ε α → ω → Except ε α × ω
  | .done r, w => (r, w)
  | .await op k, w => (k (h op w).1).run (h op w).2

/-- A check of these answers. -/
def checkFor (C : (op : Op) → ω → Except ε (Res op) → Bool) : ℕ → Program Op Res ε α → ω → Bool
  | 0, _, _ => true
  | _ + 1, .done _, _ => true
  | n + 1, .await op k, w => C op w (h op w).1 && (k (h op w).1).checkFor C n (h op w).2

/-- Nothing to check. -/
lemma checkFor_true (n : ℕ) (p : Program Op Res ε α) (w : ω) :
    p.checkFor h (fun _ _ _ => true) n w := by
  induction n generalizing p w with
  | zero => rfl
  | succ n ih =>
    cases p with
    | done r => rfl
    | await op k =>
      show (true && (k (h op w).1).checkFor h (fun _ _ _ => true) n (h op w).2) = true
      rw [Bool.true_and]
      exact ih _ _

end Handler

end Program

open Program

/-! ### Pools -/

section Pool

variable {Op : Type} {Res : Op → Type} {ε ω : Type}

/-- The world and the programs in progress. -/
structure Pool (ω Op : Type) (Res : Op → Type) (ε : Type) where
  world : ω
  threads : Multiset (Program Op Res ε Unit)

/-- A call of some thread and its answer, a new thread, or something else that happens. -/
inductive Label (Op : Type) (Res : Op → Type) (ε : Type) where
  | call (op : Op) (r : Except ε (Res op))
  | start (p : Program Op Res ε Unit)
  | world

/-- What a pool runs in: how calls may be answered, with the threads that are in progress besides
the caller, what may be started, and what else may happen to the world. -/
structure Setting (ω Op : Type) (Res : Op → Type) (ε : Type) where
  init : ω → Prop
  env : (op : Op) → ω → Except ε (Res op) → ω → Prop
  cond : Multiset (Program Op Res ε Unit) → (op : Op) → ω → Except ε (Res op) → Prop
  start : ω → Program Op Res ε Unit → Prop
  world : ω → ω → Prop

/-- All interleavings at the calls. -/
def system (S : Setting ω Op Res ε) :
    Transition.System (Pool ω Op Res ε) (Label Op Res ε) where
  Init s := S.init s.world ∧ s.threads = 0
  Step s l t :=
    match l with
    | .call op r => ∃ k rest, s.threads = .await op k ::ₘ rest ∧ S.cond rest op s.world r ∧
        S.env op s.world r t.world ∧ t.threads = k r ::ₘ rest
    | .start p => S.start s.world p ∧ t.world = s.world ∧ t.threads = p ::ₘ s.threads
    | .world => S.world s.world t.world ∧ t.threads = s.threads

/-! ### Safe programs -/

/-- What the threads of a pool respect: the invariant of the world and of all ghost states, what the
next call of a thread in a ghost state can be, which answers are allowed given the other threads'
ghost states, and in which ghost states a thread may end. -/
structure Discipline (ω Op : Type) (Res : Op → Type) (ε L : Type) where
  env : (op : Op) → ω → Except ε (Res op) → ω → Prop
  inv : ω → Multiset L → Prop
  link : L → Op → Prop
  allowed : Multiset L → (op : Op) → ω → Except ε (Res op) → Prop
  halt : L → Prop

variable {L : Type} {D : Discipline ω Op Res ε L} {α β : Type}

/-- From the ghost state `ℓ` every call of the program keeps the invariant, and it ends in `Q`. -/
def Safe (D : Discipline ω Op Res ε L) :
    Program Op Res ε α → L → (Except ε α → L → Prop) → Prop
  | .done r, ℓ, Q => Q r ℓ
  | .await op k, ℓ, Q => D.link ℓ op ∧ ∀ w f r w', D.inv w (ℓ ::ₘ f) → D.allowed f op w r →
      D.env op w r w' → ∃ ℓ', D.inv w' (ℓ' ::ₘ f) ∧ Safe D (k r) ℓ' Q

variable {Q Q' : Except ε α → L → Prop} {ℓ : L} {p : Program Op Res ε α}

lemma Safe.mono (hQ : ∀ r ℓ, Q r ℓ → Q' r ℓ) (h : Safe D p ℓ Q) : Safe D p ℓ Q' := by
  induction p generalizing ℓ with
  | done r => exact hQ r ℓ h
  | await op k ih =>
    refine ⟨h.1, fun w f r w' hinv hallowed henv => ?_⟩
    obtain ⟨ℓ', hinv', hk⟩ := h.2 w f r w' hinv hallowed henv
    exact ⟨ℓ', hinv', ih r hk⟩

/-- A postcondition with a part for each way of ending. -/
def upon (R : α → L → Prop) (E : L → Prop) : Except ε α → L → Prop
  | .ok a, ℓ => R a ℓ
  | .error _, ℓ => E ℓ

variable {R : α → L → Prop} {R' : β → L → Prop} {E : L → Prop}

lemma Safe.weaken {R₁ : α → L → Prop} {E₁ : L → Prop} (h : Safe D p ℓ (upon R E))
    (hR : ∀ a ℓ, R a ℓ → R₁ a ℓ) (hE : ∀ ℓ, E ℓ → E₁ ℓ) : Safe D p ℓ (upon R₁ E₁) := by
  refine h.mono fun r ℓ hr => ?_
  cases r with
  | ok a => exact hR a ℓ hr
  | error e => exact hE ℓ hr

lemma safe_pure {a : α} (h : R a ℓ) : Safe D (pure a : Program Op Res ε α) ℓ (upon R E) := h

lemma safe_throw {e : ε} (h : E ℓ) : Safe D (throw e : Program Op Res ε α) ℓ (upon R E) := h

lemma safe_bind {f : α → Program Op Res ε β} (hp : Safe D p ℓ (upon R E))
    (hf : ∀ a ℓ, R a ℓ → Safe D (f a) ℓ (upon R' E)) : Safe D (p >>= f) ℓ (upon R' E) := by
  induction p generalizing ℓ with
  | done r =>
    cases r with
    | ok a => exact hf a ℓ hp
    | error e => exact hp
  | await op k ih =>
    refine ⟨hp.1, fun w f r w' hinv hallowed henv => ?_⟩
    obtain ⟨ℓ', hinv', hk⟩ := hp.2 w f r w' hinv hallowed henv
    exact ⟨ℓ', hinv', ih r hk⟩

/-- The body of a `try`, and what follows after either of its outcomes. -/
lemma safe_attempt {f : Except ε α → Program Op Res ε β} (hp : Safe D p ℓ (upon R E))
    {Q : Except ε β → L → Prop} (hok : ∀ a ℓ, R a ℓ → Safe D (f (.ok a)) ℓ Q)
    (herr : ∀ e ℓ, E ℓ → Safe D (f (.error e)) ℓ Q) : Safe D (p.attempt >>= f) ℓ Q := by
  induction p generalizing ℓ with
  | done r =>
    cases r with
    | ok a => exact hok a ℓ hp
    | error e => exact herr e ℓ hp
  | await op k ih =>
    refine ⟨hp.1, fun w f r w' hinv hallowed henv => ?_⟩
    obtain ⟨ℓ', hinv', hk⟩ := hp.2 w f r w' hinv hallowed henv
    exact ⟨ℓ', hinv', ih r hk⟩

/-- A loop whose body keeps a property of the ghost state. -/
lemma safe_forM {l : List β} {g : β → Program Op Res ε PUnit} {J : L → Prop} (hℓ : J ℓ)
    (hg : ∀ b ∈ l, ∀ ℓ, J ℓ → Safe D (g b) ℓ (upon (fun _ => J) E)) :
    Safe D (l.forM g) ℓ (upon (fun _ => J) E) := by
  induction l generalizing ℓ with
  | nil => exact hℓ
  | cons b l ih =>
    refine safe_bind (hg b (List.mem_cons_self ..) ℓ hℓ) fun _ ℓ' hℓ' => ih hℓ' fun c hc => ?_
    exact hg c (List.mem_cons_of_mem b hc)

/-- One call. -/
lemma safe_perform {op : Op} {Q : Except ε (Res op) → L → Prop} (hlink : D.link ℓ op)
    (h : ∀ w f r w', D.inv w (ℓ ::ₘ f) → D.allowed f op w r → D.env op w r w' →
      ∃ ℓ', D.inv w' (ℓ' ::ₘ f) ∧ Q r ℓ') : Safe D (perform op) ℓ Q :=
  ⟨hlink, h⟩

/-- Calls that keep the ghost state, one after the other. -/
lemma Safe.of_all {P : Op → Prop} (hp : p.All P) (hQ : ∀ r, Q r ℓ)
    (hkeep : ∀ op, P op → D.link ℓ op ∧ ∀ w f r w', D.inv w (ℓ ::ₘ f) → D.allowed f op w r →
      D.env op w r w' → D.inv w' (ℓ ::ₘ f)) : Safe D p ℓ Q := by
  induction p with
  | done r => exact hQ r
  | await op k ih =>
    obtain ⟨hlink, hstep⟩ := hkeep op hp.1
    refine ⟨hlink, fun w f r w' hinv hallowed henv => ?_⟩
    exact ⟨ℓ, hstep w f r w' hinv hallowed henv, ih r (hp.2 r)⟩

/-- Calls that keep the ghost state and fail in certain ways only. -/
lemma Safe.of_resilient {C G : Op → Prop} {F : Prop} (hp : p.All C) (hres : p.Resilient G F)
    (hok : ∀ a, Q (.ok a) ℓ) (herr : F → ∀ e, Q (.error e) ℓ)
    (hkeep : ∀ op, C op → D.link ℓ op ∧ ∀ w f r w', D.inv w (ℓ ::ₘ f) → D.allowed f op w r →
      D.env op w r w' → D.inv w' (ℓ ::ₘ f) ∧ ∀ e, r = .error e → G op) : Safe D p ℓ Q := by
  induction p with
  | done r =>
    cases r with
    | ok a => exact hok a
    | error e => exact herr hres e
  | await op k ih =>
    obtain ⟨hlink, hstep⟩ := hkeep op hp.1
    refine ⟨hlink, fun w f r w' hinv hallowed henv => ?_⟩
    obtain ⟨hinv', hfails⟩ := hstep w f r w' hinv hallowed henv
    refine ⟨ℓ, hinv', ih r (hp.2 r) ?_⟩
    cases r with
    | ok v => exact hres.1 v
    | error e => exact hres.2 (hfails e rfl) e

/-! ### Soundness -/

/-- A thread that is safe from a ghost state to its end. -/
abbrev Safely (D : Discipline ω Op Res ε L) (p : Program Op Res ε Unit) (ℓ : L) : Prop :=
  Safe D p ℓ fun _ ℓ => D.halt ℓ

variable {S : Setting ω Op Res ε}

/-- What ties a discipline to a setting. -/
structure Governs (D : Discipline ω Op Res ε L) (S : Setting ω Op Res ε) : Prop where
  env : ∀ op w r w', S.env op w r w' → D.env op w r w'
  init : ∀ w, S.init w → D.inv w 0
  start : ∀ w p, S.start w p → ∃ ℓ, Safely D p ℓ ∧ ∀ f, D.inv w f → D.inv w (ℓ ::ₘ f)
  world : ∀ w w' f, S.world w w' → D.inv w f → D.inv w' f
  cond : ∀ rest f op w r, Multiset.Rel (Safely D) rest f → S.cond rest op w r →
    D.allowed f op w r

/-- **Soundness.** In every reachable pool the threads are safe from ghost states that satisfy the
invariant together. -/
theorem reachable_sound (hD : Governs D S) {s : Pool ω Op Res ε}
    (h : (system S).Reachable s) :
    ∃ f, Multiset.Rel (Safely D) s.threads f ∧ D.inv s.world f := by
  refine h.invariant (P := fun s => ∃ f, Multiset.Rel (Safely D) s.threads f ∧
    D.inv s.world f) ?_ ?_
  · rintro s ⟨hinit, hthreads⟩
    exact ⟨0, by rw [hthreads]; exact .zero, hD.init _ hinit⟩
  · rintro s l t - ⟨f, hrel, hinv⟩ hstep
    cases l with
    | call op r =>
      obtain ⟨k, rest, hs, hcond, henv, ht⟩ := hstep
      rw [hs, Multiset.rel_cons_left] at hrel
      obtain ⟨ℓ, f', hsafe, hrest, rfl⟩ := hrel
      obtain ⟨ℓ', hinv', hk⟩ := hsafe.2 _ f' r _ hinv (hD.cond _ _ _ _ _ hrest hcond)
        (hD.env _ _ _ _ henv)
      exact ⟨ℓ' ::ₘ f', by rw [ht]; exact .cons hk hrest, hinv'⟩
    | start p =>
      obtain ⟨hstart, hw, ht⟩ := hstep
      obtain ⟨ℓ, hsafe, hadd⟩ := hD.start _ _ hstart
      exact ⟨ℓ ::ₘ f, by rw [ht]; exact .cons hsafe hrel, by rw [hw]; exact hadd f hinv⟩
    | world =>
      obtain ⟨hworld, ht⟩ := hstep
      exact ⟨f, by rw [ht]; exact hrel, hD.world _ _ _ hworld hinv⟩

/-- Where a thread of a reachable pool is about to make a call, it has a ghost state for it. -/
lemma ghost_of_call (hD : Governs D S) {s : Pool ω Op Res ε} (h : (system S).Reachable s)
    {op : Op} {k : Except ε (Res op) → Program Op Res ε Unit}
    {rest : Multiset (Program Op Res ε Unit)} (hs : s.threads = .await op k ::ₘ rest) :
    ∃ ℓ f, D.link ℓ op ∧ D.inv s.world (ℓ ::ₘ f) ∧ Multiset.Rel (Safely D) rest f := by
  obtain ⟨f, hrel, hinv⟩ := reachable_sound hD h
  rw [hs, Multiset.rel_cons_left] at hrel
  obtain ⟨ℓ, f', hsafe, hrest, rfl⟩ := hrel
  exact ⟨ℓ, f', hsafe.1, hinv, hrest⟩

/-- The next call of a program. -/
def Program.next : Program Op Res ε α → Option Op
  | .done _ => none
  | .await op _ => some op

/-- As many threads are about to make one of certain calls as there are ghost states for it. -/
lemma countP_next_le {P : Op → Bool} {G : L → Bool}
    (hlink : ∀ ℓ op, D.link ℓ op → P op → G ℓ)
    {threads : Multiset (Program Op Res ε Unit)} {f : Multiset L}
    (h : Multiset.Rel (Safely D) threads f) :
    threads.countP (fun p => p.next.any P) ≤ f.countP fun ℓ => G ℓ := by
  induction h with
  | zero => exact le_refl _
  | @cons p ℓ threads f hp hrest ih =>
    rw [Multiset.countP_cons, Multiset.countP_cons]
    have hhead : (if p.next.any P then 1 else 0) ≤ if G ℓ then 1 else 0 := by
      cases p with
      | done r => exact Nat.zero_le _
      | await op k =>
        by_cases hop : P op
        · rw [if_pos (hlink ℓ op hp.1 hop)]
          split_ifs <;> omega
        · rw [if_neg (by simpa [Program.next] using hop)]
          exact Nat.zero_le _
    omega

/-! ### A program that runs alone -/

section Alone

variable {h : (op : Op) → ω → Except ε (Res op) × ω} {α β : Type} {p : Program Op Res ε α} {w : ω}
  {R : α → ω → Prop} {R' : β → ω → Prop} {E : ω → Prop} {Q Q' : Except ε α → ω → Prop}

/-- Started in the world `w`, the program ends as `Q` says. -/
def Ends (h : (op : Op) → ω → Except ε (Res op) × ω) (p : Program Op Res ε α) (w : ω)
    (Q : Except ε α → ω → Prop) : Prop := Q (p.run h w).1 (p.run h w).2

lemma Ends.mono (hp : Ends h p w Q) (hQ : ∀ r w, Q r w → Q' r w) : Ends h p w Q' := hQ _ _ hp

lemma Ends.weaken {R₁ : α → ω → Prop} {E₁ : ω → Prop} (hp : Ends h p w (upon R E))
    (hR : ∀ a w, R a w → R₁ a w) (hE : ∀ w, E w → E₁ w) : Ends h p w (upon R₁ E₁) := by
  refine hp.mono fun r w hr => ?_
  cases r with
  | ok a => exact hR a w hr
  | error e => exact hE w hr

lemma ends_pure {a : α} (hQ : Q (.ok a) w) : Ends h (pure a) w Q := hQ

lemma ends_perform {op : Op} {Q : Except ε (Res op) → ω → Prop} (hQ : Q (h op w).1 (h op w).2) :
    Ends h (perform op) w Q := hQ

lemma ends_bind {f : α → Program Op Res ε β} (hp : Ends h p w (upon R E))
    (hf : ∀ a w, R a w → Ends h (f a) w (upon R' E)) : Ends h (p >>= f) w (upon R' E) := by
  induction p generalizing w with
  | done r =>
    cases r with
    | ok a => exact hf a w hp
    | error e => exact hp
  | await op k ih => exact ih _ hp

lemma ends_attempt {f : Except ε α → Program Op Res ε β} {Q : Except ε β → ω → Prop}
    (hp : Ends h p w (upon R E)) (hok : ∀ a w, R a w → Ends h (f (.ok a)) w Q)
    (herr : ∀ e w, E w → Ends h (f (.error e)) w Q) : Ends h (p.attempt >>= f) w Q := by
  induction p generalizing w with
  | done r =>
    cases r with
    | ok a => exact hok a w hp
    | error e => exact herr e w hp
  | await op k ih => exact ih _ hp

/-- Calls that keep a property of the world. -/
lemma ends_all {P : Op → Prop} {J : ω → Prop} (hp : p.All P) (hw : J w)
    (hkeep : ∀ op w, P op → J w → J (h op w).2) : Ends h p w fun _ => J := by
  induction p generalizing w with
  | done r => exact hw
  | await op k ih => exact ih _ (hp.2 _) (hkeep op w hp.1 hw)

end Alone

/-! ### Building runs -/

section Building

variable {w w' : ω} {rest : Multiset (Program Op Res ε Unit)} {p : Program Op Res ε Unit}
  {h : (op : Op) → ω → Except ε (Res op) × ω}

lemma reachable_start (hs : (system S).Reachable ⟨w, rest⟩) (hp : S.start w p) :
    (system S).Reachable ⟨w, p ::ₘ rest⟩ :=
  hs.step (l := .start p) ⟨hp, rfl, rfl⟩

lemma reachable_world (hs : (system S).Reachable ⟨w, rest⟩) (hw : S.world w w') :
    (system S).Reachable ⟨w', rest⟩ :=
  hs.step (l := .world) ⟨hw, rfl⟩

/-- One thread makes calls that a handler answers, while the others wait. What the answers have to
meet is checked on the way. -/
theorem run_runFor {C : (op : Op) → ω → Except ε (Res op) → Bool}
    (henv : ∀ op w, C op w (h op w).1 → S.env op w (h op w).1 (h op w).2)
    (hcond : ∀ op w r, C op w r → S.cond rest op w r) {n : ℕ} (hcheck : p.checkFor h C n w) :
    ∃ tr, (system S).Run ⟨w, p ::ₘ rest⟩ tr ⟨(p.runFor h n w).2, (p.runFor h n w).1 ::ₘ rest⟩ := by
  induction n generalizing p w with
  | zero => exact ⟨[], .nil _⟩
  | succ n ih =>
    cases p with
    | done r => exact ⟨[], .nil _⟩
    | await op k =>
      rw [Program.checkFor, Bool.and_eq_true] at hcheck
      have hstep : (system S).Step ⟨w, .await op k ::ₘ rest⟩ (.call op (h op w).1)
          ⟨(h op w).2, k (h op w).1 ::ₘ rest⟩ :=
        ⟨k, rest, rfl, hcond op w _ hcheck.1, henv op w hcheck.1, rfl⟩
      obtain ⟨tr, hrun⟩ := ih hcheck.2
      exact ⟨_, (Transition.System.Run.single hstep).append hrun⟩

lemma reachable_runFor {C : (op : Op) → ω → Except ε (Res op) → Bool}
    (henv : ∀ op w, C op w (h op w).1 → S.env op w (h op w).1 (h op w).2)
    (hcond : ∀ op w r, C op w r → S.cond rest op w r) {n : ℕ} (hcheck : p.checkFor h C n w)
    (hs : (system S).Reachable ⟨w, p ::ₘ rest⟩) :
    (system S).Reachable ⟨(p.runFor h n w).2, (p.runFor h n w).1 ::ₘ rest⟩ := by
  obtain ⟨tr, hrun⟩ := run_runFor (S := S) henv hcond hcheck
  exact hs.run hrun

end Building

end Pool

/-! ### Calls that may fail -/

section Logged

variable {σ Op : Type} {Res : Op → Type} {ε : Type}

/-- A state together with the calls made so far and their answers. -/
structure Logged (σ Op : Type) (Res : Op → Type) (ε : Type) where
  state : σ
  calls : List (Σ op, Except ε (Res op)) := []

/-- A call is logged, and returns or fails. A call that fails may have been refused, or its answer
may have been lost after it took effect; a `total` call does not fail. -/
def faulty (Returns : (op : Op) → σ → Res op → σ → Prop) (total : Op → Prop) (op : Op)
    (w : Logged σ Op Res ε) (r : Except ε (Res op)) (w' : Logged σ Op Res ε) : Prop :=
  w'.calls = w.calls ++ [⟨op, r⟩] ∧
    match r with
    | .ok v => Returns op w.state v w'.state
    | .error _ => ¬total op ∧ (w'.state = w.state ∨ ∃ v, Returns op w.state v w'.state)

/-- A call leaves the state as it was or has its effect. -/
lemma faulty_state {Returns : (op : Op) → σ → Res op → σ → Prop} {total : Op → Prop} {op : Op}
    {w w' : Logged σ Op Res ε} {r : Except ε (Res op)} (h : faulty Returns total op w r w') :
    w'.state = w.state ∨ ∃ v, Returns op w.state v w'.state := by
  obtain ⟨-, h⟩ := h
  cases r with
  | ok v => exact .inr ⟨v, h⟩
  | error e => exact h.2

end Logged

end Async
