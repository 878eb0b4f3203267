import PayEra.Lib.Async

/-!
# Executions

Every way in which one program can be executed from beginning to end, with its calls: what each was
answered, whether it took effect, and the states around it. After every call the rest of the system
may act. The rules take an execution apart along the program.
-/

namespace Async

section Executions

variable {σ Op : Type} {Res : Op → Type} {ε α β : Type}

/-- A call of an execution. -/
structure Attempt (σ Op : Type) (Res : Op → Type) (ε : Type) where
  op : Op
  answer : Except ε (Res op)
  took : Bool
  found : σ
  left : σ

/-- A call that returns has its effect, and one that fails may have it too. -/
def Attempt.Goes (Returns : (op : Op) → σ → Res op → σ → Prop) (total : Op → Prop)
    (a : Attempt σ Op Res ε) : Prop :=
  match a.answer with
  | .ok v => a.took = true ∧ Returns a.op a.found v a.left
  | .error _ => ¬total a.op ∧ (a.took = false ∧ a.left = a.found ∨
      a.took = true ∧ ∃ v, Returns a.op a.found v a.left)

variable (Returns : (op : Op) → σ → Res op → σ → Prop) (total : Op → Prop) (other : σ → σ → Prop)

inductive Executes : Program Op Res ε α → σ → List (Attempt σ Op Res ε) → Except ε α → σ → Prop
  | done (r : Except ε α) (s : σ) : Executes (.done r) s [] r s
  | await {op : Op} {k : Except ε (Res op) → Program Op Res ε α} {r : Except ε (Res op)} {took : Bool}
      {s s₁ s₂ s' : σ} {tr : List (Attempt σ Op Res ε)} {res : Except ε α}
      (hgoes : Attempt.Goes Returns total ⟨op, r, took, s, s₁⟩) (hother : other s₁ s₂)
      (hrest : Executes (k r) s₂ tr res s') :
      Executes (.await op k) s (⟨op, r, took, s, s₁⟩ :: tr) res s'

variable {Returns total other} {p : Program Op Res ε α} {f : α → Program Op Res ε β}
  {s s' : σ} {tr : List (Attempt σ Op Res ε)} {a : Attempt σ Op Res ε}

/-- A call leaves the state as it was or has its effect. -/
lemma Attempt.Goes.left (h : a.Goes Returns total) :
    a.left = a.found ∨ a.took = true ∧ ∃ v, Returns a.op a.found v a.left := by
  rw [Attempt.Goes] at h
  split at h
  · exact .inr ⟨h.1, _, h.2⟩
  · exact h.2.imp And.right id

namespace Executes

/-! ### Taking an execution apart -/

lemma of_done {r r' : Except ε α} (h : Executes Returns total other (.done r) s tr r' s') :
    tr = [] ∧ r' = r ∧ s' = s := by
  cases h
  exact ⟨rfl, rfl, rfl⟩

lemma of_perform {op : Op} {r : Except ε (Res op)}
    (h : Executes Returns total other (Program.perform op) s tr r s') : ∃ took s₁,
      tr = [⟨op, r, took, s, s₁⟩] ∧ Attempt.Goes Returns total ⟨op, r, took, s, s₁⟩ ∧ other s₁ s' := by
  cases h with
  | await hgoes hother hrest =>
    obtain ⟨rfl, rfl, rfl⟩ := hrest.of_done
    exact ⟨_, _, rfl, hgoes, hother⟩

lemma of_bind {r : Except ε β} (h : Executes Returns total other (p >>= f) s tr r s') :
    (∃ a s₁ tr₁ tr₂, tr = tr₁ ++ tr₂ ∧ Executes Returns total other p s tr₁ (.ok a) s₁ ∧
      Executes Returns total other (f a) s₁ tr₂ r s') ∨
    ∃ e, r = .error e ∧ Executes Returns total other p s tr (.error e) s' := by
  induction p generalizing s tr with
  | done r₁ =>
    cases r₁ with
    | ok a => exact .inl ⟨a, s, [], tr, rfl, .done _ _, h⟩
    | error e =>
      obtain ⟨rfl, rfl, rfl⟩ := of_done h
      exact .inr ⟨e, rfl, .done _ _⟩
  | await op k ih =>
    cases h with
    | await hgoes hother hrest =>
      rcases ih _ hrest with ⟨a, s₁, tr₁, tr₂, rfl, hp, hf⟩ | ⟨e, rfl, hp⟩
      · exact .inl ⟨a, s₁, _ :: tr₁, tr₂, rfl, .await hgoes hother hp, hf⟩
      · exact .inr ⟨e, rfl, .await hgoes hother hp⟩

lemma of_bind_ok {b : β} (h : Executes Returns total other (p >>= f) s tr (.ok b) s') :
    ∃ a s₁ tr₁ tr₂, tr = tr₁ ++ tr₂ ∧ Executes Returns total other p s tr₁ (.ok a) s₁ ∧
      Executes Returns total other (f a) s₁ tr₂ (.ok b) s' := by
  rcases h.of_bind with hok | ⟨e, he, -⟩
  · exact hok
  · cases he

/-- A call and what comes after it: it fails and nothing does, or the rest goes on from what was
returned. -/
lemma of_perform_bind {op : Op} {g : Res op → Program Op Res ε β} {r : Except ε β}
    (h : Executes Returns total other (Program.perform op >>= g) s tr r s') :
    (∃ v s₁ s₂ tr', tr = ⟨op, .ok v, true, s, s₁⟩ :: tr' ∧ Returns op s v s₁ ∧ other s₁ s₂ ∧
      Executes Returns total other (g v) s₂ tr' r s') ∨
    ∃ e took s₁, r = .error e ∧ tr = [⟨op, .error e, took, s, s₁⟩] ∧
      Attempt.Goes Returns total ⟨op, .error e, took, s, s₁⟩ ∧ other s₁ s' := by
  rcases h.of_bind with ⟨v, s₂, tr₁, tr₂, rfl, hp, hg⟩ | ⟨e, rfl, hp⟩
  · obtain ⟨took, s₁, rfl, hgoes, hother⟩ := hp.of_perform
    obtain ⟨rfl, hreturns⟩ := hgoes
    exact .inl ⟨v, s₁, s₂, tr₂, rfl, hreturns, hother, hg⟩
  · obtain ⟨took, s₁, rfl, hgoes, hother⟩ := hp.of_perform
    exact .inr ⟨e, took, s₁, rfl, rfl, hgoes, hother⟩

/-- A call that returns, and what comes after it. -/
lemma perform_bind {op : Op} {v : Res op} {g : Res op → Program Op Res ε β} {s₁ s₂ : σ} {r : Except ε β}
    (hreturns : Returns op s v s₁) (hother : other s₁ s₂)
    (hrest : Executes Returns total other (g v) s₂ tr r s') :
    Executes Returns total other (Program.perform op >>= g) s (⟨op, .ok v, true, s, s₁⟩ :: tr) r s' :=
  .await ⟨rfl, hreturns⟩ hother hrest

lemma of_attempt {r : Except ε (Except ε α)} (h : Executes Returns total other p.attempt s tr r s') :
    ∃ r', r = .ok r' ∧ Executes Returns total other p s tr r' s' := by
  induction p generalizing s tr with
  | done r₁ =>
    obtain ⟨rfl, rfl, rfl⟩ := of_done h
    exact ⟨r₁, rfl, .done _ _⟩
  | await op k ih =>
    cases h with
    | await hgoes hother hrest =>
      obtain ⟨r', rfl, hp⟩ := ih _ hrest
      exact ⟨r', rfl, .await hgoes hother hp⟩

/-- The body of a `try` has one outcome, and the rest goes on from it. -/
lemma of_attempt_bind {g : Except ε α → Program Op Res ε β} {r : Except ε β}
    (h : Executes Returns total other (p.attempt >>= g) s tr r s') : ∃ r₁ s₁ tr₁ tr₂,
      tr = tr₁ ++ tr₂ ∧ Executes Returns total other p s tr₁ r₁ s₁ ∧
        Executes Returns total other (g r₁) s₁ tr₂ r s' := by
  rcases h.of_bind with ⟨a, s₁, tr₁, tr₂, rfl, hp, hg⟩ | ⟨e, rfl, hp⟩
  · obtain ⟨r₁, heq, hp⟩ := hp.of_attempt
    cases heq
    exact ⟨a, s₁, tr₁, tr₂, rfl, hp, hg⟩
  · obtain ⟨r₁, heq, -⟩ := hp.of_attempt
    cases heq

/-! ### All calls of an execution -/

lemma all {P : Op → Prop} {r : Except ε α} (h : Executes Returns total other p s tr r s')
    (hp : p.All P) : ∀ a ∈ tr, P a.op := by
  induction h with
  | done r s =>
    intro a ha
    cases ha
  | await hgoes hother hrest ih =>
    intro a ha
    rcases List.mem_cons.mp ha with rfl | ha
    · exact hp.1
    · exact ih (hp.2 _) a ha

lemma goes {r : Except ε α} (h : Executes Returns total other p s tr r s') :
    ∀ a ∈ tr, a.Goes Returns total := by
  induction h with
  | done r s =>
    intro a ha
    cases ha
  | await hgoes hother hrest ih =>
    intro a ha
    rcases List.mem_cons.mp ha with rfl | ha
    · exact hgoes
    · exact ih a ha

/-- What the calls and the rest of the system keep. -/
lemma keeps {J : σ → Prop} {r : Except ε α} (h : Executes Returns total other p s tr r s')
    (hcall : ∀ a ∈ tr, a.Goes Returns total → J a.found → J a.left)
    (hother : ∀ s s', other s s' → J s → J s') (hs : J s) : J s' := by
  induction h with
  | done r s => exact hs
  | await hgoes hoth hrest ih =>
    refine ih (fun a ha => hcall a (List.mem_cons_of_mem _ ha)) ?_
    exact hother _ _ hoth (hcall _ (List.mem_cons_self ..) hgoes hs)

end Executes

/-! ### Loops -/

/-- One time around a loop, with what its body has returned or thrown. -/
structure Pass (σ Op : Type) (Res : Op → Type) (ε α β : Type) where
  item : β
  requests : List (Attempt σ Op Res ε)
  result : Except ε α
  found : σ
  left : σ

/-- The passes of a loop that catches what its body throws. -/
inductive Passes (Returns : (op : Op) → σ → Res op → σ → Prop) (total : Op → Prop)
    (other : σ → σ → Prop) (g : β → Program Op Res ε α) :
    List β → σ → List (Pass σ Op Res ε α β) → σ → Prop
  | nil (s : σ) : Passes Returns total other g [] s [] s
  | cons {b : β} {l : List β} {s s₁ s' : σ} {tr : List (Attempt σ Op Res ε)} {r : Except ε α}
      {passes : List (Pass σ Op Res ε α β)} (hpass : Executes Returns total other (g b) s tr r s₁)
      (hrest : Passes Returns total other g l s₁ passes s') :
      Passes Returns total other g (b :: l) s (⟨b, tr, r, s, s₁⟩ :: passes) s'

lemma Passes.items {g : β → Program Op Res ε α} {l : List β}
    {passes : List (Pass σ Op Res ε α β)} (h : Passes Returns total other g l s passes s') :
    passes.map (·.item) = l := by
  induction h with
  | nil => rfl
  | cons hpass hrest ih => rw [List.map_cons, ih]

/-- A loop that catches what its body throws goes through the whole list. -/
lemma Executes.of_forM_attempt {g : β → Program Op Res ε α} {l : List β} {r : Except ε PUnit}
    (h : Executes Returns total other (l.forM fun b => do let _ ← (g b).attempt) s tr r s') :
    r = .ok () ∧ ∃ passes, Passes Returns total other g l s passes s' ∧
      tr = passes.flatMap (·.requests) := by
  induction l generalizing s tr with
  | nil =>
    obtain ⟨rfl, rfl, rfl⟩ := h.of_done
    exact ⟨rfl, [], .nil _, rfl⟩
  | cons b l ih =>
    change Executes Returns total other ((do let _ ← (g b).attempt) >>= fun _ =>
      l.forM fun b => do let _ ← (g b).attempt) s tr r s' at h
    rcases h.of_bind with ⟨_, s₁, tr₁, tr₂, rfl, hbody, hrest⟩ | ⟨e, rfl, hbody⟩
    · obtain ⟨r₁, s₂, tr₃, tr₄, rfl, hpass, hdone⟩ := hbody.of_attempt_bind
      obtain ⟨rfl, -, rfl⟩ := hdone.of_done
      obtain ⟨hr, passes, hpasses, rfl⟩ := ih hrest
      refine ⟨hr, _, .cons hpass hpasses, ?_⟩
      rw [List.append_nil, List.flatMap_cons]
    · obtain ⟨r₁, s₂, tr₃, tr₄, -, -, hdone⟩ := hbody.of_attempt_bind
      obtain ⟨-, heq, -⟩ := hdone.of_done
      cases heq

/-- Requests are served one after another. -/
def oneByOne {Q : Type} (Returns : (op : Op) → σ → Res op → σ → Prop) (total : Op → Prop)
    (other : σ → σ → Prop) (init : σ → Prop) (asked : Q → Prop) (program : Q → Program Op Res ε α) :
    Transition.System σ (Q × List (Attempt σ Op Res ε)) where
  Init := init
  Step s l s' := asked l.1 ∧ ∃ r, Executes Returns total other (program l.1) s l.2 r s'

/-! ### Programs without a `try` -/

/-- The program fails when one of its calls does, and only then. -/
def Program.Straight : Program Op Res ε α → Prop
  | .done r => r.isOk = true
  | .await _ k => (∀ v, (k (.ok v)).Straight) ∧ ∀ e, ∃ e', k (.error e) = .done (.error e')

lemma Program.straight_pure (a : α) : (pure a : Program Op Res ε α).Straight := rfl

lemma Program.straight_perform (op : Op) : (Program.perform op : Program Op Res ε _).Straight :=
  ⟨fun _ => rfl, fun e => ⟨e, rfl⟩⟩

lemma Program.straight_bind (hp : p.Straight) (hf : ∀ a, (f a).Straight) : (p >>= f).Straight := by
  induction p with
  | done r =>
    cases r with
    | ok a => exact hf a
    | error e => cases hp
  | await op k ih =>
    refine ⟨fun v => ih _ (hp.1 v), fun e => ?_⟩
    obtain ⟨e', he'⟩ := hp.2 e
    exact ⟨e', congrArg (fun q : Program Op Res ε α => q.bind f) he'⟩

lemma Executes.isOk_iff {r : Except ε α} (h : Executes Returns total other p s tr r s')
    (hp : p.Straight) : r.isOk = true ↔ ∀ a ∈ tr, a.answer.isOk = true := by
  induction h with
  | done r s =>
    have hr : r.isOk = true := hp
    simp [hr]
  | @await op k r took s s₁ s₂ s' tr res hgoes hother hrest ih =>
    cases r with
    | ok v => simpa [Except.isOk, Except.toBool] using ih (hp.1 v)
    | error e =>
      obtain ⟨e', he'⟩ := hp.2 e
      rw [he'] at hrest
      obtain ⟨rfl, rfl, rfl⟩ := hrest.of_done
      simp [Except.isOk, Except.toBool]

/-! ### Playing an execution -/

section Playing

variable (h : (op : Op) → σ → Except ε (Res op) × Bool × σ)

/-- The calls of a program that a handler answers. -/
def Program.play : Program Op Res ε α → σ → List (Attempt σ Op Res ε) × Except ε α × σ
  | .done r, s => ([], r, s)
  | .await op k, s =>
    let rest := (k (h op s).1).play (h op s).2.2
    (⟨op, (h op s).1, (h op s).2.1, s, (h op s).2.2⟩ :: rest.1, rest.2)

lemma executes_play (p : Program Op Res ε α) (s : σ)
    (hgoes : ∀ op s, Attempt.Goes Returns total ⟨op, (h op s).1, (h op s).2.1, s, (h op s).2.2⟩)
    (hother : ∀ s, other s s) :
    Executes Returns total other p s (p.play h s).1 (p.play h s).2.1 (p.play h s).2.2 := by
  induction p generalizing s with
  | done r => exact .done r s
  | await op k ih => exact .await (hgoes op s) (hother _) (ih _ _)

/-- What was computed of a result was computed of one that is there. -/
lemma exists_ok_of_toOption {r : Except ε α} {f : α → β} {b : β} (h : r.toOption.map f = some b) :
    ∃ a, r = .ok a ∧ f a = b := by
  cases r with
  | error e => cases h
  | ok a => exact ⟨a, rfl, Option.some.inj h⟩

variable {h}

lemma play_bind_of_ok {p : Program Op Res ε α} {f : α → Program Op Res ε β} {s : σ} {a : α}
    (hp : (p.play h s).2.1 = .ok a) :
    (p >>= f).play h s = ((p.play h s).1 ++ ((f a).play h (p.play h s).2.2).1,
      ((f a).play h (p.play h s).2.2).2) := by
  induction p generalizing s with
  | done r =>
    obtain rfl : r = .ok a := hp
    rfl
  | await op k ih =>
    have hrest : ((k (h op s).1 >>= f).play h (h op s).2.2) = _ := ih (h op s).1 hp
    change (_ :: ((k (h op s).1 >>= f).play h (h op s).2.2).1,
      ((k (h op s).1 >>= f).play h (h op s).2.2).2) = _
    rw [hrest]
    rfl

lemma play_attempt (p : Program Op Res ε α) (s : σ) :
    p.attempt.play h s = ((p.play h s).1, .ok (p.play h s).2.1, (p.play h s).2.2) := by
  induction p generalizing s with
  | done r => rfl
  | await op k ih =>
    change (_ :: ((k (h op s).1).attempt.play h (h op s).2.2).1,
      ((k (h op s).1).attempt.play h (h op s).2.2).2) = _
    rw [ih]
    rfl

variable (h)

/-- The passes of a loop that catches what its body throws. -/
def playPasses (g : β → Program Op Res ε α) : List β → σ → List (Pass σ Op Res ε α β) × σ
  | [], s => ([], s)
  | b :: l, s =>
    let rest := playPasses g l ((g b).play h s).2.2
    (⟨b, ((g b).play h s).1, ((g b).play h s).2.1, s, ((g b).play h s).2.2⟩ :: rest.1, rest.2)

variable {h}

lemma passes_play {g : β → Program Op Res ε α} (l : List β) (s : σ)
    (hgoes : ∀ op s, Attempt.Goes Returns total ⟨op, (h op s).1, (h op s).2.1, s, (h op s).2.2⟩)
    (hother : ∀ s, other s s) :
    Passes Returns total other g l s (playPasses h g l s).1 (playPasses h g l s).2 := by
  induction l generalizing s with
  | nil => exact .nil s
  | cons b l ih => exact .cons (executes_play h (g b) s hgoes hother) (ih _)

lemma play_forM_attempt (g : β → Program Op Res ε α) (l : List β) (s : σ) :
    (l.forM fun b => do let _ ← (g b).attempt).play h s =
      ((playPasses h g l s).1.flatMap (·.requests), .ok (), (playPasses h g l s).2) := by
  induction l generalizing s with
  | nil => rfl
  | cons b l ih =>
    have hbody : ((g b).attempt >>= fun _ => pure ()).play h s =
        (((g b).play h s).1, .ok (), ((g b).play h s).2.2) := by
      rw [play_bind_of_ok (by rw [play_attempt]), play_attempt]
      exact Prod.ext (List.append_nil _) rfl
    change (((g b).attempt >>= fun _ => pure ()) >>= fun _ =>
      l.forM fun b => do let _ ← (g b).attempt).play h s = _
    rw [play_bind_of_ok (by rw [hbody]), hbody, ih]
    rfl

end Playing

end Executions

end Async
