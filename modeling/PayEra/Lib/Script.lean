import PayEra.Lib.Protocol

/-!
# Scripts

A script says what a session may call in a place of its program, and which places an answer may lead
to. That a program keeps to a script has nothing to do with other sessions, and that the sessions of a
script keep an invariant is a matter of single calls.
-/

namespace Async

open Program

/-- The place where a session starts that is asked for something, the calls that sessions may make in a
place, and where the answers lead. -/
structure Script (Q Op : Type) (Res : Op → Type) (ε K : Type) where
  start : Q → K
  may : K → Op → Prop
  leads : K → (op : Op) → Except ε (Res op) → K → Prop

section Scripts

variable {Q Op : Type} {Res : Op → Type} {ε K α β : Type} {S : Script Q Op Res ε K} {κ : K}

/-! ### Programs that keep to a script -/

/-- From the place `κ` the program keeps to the script, and it ends in `G`. -/
def Script.Admits (S : Script Q Op Res ε K) :
    Program Op Res ε α → K → (Except ε α → K → Prop) → Prop
  | .done r, κ, G => G r κ
  | .await op k, κ, G => S.may κ op ∧ ∀ r κ', S.leads κ op r κ' → S.Admits (k r) κ' G

namespace Script

variable {p : Program Op Res ε α} {f : α → Program Op Res ε β} {G G' : Except ε α → K → Prop}
  {R : α → K → Prop} {R' : β → K → Prop} {E : K → Prop}

lemma Admits.mono (h : S.Admits p κ G) (hG : ∀ r κ, G r κ → G' r κ) : S.Admits p κ G' := by
  induction p generalizing κ with
  | done r => exact hG r κ h
  | await op k ih => exact ⟨h.1, fun r κ' hleads => ih r (h.2 r κ' hleads)⟩

lemma admits_done {r : Except ε α} (hok : ∀ a, r = .ok a → R a κ) (herr : ∀ e, r = .error e → E κ) :
    S.Admits (.done r) κ (upon R E) := by
  cases r with
  | ok a => exact hok a rfl
  | error e => exact herr e rfl

lemma admits_perform {op : Op} {G : Except ε (Res op) → K → Prop} (hmay : S.may κ op)
    (h : ∀ r κ', S.leads κ op r κ' → G r κ') : S.Admits (perform op) κ G := ⟨hmay, h⟩

lemma admits_bind (hp : S.Admits p κ (upon R E)) (hf : ∀ a κ, R a κ → S.Admits (f a) κ (upon R' E)) :
    S.Admits (p >>= f) κ (upon R' E) := by
  induction p generalizing κ with
  | done r =>
    cases r with
    | ok a => exact hf a κ hp
    | error e => exact hp
  | await op k ih => exact ⟨hp.1, fun r κ' hleads => ih r (hp.2 r κ' hleads)⟩

/-- No postcondition. -/
lemma upon_true (r : Except ε α) (κ : K) : upon (fun _ _ => True) (fun _ => True) r κ := by
  cases r with
  | ok a => trivial
  | error e => trivial

/-- A call, and what follows its answer. -/
lemma admits_call {op : Op} {f : Res op → Program Op Res ε β} (hmay : S.may κ op)
    (herr : ∀ e κ', S.leads κ op (.error e) κ' → E κ')
    (hok : ∀ a κ', S.leads κ op (.ok a) κ' → S.Admits (f a) κ' (upon R' E)) :
    S.Admits (perform op >>= f) κ (upon R' E) := by
  refine admits_bind (R := fun a κ' => S.leads κ op (.ok a) κ') (admits_perform hmay ?_) hok
  intro r κ' hleads
  cases r with
  | ok a => exact hleads
  | error e => exact herr e κ' hleads

/-- The body of a `try`, and what follows after either of its outcomes. -/
lemma admits_attempt {f : Except ε α → Program Op Res ε β} {G : Except ε β → K → Prop}
    (hp : S.Admits p κ (upon R E)) (hok : ∀ a κ, R a κ → S.Admits (f (.ok a)) κ G)
    (herr : ∀ e κ, E κ → S.Admits (f (.error e)) κ G) : S.Admits (p.attempt >>= f) κ G := by
  induction p generalizing κ with
  | done r =>
    cases r with
    | ok a => exact hok a κ hp
    | error e => exact herr e κ hp
  | await op k ih => exact ⟨hp.1, fun r κ' hleads => ih r (hp.2 r κ' hleads)⟩

/-- A loop whose body keeps a property of the place. -/
lemma admits_forM {l : List β} {g : β → Program Op Res ε PUnit} {J : K → Prop} (hκ : J κ)
    (hg : ∀ b ∈ l, ∀ κ, J κ → S.Admits (g b) κ (upon (fun _ => J) E)) :
    S.Admits (l.forM g) κ (upon (fun _ => J) E) := by
  induction l generalizing κ with
  | nil => exact hκ
  | cons b l ih =>
    refine admits_bind (hg b (List.mem_cons_self ..) κ hκ) fun _ κ' hκ' => ih hκ' fun c hc => ?_
    exact hg c (List.mem_cons_of_mem b hc)

/-- Calls that do not lead anywhere else. -/
lemma admits_all {C : Op → Prop} (hp : p.All C) (hG : ∀ r, G r κ)
    (hstay : ∀ op, C op → S.may κ op ∧ ∀ r κ', S.leads κ op r κ' → κ' = κ) : S.Admits p κ G := by
  induction p with
  | done r => exact hG r
  | await op k ih =>
    refine ⟨(hstay op hp.1).1, fun r κ' hleads => ?_⟩
    rw [(hstay op hp.1).2 r κ' hleads]
    exact ih r (hp.2 r)

end Script

/-! ### Sessions that keep to a script -/

variable {σ : Type}

/-- The protocol of a script: the ghost state of a session in progress is its number and its
place. -/
def Script.protocol (S : Script Q Op Res ε K)
    (allowed : (e : Event Q Op (Except ε β)) → Journal σ Q Op Res ε β → Except ε (e.Res Res) → Prop)
    (base : Journal σ Q Op Res ε β → Multiset (Option (ℕ × K)) → Prop)
    (mine : ℕ → K → Journal σ Q Op Res ε β → Prop) :
    Protocol σ Q Op Res ε β (Option (ℕ × K)) where
  number := Option.map Prod.fst
  idle := none
  allowed := allowed
  link ℓ op := ∃ n κ, ℓ = some (n, κ) ∧ S.may κ op
  base := base
  mine ℓ w := ∀ n κ, ℓ = some (n, κ) → mine n κ w
  ended _ _ _ := True

variable {Returns : (op : Op) → σ → Res op → σ → Prop} {total lossless : Op → Prop}
  {allowed : (e : Event Q Op (Except ε β)) → Journal σ Q Op Res ε β → Except ε (e.Res Res) → Prop}
  {base : Journal σ Q Op Res ε β → Multiset (Option (ℕ × K)) → Prop}
  {mine : ℕ → K → Journal σ Q Op Res ε β → Prop} {n : ℕ}

/-- What a session's own journal says, and what single events do to the invariant. -/
structure Script.Keeps (S : Script Q Op Res ε K) (Returns : (op : Op) → σ → Res op → σ → Prop)
    (total lossless : Op → Prop)
    (allowed : (e : Event Q Op (Except ε β)) → Journal σ Q Op Res ε β → Except ε (e.Res Res) → Prop)
    (base : Journal σ Q Op Res ε β → Multiset (Option (ℕ × K)) → Prop)
    (mine : ℕ → K → Journal σ Q Op Res ε β → Prop) : Prop where
  own : ∀ n κ w w', w.Agrees n w' → mine n κ w → mine n κ w'
  begin : ∀ n q w f r w', base w (none ::ₘ f) → (∀ e ∈ w.entries, e.1.session ≠ n) →
    (∀ e ∈ w.effects, e.session ≠ n) → allowed (.begin n q) w r →
    happens Returns total lossless (.begin n q) w r w' →
      base w' (some (n, S.start q) ::ₘ f) ∧ mine n (S.start q) w'
  call : ∀ n κ op w f r w', S.may κ op →
    (S.protocol allowed base mine).Inv w (some (n, κ) ::ₘ f) → mine n κ w →
    allowed (.call n op) w r → happens Returns total lossless (.call n op) w r w' →
      ∃ κ', S.leads κ op r κ' ∧ base w' (some (n, κ') ::ₘ f) ∧ mine n κ' w'
  finish : ∀ n κ a w f r w', (S.protocol allowed base mine).Inv w (some (n, κ) ::ₘ f) → mine n κ w →
    allowed (.finish n a) w r → happens Returns total lossless (.finish n a) w r w' →
      base w' (none ::ₘ f)

namespace Script

lemma Keeps.lawful (h : S.Keeps Returns total lossless allowed base mine) :
    (S.protocol allowed base mine).Lawful where
  idle := rfl
  mine n ℓ w w' hn hagrees hmine m κ hℓ := by
    rw [hℓ] at hn
    obtain rfl : m = n := Option.some.inj hn
    exact h.own m κ w w' hagrees (hmine m κ hℓ)
  ended _ _ _ _ _ _ := trivial

/-- A program that keeps to the script is safe. -/
lemma Keeps.safe (h : S.Keeps Returns total lossless allowed base mine) {p : Program Op Res ε α}
    {R : Except ε α → K → Prop} (hp : S.Admits p κ R) :
    Safe (((S.protocol allowed base mine).discipline Returns total lossless).at n) p (some (n, κ))
      fun r ℓ => ∃ κ', ℓ = some (n, κ') ∧ R r κ' := by
  induction p generalizing κ with
  | done r => exact ⟨κ, rfl, hp⟩
  | await op k ih =>
    refine ⟨⟨rfl, n, κ, rfl, hp.1⟩, fun w f r w' hinv hallowed hhappens => ?_⟩
    have hmine : mine n κ w := (hinv.running _ (Multiset.mem_cons_self ..) n rfl).2.2 n κ rfl
    obtain ⟨κ', hleads, hbase, hmine'⟩ :=
      h.call n κ op w f r w' hp.1 hinv hmine hallowed hhappens
    refine ⟨some (n, κ'), hinv.call h.lawful rfl hhappens rfl hbase ?_, ih r (hp.2 r κ' hleads)⟩
    rintro m κ'' heq
    cases heq
    exact hmine'

/-- A session whose program keeps to the script follows the protocol. -/
lemma Keeps.follows (h : S.Keeps Returns total lossless allowed base mine) {q : Q}
    {p : Program Op Res ε β} (hp : S.Admits p (S.start q) fun _ _ => True) :
    (S.protocol allowed base mine).Follows Returns total lossless n q p := by
  intro w f r w' hinv hentries heffects hallowed hhappens
  obtain ⟨hbase, hmine⟩ := h.begin n q w f r w' hinv.base hentries heffects hallowed hhappens
  refine ⟨some (n, S.start q), rfl, hbase, ?_, (h.safe hp).mono ?_⟩
  · rintro m κ heq
    cases heq
    exact hmine
  · rintro a - ⟨κ, rfl, -⟩
    refine ⟨rfl, fun w f r w' hinv hmine hallowed hhappens => ⟨?_, trivial⟩⟩
    exact h.finish n κ a w f r w' hinv (hmine n κ rfl) hallowed hhappens

/-- **Soundness.** Sessions of programs that keep to a script keep its invariant. -/
theorem Keeps.governs (h : S.Keeps Returns total lossless allowed base mine)
    {program : Q → Program Op Res ε β} {init : σ → Prop} {other : σ → σ → Prop}
    {cond : Multiset (Program (Event Q Op (Except ε β)) (Event.Res Res) ε Unit) →
      (e : Event Q Op (Except ε β)) → Journal σ Q Op Res ε β → Except ε (e.Res Res) → Prop}
    (hinit : ∀ w, init w.state → w.entries = [] → w.effects = [] → base w 0)
    (hidle : ∀ w f, base w f → base w (none ::ₘ f))
    (hworld : ∀ w w' f, w'.entries = w.entries → w'.effects = w.effects →
      other w.state w'.state → base w f → base w' f)
    (hcond : ∀ rest e w r, cond rest e w r → allowed e w r)
    (hprogram : ∀ q, S.Admits (program q) (S.start q) fun _ _ => True) :
    Governs ((S.protocol allowed base mine).discipline Returns total lossless)
      (sessions Returns total lossless program init other cond) :=
  Protocol.governs h.lawful hinit hidle hworld hcond fun _ q => h.follows (hprogram q)

/-- The place of a session that is about to make a call. -/
lemma place_of_call {D : Setting (Journal σ Q Op Res ε β) (Event Q Op (Except ε β)) (Event.Res Res) ε}
    (hD : Governs ((S.protocol allowed base mine).discipline Returns total lossless) D)
    {s : Pool (Journal σ Q Op Res ε β) (Event Q Op (Except ε β)) (Event.Res Res) ε}
    (h : (system D).Reachable s) {op : Op}
    {k : Except ε (Res op) → Program (Event Q Op (Except ε β)) (Event.Res Res) ε Unit}
    {rest : Multiset (Program (Event Q Op (Except ε β)) (Event.Res Res) ε Unit)}
    (hs : s.threads = .await (.call n op) k ::ₘ rest) :
    ∃ κ f, S.may κ op ∧ (S.protocol allowed base mine).Inv s.world (some (n, κ) ::ₘ f) := by
  obtain ⟨ℓ, f, ⟨hnumber, m, κ, rfl, hmay⟩, hinv, -⟩ := ghost_of_call hD h hs
  obtain rfl : m = n := Option.some.inj hnumber
  exact ⟨κ, f, hmay, hinv⟩

/-- Where no thread has a call left, no session is in progress. -/
lemma idle_of_done {D : Setting (Journal σ Q Op Res ε β) (Event Q Op (Except ε β)) (Event.Res Res) ε}
    (hD : Governs ((S.protocol allowed base mine).discipline Returns total lossless) D)
    {s : Pool (Journal σ Q Op Res ε β) (Event Q Op (Except ε β)) (Event.Res Res) ε}
    (h : (system D).Reachable s) (hdone : ∀ p ∈ s.threads, p.next = none) :
    ∃ f, base s.world f ∧ ∀ ℓ ∈ f, ℓ = none := by
  obtain ⟨f, hrel, hinv⟩ := reachable_sound hD h
  refine ⟨f, hinv.base, fun ℓ hℓ => ?_⟩
  rw [← Multiset.rel_flip] at hrel
  obtain ⟨p, hp, hsafe⟩ := Multiset.exists_mem_of_rel_of_mem hrel hℓ
  cases p with
  | done r => exact hsafe
  | await e k => exact absurd (hdone _ hp) (Option.some_ne_none e)

end Script

end Scripts

end Async
