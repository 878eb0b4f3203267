import PayEra.Lib.Sessions

/-!
# Protocols

A protocol says where in its program a session is: the ghost state of a session in progress carries
the session's number, and what it says about the session is read from the session's own events and
effects. Since numbers are used once, no other session can spoil it. What sessions share is kept in
an invariant of its own, as in every discipline.
-/

namespace Async

section Protocols

variable {σ Q Op : Type} {Res : Op → Type} {ε β L : Type}

/-! ### What a journal says about one session -/

def Event.session {A : Type} : Event Q Op A → ℕ
  | .begin n _ | .call n _ | .finish n _ => n

/-- The journals have the same events and effects of the session `n`. -/
structure Journal.Agrees (n : ℕ) (w w' : Journal σ Q Op Res ε β) : Prop where
  entries : w'.entries.filter (·.1.session = n) = w.entries.filter (·.1.session = n)
  effects : w'.effects.filter (·.session = n) = w.effects.filter (·.session = n)

section Agrees

variable {Returns : (op : Op) → σ → Res op → σ → Prop} {total lossless : Op → Prop} {n : ℕ}
  {w w' : Journal σ Q Op Res ε β}

lemma Journal.Agrees.of_eq (hentries : w'.entries = w.entries) (heffects : w'.effects = w.effects) :
    w.Agrees n w' := ⟨by rw [hentries], by rw [heffects]⟩

lemma Journal.Agrees.exists_entry (h : w.Agrees n w') {P : Entry Q Op Res ε β → Prop}
    (hP : ∀ e, P e → e.1.session = n) : (∃ e ∈ w'.entries, P e) ↔ ∃ e ∈ w.entries, P e := by
  have hiff : ∀ l : List (Entry Q Op Res ε β),
      (∃ e ∈ l, P e) ↔ ∃ e ∈ l.filter (·.1.session = n), P e := by
    intro l
    simp only [List.mem_filter, decide_eq_true_eq]
    exact ⟨fun ⟨e, he, hPe⟩ => ⟨e, ⟨he, hP e hPe⟩, hPe⟩, fun ⟨e, he, hPe⟩ => ⟨e, he.1, hPe⟩⟩
  rw [hiff, h.entries, ← hiff]

lemma Journal.Agrees.exists_effect (h : w.Agrees n w') {P : Effect σ Op → Prop}
    (hP : ∀ e, P e → e.session = n) : (∃ e ∈ w'.effects, P e) ↔ ∃ e ∈ w.effects, P e := by
  have hiff : ∀ l : List (Effect σ Op),
      (∃ e ∈ l, P e) ↔ ∃ e ∈ l.filter (·.session = n), P e := by
    intro l
    simp only [List.mem_filter, decide_eq_true_eq]
    exact ⟨fun ⟨e, he, hPe⟩ => ⟨e, ⟨he, hP e hPe⟩, hPe⟩, fun ⟨e, he, hPe⟩ => ⟨e, he.1, hPe⟩⟩
  rw [hiff, h.effects, ← hiff]

lemma Journal.Agrees.entry (h : w.Agrees n w') {e : Entry Q Op Res ε β} (he : e.1.session = n) :
    e ∈ w'.entries ↔ e ∈ w.entries := by
  have hiff := h.exists_entry (P := (· = e)) fun x hx => by rw [hx, he]
  simpa using hiff

lemma Journal.Agrees.effect (h : w.Agrees n w') {e : Effect σ Op} (he : e.session = n) :
    e ∈ w'.effects ↔ e ∈ w.effects := by
  have hiff := h.exists_effect (P := (· = e)) fun x hx => by rw [hx, he]
  simpa using hiff

lemma Journal.Agrees.begun (h : w.Agrees n w') {q : Q} : w'.Begun n q ↔ w.Begun n q := h.entry rfl

/-- An event of another session. -/
lemma Journal.Agrees.of_happens {e : Event Q Op (Except ε β)} {r : Except ε (e.Res Res)}
    (h : happens Returns total lossless e w r w') (hn : e.session ≠ n) : w.Agrees n w' := by
  constructor
  · rw [happens_entries h, List.filter_append, List.filter_singleton]
    simp [hn]
  · cases e with
    | call m op =>
      rcases happens_call h with ⟨-, heq⟩ | ⟨-, heq⟩
      · rw [heq]
      · have hm : m ≠ n := hn
        rw [heq, List.filter_append, List.filter_singleton]
        simp [hm]
    | begin m q =>
      obtain ⟨-, -, rfl⟩ := h
      rfl
    | finish m a =>
      obtain ⟨-, rfl⟩ := h
      rfl

/-- New effects are those of the session whose event it is. -/
lemma happens_new_effect {e : Event Q Op (Except ε β)} {r : Except ε (e.Res Res)}
    (h : happens Returns total lossless e w r w') {x : Effect σ Op} (hx : x ∈ w'.effects) :
    x ∈ w.effects ∨ x.session = e.session := by
  cases e with
  | call m op =>
    rcases happens_call h with ⟨-, heq⟩ | ⟨-, heq⟩
    · rw [heq] at hx
      exact .inl hx
    · rw [heq] at hx
      rcases List.mem_append.mp hx with hx | hx
      · exact .inl hx
      · right
        rw [List.mem_singleton.mp hx]
        rfl
  | begin m q =>
    obtain ⟨-, -, rfl⟩ := h
    exact .inl hx
  | finish m a =>
    obtain ⟨-, rfl⟩ := h
    exact .inl hx

end Agrees

/-! ### Protocols -/

/-- The ghost states of sessions: their numbers, what they say, and what they share. -/
structure Protocol (σ Q Op : Type) (Res : Op → Type) (ε β L : Type) where
  number : L → Option ℕ
  /-- Not begun, or finished. -/
  idle : L
  allowed : (e : Event Q Op (Except ε β)) → Journal σ Q Op Res ε β → Except ε (e.Res Res) → Prop
  link : L → Op → Prop
  base : Journal σ Q Op Res ε β → Multiset L → Prop
  mine : L → Journal σ Q Op Res ε β → Prop
  ended : ℕ → Except ε β → Journal σ Q Op Res ε β → Prop

/-- What is said about a session depends on its own events and effects only. -/
structure Protocol.Lawful (P : Protocol σ Q Op Res ε β L) : Prop where
  idle : P.number P.idle = none
  mine : ∀ n ℓ w w', P.number ℓ = some n → w.Agrees n w' → P.mine ℓ w → P.mine ℓ w'
  ended : ∀ n a w w', w.Agrees n w' → P.ended n a w → P.ended n a w'

/-- Every session that has begun is in progress, with one ghost state, or is finished. -/
structure Protocol.Inv (P : Protocol σ Q Op Res ε β L) (w : Journal σ Q Op Res ε β)
    (f : Multiset L) : Prop where
  base : P.base w f
  nodup : (f.filterMap P.number).Nodup
  asked : ∀ n q q', w.Begun n q → w.Begun n q' → q = q'
  running : ∀ ℓ ∈ f, ∀ n, P.number ℓ = some n →
    (∃ q, w.Begun n q) ∧ (∀ a, ¬w.Finished n a) ∧ P.mine ℓ w
  entered : ∀ n q, w.Begun n q → (∃ ℓ ∈ f, P.number ℓ = some n) ∨ ∃ a, w.Finished n a
  entries : ∀ e ∈ w.entries, ∃ q, w.Begun e.1.session q
  effects : ∀ e ∈ w.effects, ∃ q, w.Begun e.session q
  ended : ∀ n a, w.Finished n a → P.ended n a w

variable (Returns : (op : Op) → σ → Res op → σ → Prop) (total lossless : Op → Prop)

def Protocol.discipline (P : Protocol σ Q Op Res ε β L) :
    Discipline (Journal σ Q Op Res ε β) (Event Q Op (Except ε β)) (Event.Res Res) ε L where
  env := happens Returns total lossless
  inv := P.Inv
  link ℓ e := match e with
    | .begin _ _ => ℓ = P.idle
    | .call n op => P.number ℓ = some n ∧ P.link ℓ op
    | .finish n _ => P.number ℓ = some n
  allowed _ e w r := P.allowed e w r
  halt ℓ := ℓ = P.idle

variable {Returns total lossless} {P : Protocol σ Q Op Res ε β L}
  {w w' : Journal σ Q Op Res ε β} {f : Multiset L} {ℓ ℓ' : L} {n : ℕ}

/-! ### Events keep the invariant -/

section Events

variable {e : Event Q Op (Except ε β)} {r : Except ε (e.Res Res)} {q : Q} {a : Except ε β}

lemma begun_happens (h : happens Returns total lossless e w r w') :
    w'.Begun n q ↔ w.Begun n q ∨ e = .begin n q := by
  rw [Journal.Begun, Journal.Begun, happens_entries h, List.mem_append, List.mem_singleton]
  apply or_congr_right
  constructor
  · intro heq
    cases heq
    rfl
  · rintro rfl
    obtain ⟨rfl, -⟩ := h
    rfl

lemma finished_happens (h : happens Returns total lossless e w r w') :
    w'.Finished n a ↔ w.Finished n a ∨ e = .finish n a := by
  rw [Journal.Finished, Journal.Finished, happens_entries h, List.mem_append, List.mem_singleton]
  apply or_congr_right
  constructor
  · intro heq
    cases heq
    rfl
  · rintro rfl
    obtain ⟨rfl, -⟩ := h
    rfl

namespace Protocol.Inv

/-- A number is that of one ghost state only. -/
lemma number_ne (h : P.Inv w (ℓ ::ₘ f)) (hn : P.number ℓ = some n) {m : ℕ} (hℓ' : ℓ' ∈ f)
    (hm : P.number ℓ' = some m) : n ≠ m := by
  have hnodup := h.nodup
  rw [Multiset.filterMap_cons_some _ _ _ hn, Multiset.nodup_cons] at hnodup
  rintro rfl
  exact hnodup.1 ((Multiset.mem_filterMap _ _).mpr ⟨ℓ', hℓ', hm⟩)

/-- The ghost states of the other sessions in progress stay as they are. -/
lemma others (h : P.Inv w (ℓ ::ₘ f)) (hP : P.Lawful)
    (hhappens : happens Returns total lossless e w r w')
    (hne : ∀ ℓ' ∈ f, ∀ m, P.number ℓ' = some m → e.session ≠ m) :
    ∀ ℓ' ∈ f, ∀ m, P.number ℓ' = some m →
      (∃ q, w'.Begun m q) ∧ (∀ a, ¬w'.Finished m a) ∧ P.mine ℓ' w' := by
  intro ℓ' hℓ' m hm
  obtain ⟨⟨q, hbegun⟩, hfinished, hmine⟩ := h.running ℓ' (Multiset.mem_cons_of_mem hℓ') m hm
  refine ⟨⟨q, (begun_happens hhappens).mpr (.inl hbegun)⟩, fun a ha => ?_, ?_⟩
  · rcases (finished_happens hhappens).mp ha with ha | rfl
    · exact hfinished a ha
    · exact hne ℓ' hℓ' m hm rfl
  · exact hP.mine m ℓ' w w' hm (.of_happens hhappens (hne ℓ' hℓ' m hm)) hmine

/-- What was said about finished sessions stays true. -/
lemma over_of_ne (h : P.Inv w f) (hP : P.Lawful)
    (hhappens : happens Returns total lossless e w r w') {m : ℕ} (hm : e.session ≠ m)
    (ha : w'.Finished m a) : P.ended m a w' := by
  rcases (finished_happens hhappens).mp ha with ha | rfl
  · exact hP.ended m a w w' (.of_happens hhappens hm) (h.ended m a ha)
  · exact absurd rfl hm

/-- All entries and effects are of sessions that have begun. -/
lemma known (h : P.Inv w f) (hhappens : happens Returns total lossless e w r w')
    (he : ∃ q, w'.Begun e.session q) :
    (∀ x ∈ w'.entries, ∃ q, w'.Begun x.1.session q) ∧
      ∀ x ∈ w'.effects, ∃ q, w'.Begun x.session q := by
  have hmono : ∀ {m : ℕ}, (∃ q, w.Begun m q) → ∃ q, w'.Begun m q := fun ⟨q, hq⟩ =>
    ⟨q, (begun_happens hhappens).mpr (.inl hq)⟩
  constructor
  · intro x hx
    rw [happens_entries hhappens] at hx
    rcases List.mem_append.mp hx with hx | hx
    · exact hmono (h.entries x hx)
    · rw [List.mem_singleton.mp hx]
      exact he
  · intro x hx
    rcases happens_new_effect hhappens hx with hx | hx
    · exact hmono (h.effects x hx)
    · rw [hx]
      exact he

/-- Only a beginning tells what a session was asked for. -/
lemma asked_of_ne (h : P.Inv w f) (hhappens : happens Returns total lossless e w r w')
    (he : ∀ n q, e ≠ .begin n q) (m : ℕ) (q₁ q₂ : Q) (h₁ : w'.Begun m q₁) (h₂ : w'.Begun m q₂) :
    q₁ = q₂ := by
  have hold : ∀ {q}, w'.Begun m q → w.Begun m q := fun hq =>
    ((begun_happens hhappens).mp hq).resolve_right (he m _)
  exact h.asked m q₁ q₂ (hold h₁) (hold h₂)

/-- A session is either finished or it has its ghost state: its next call is its own affair. -/
theorem call {op : Op} {r : Except ε (Res op)} (h : P.Inv w (ℓ ::ₘ f)) (hP : P.Lawful)
    (hn : P.number ℓ = some n) (hhappens : happens Returns total lossless (.call n op) w r w')
    (hn' : P.number ℓ' = some n) (hbase : P.base w' (ℓ' ::ₘ f)) (hmine : P.mine ℓ' w') :
    P.Inv w' (ℓ' ::ₘ f) := by
  obtain ⟨⟨q, hbegun⟩, hfinished, -⟩ := h.running ℓ (Multiset.mem_cons_self ..) n hn
  have hbegun' : w'.Begun n q := (begun_happens hhappens).mpr (.inl hbegun)
  have hfinished' : ∀ {m a}, w'.Finished m a → w.Finished m a := by
    intro m a ha
    rcases (finished_happens hhappens).mp ha with ha | heq
    · exact ha
    · cases heq
  obtain ⟨hentries, heffects⟩ := h.known hhappens ⟨q, hbegun'⟩
  refine ⟨hbase, ?_, h.asked_of_ne hhappens (fun _ _ heq => by cases heq), fun ℓ₂ hℓ₂ m hm => ?_,
    fun m q hm => ?_, hentries, heffects, fun m a ha => ?_⟩
  · rw [Multiset.filterMap_cons_some _ _ _ hn', ← Multiset.filterMap_cons_some _ _ _ hn]
    exact h.nodup
  · rcases Multiset.mem_cons.mp hℓ₂ with rfl | hℓ₂
    · obtain rfl : n = m := Option.some.inj (hn'.symm.trans hm)
      exact ⟨⟨q, hbegun'⟩, fun a ha => hfinished a (hfinished' ha), hmine⟩
    · exact h.others hP hhappens (fun ℓ' hℓ' m hm => h.number_ne hn hℓ' hm) ℓ₂ hℓ₂ m hm
  · rcases (begun_happens hhappens).mp hm with hm | heq
    · rcases h.entered m q hm with ⟨ℓ₂, hℓ₂, hnum⟩ | ⟨a, ha⟩
      · rcases Multiset.mem_cons.mp hℓ₂ with rfl | hℓ₂
        · obtain rfl : n = m := Option.some.inj (hn.symm.trans hnum)
          exact .inl ⟨ℓ', Multiset.mem_cons_self .., hn'⟩
        · exact .inl ⟨ℓ₂, Multiset.mem_cons_of_mem hℓ₂, hnum⟩
      · exact .inr ⟨a, (finished_happens hhappens).mpr (.inl ha)⟩
    · cases heq
  · apply h.over_of_ne hP hhappens _ ha
    rintro rfl
    exact hfinished a (hfinished' ha)

/-- A ghost state of the session that says something else of it. -/
theorem replace (h : P.Inv w (ℓ ::ₘ f)) (hn : P.number ℓ = some n) (hn' : P.number ℓ' = some n)
    (hbase : P.base w (ℓ' ::ₘ f)) (hmine : P.mine ℓ' w) : P.Inv w (ℓ' ::ₘ f) := by
  refine ⟨hbase, ?_, h.asked, fun ℓ₂ hℓ₂ m hm => ?_, fun m q hm => ?_, h.entries, h.effects, h.ended⟩
  · rw [Multiset.filterMap_cons_some _ _ _ hn', ← Multiset.filterMap_cons_some _ _ _ hn]
    exact h.nodup
  · rcases Multiset.mem_cons.mp hℓ₂ with rfl | hℓ₂
    · obtain rfl : n = m := Option.some.inj (hn'.symm.trans hm)
      obtain ⟨hbegun, hfinished, -⟩ := h.running ℓ (Multiset.mem_cons_self ..) n hn
      exact ⟨hbegun, hfinished, hmine⟩
    · exact h.running ℓ₂ (Multiset.mem_cons_of_mem hℓ₂) m hm
  · rcases h.entered m q hm with ⟨ℓ₂, hℓ₂, hnum⟩ | hover
    · rcases Multiset.mem_cons.mp hℓ₂ with rfl | hℓ₂
      · obtain rfl : n = m := Option.some.inj (hn.symm.trans hnum)
        exact .inl ⟨ℓ', Multiset.mem_cons_self .., hn'⟩
      · exact .inl ⟨ℓ₂, Multiset.mem_cons_of_mem hℓ₂, hnum⟩
    · exact .inr hover

/-- A new session has no past. -/
theorem begin {r : Except ε Unit} (h : P.Inv w (P.idle ::ₘ f)) (hP : P.Lawful)
    (hhappens : happens Returns total lossless (.begin n q) w r w') (hn' : P.number ℓ' = some n)
    (hbase : P.base w' (ℓ' ::ₘ f)) (hmine : P.mine ℓ' w') : P.Inv w' (ℓ' ::ₘ f) := by
  have hnew : ∀ q, ¬w.Begun n q := hhappens.2.1
  have hne : ∀ ℓ₂ ∈ f, ∀ m, P.number ℓ₂ = some m → n ≠ m := by
    rintro ℓ₂ hℓ₂ m hm rfl
    obtain ⟨⟨q, hq⟩, -⟩ := h.running ℓ₂ (Multiset.mem_cons_of_mem hℓ₂) n hm
    exact hnew q hq
  have hbegun' : w'.Begun n q := (begun_happens hhappens).mpr (.inr rfl)
  have hfinished : ∀ {m a}, w'.Finished m a → n ≠ m := by
    rintro m a ha rfl
    rcases (finished_happens hhappens).mp ha with ha | heq
    · obtain ⟨q, hq⟩ := h.entries _ ha
      exact hnew q hq
    · cases heq
  obtain ⟨hentries, heffects⟩ := h.known hhappens ⟨q, hbegun'⟩
  have hasked : ∀ m q₁ q₂, w'.Begun m q₁ → w'.Begun m q₂ → q₁ = q₂ := by
    intro m q₁ q₂ h₁ h₂
    rcases (begun_happens hhappens).mp h₁ with h₁ | heq₁
    · rcases (begun_happens hhappens).mp h₂ with h₂ | heq₂
      · exact h.asked m q₁ q₂ h₁ h₂
      · cases heq₂
        exact absurd h₁ (hnew q₁)
    · cases heq₁
      rcases (begun_happens hhappens).mp h₂ with h₂ | heq₂
      · exact absurd h₂ (hnew q₂)
      · cases heq₂
        rfl
  refine ⟨hbase, ?_, hasked, fun ℓ₂ hℓ₂ m hm => ?_, fun m q hm => ?_, hentries, heffects,
    fun m a ha => ?_⟩
  · rw [Multiset.filterMap_cons_some _ _ _ hn', Multiset.nodup_cons]
    have hnodup := h.nodup
    rw [Multiset.filterMap_cons_none _ _ hP.idle] at hnodup
    refine ⟨fun hmem => ?_, hnodup⟩
    obtain ⟨ℓ₂, hℓ₂, hnum⟩ := (Multiset.mem_filterMap _ _).mp hmem
    exact hne ℓ₂ hℓ₂ n hnum rfl
  · rcases Multiset.mem_cons.mp hℓ₂ with rfl | hℓ₂
    · obtain rfl : n = m := Option.some.inj (hn'.symm.trans hm)
      exact ⟨⟨q, hbegun'⟩, fun a ha => hfinished ha rfl, hmine⟩
    · exact h.others hP hhappens hne ℓ₂ hℓ₂ m hm
  · rcases (begun_happens hhappens).mp hm with hm | heq
    · rcases h.entered m q hm with ⟨ℓ₂, hℓ₂, hnum⟩ | ⟨a, ha⟩
      · rcases Multiset.mem_cons.mp hℓ₂ with rfl | hℓ₂
        · rw [hP.idle] at hnum
          cases hnum
        · exact .inl ⟨ℓ₂, Multiset.mem_cons_of_mem hℓ₂, hnum⟩
      · exact .inr ⟨a, (finished_happens hhappens).mpr (.inl ha)⟩
    · cases heq
      exact .inl ⟨ℓ', Multiset.mem_cons_self .., hn'⟩
  · exact h.over_of_ne hP hhappens (hfinished ha) ha

/-- A session that finishes gives its ghost state up. -/
theorem finish {r : Except ε Unit} (h : P.Inv w (ℓ ::ₘ f)) (hP : P.Lawful)
    (hn : P.number ℓ = some n) (hhappens : happens Returns total lossless (.finish n a) w r w')
    (hbase : P.base w' (P.idle ::ₘ f)) (hover : P.ended n a w') : P.Inv w' (P.idle ::ₘ f) := by
  obtain ⟨⟨q, hbegun⟩, hfinished, -⟩ := h.running ℓ (Multiset.mem_cons_self ..) n hn
  have hbegun' : w'.Begun n q := (begun_happens hhappens).mpr (.inl hbegun)
  obtain ⟨hentries, heffects⟩ := h.known hhappens ⟨q, hbegun'⟩
  refine ⟨hbase, ?_, h.asked_of_ne hhappens (fun _ _ heq => by cases heq), fun ℓ₂ hℓ₂ m hm => ?_,
    fun m q hm => ?_, hentries, heffects, fun m b hb => ?_⟩
  · have hnodup := h.nodup
    rw [Multiset.filterMap_cons_some _ _ _ hn, Multiset.nodup_cons] at hnodup
    rw [Multiset.filterMap_cons_none _ _ hP.idle]
    exact hnodup.2
  · rcases Multiset.mem_cons.mp hℓ₂ with rfl | hℓ₂
    · rw [hP.idle] at hm
      cases hm
    · exact h.others hP hhappens (fun ℓ' hℓ' m hm => h.number_ne hn hℓ' hm) ℓ₂ hℓ₂ m hm
  · rcases (begun_happens hhappens).mp hm with hm | heq
    · rcases h.entered m q hm with ⟨ℓ₂, hℓ₂, hnum⟩ | ⟨b, hb⟩
      · rcases Multiset.mem_cons.mp hℓ₂ with rfl | hℓ₂
        · obtain rfl : n = m := Option.some.inj (hn.symm.trans hnum)
          exact .inr ⟨a, (finished_happens hhappens).mpr (.inr rfl)⟩
        · exact .inl ⟨ℓ₂, Multiset.mem_cons_of_mem hℓ₂, hnum⟩
      · exact .inr ⟨b, (finished_happens hhappens).mpr (.inl hb)⟩
    · cases heq
  · rcases (finished_happens hhappens).mp hb with hb' | heq
    · apply h.over_of_ne hP hhappens _ hb
      rintro rfl
      exact hfinished b hb'
    · cases heq
      exact hover

end Protocol.Inv

end Events

/-! ### Safe programs -/

section Programs

variable {α : Type}

/-- One call of the session `n`. -/
lemma Protocol.safe_call (hP : P.Lawful) {op : Op} {R : Except ε (Res op) → L → Prop}
    (hn : P.number ℓ = some n) (hlink : P.link ℓ op)
    (h : ∀ w f r w', P.Inv w (ℓ ::ₘ f) → P.mine ℓ w → P.allowed (.call n op) w r →
      happens Returns total lossless (.call n op) w r w' →
        ∃ ℓ', P.number ℓ' = some n ∧ P.base w' (ℓ' ::ₘ f) ∧ P.mine ℓ' w' ∧ R r ℓ') :
    Safe ((P.discipline Returns total lossless).at n) (Program.perform op) ℓ R := by
  apply safe_perform (D := (P.discipline Returns total lossless).at n) ⟨hn, hlink⟩
  intro w f r w' hinv hallowed hhappens
  have hmine := (hinv.running ℓ (Multiset.mem_cons_self ..) n hn).2.2
  obtain ⟨ℓ', hn', hbase', hmine', hR⟩ := h w f r w' hinv hmine hallowed hhappens
  exact ⟨ℓ', hinv.call hP hn hhappens hn' hbase' hmine', hR⟩

/-- What is allowed of the first call tells that the session is in another ghost state. -/
lemma Protocol.safe_first {p : Program Op Res ε α} {C : Op → Prop} (hp : p.First C)
    {R : Except ε α → L → Prop} (hn : P.number ℓ = some n) (hn' : P.number ℓ' = some n)
    (hfirst : ∀ op, C op → P.link ℓ op ∧ ∀ w f r, P.Inv w (ℓ ::ₘ f) → P.mine ℓ w →
      P.allowed (.call n op) w r → P.base w (ℓ' ::ₘ f) ∧ P.mine ℓ' w)
    (h : Safe ((P.discipline Returns total lossless).at n) p ℓ' R) :
    Safe ((P.discipline Returns total lossless).at n) p ℓ R := by
  cases p with
  | done r => exact hp.elim
  | await op k =>
    obtain ⟨hlink, hturn⟩ := hfirst op hp
    refine ⟨⟨hn, hlink⟩, fun w f r w' hinv hallowed hhappens => ?_⟩
    have hmine := (hinv.running ℓ (Multiset.mem_cons_self ..) n hn).2.2
    obtain ⟨hbase', hmine'⟩ := hturn w f r hinv hmine hallowed
    exact h.2 w f r w' (hinv.replace hn hn' hbase' hmine') hallowed hhappens

/-- Calls of the session `n` that keep its ghost state and fail in certain ways only. -/
lemma Protocol.safe_resilient (hP : P.Lawful) {p : Program Op Res ε α} {C G : Op → Prop} {F : Prop}
    (hp : p.All C) (hres : p.Resilient G F) {R : Except ε α → L → Prop} (hok : ∀ a, R (.ok a) ℓ)
    (herr : F → ∀ e, R (.error e) ℓ) (hn : P.number ℓ = some n)
    (hkeep : ∀ op, C op → P.link ℓ op ∧ ∀ w f r w', P.Inv w (ℓ ::ₘ f) → P.mine ℓ w →
      P.allowed (.call n op) w r → happens Returns total lossless (.call n op) w r w' →
        P.base w' (ℓ ::ₘ f) ∧ P.mine ℓ w' ∧ ∀ e, r = .error e → G op) :
    Safe ((P.discipline Returns total lossless).at n) p ℓ R := by
  apply Safe.of_resilient hp hres hok herr
  intro op hop
  obtain ⟨hlink, h⟩ := hkeep op hop
  refine ⟨⟨hn, hlink⟩, fun w f r w' hinv hallowed hhappens => ?_⟩
  have hmine := (hinv.running ℓ (Multiset.mem_cons_self ..) n hn).2.2
  obtain ⟨hbase', hmine', hfails⟩ := h w f r w' hinv hmine hallowed hhappens
  exact ⟨hinv.call hP hn hhappens hn hbase' hmine', hfails⟩

/-- Calls of the session `n` that keep its ghost state. -/
lemma Protocol.safe_all (hP : P.Lawful) {p : Program Op Res ε α} {C : Op → Prop} (hp : p.All C)
    {R : Except ε α → L → Prop} (hR : ∀ r, R r ℓ) (hn : P.number ℓ = some n)
    (hkeep : ∀ op, C op → P.link ℓ op ∧ ∀ w f r w', P.Inv w (ℓ ::ₘ f) → P.mine ℓ w →
      P.allowed (.call n op) w r → happens Returns total lossless (.call n op) w r w' →
        P.base w' (ℓ ::ₘ f) ∧ P.mine ℓ w') :
    Safe ((P.discipline Returns total lossless).at n) p ℓ R := by
  apply Protocol.safe_resilient (G := fun _ => True) hP hp (Program.resilient_any p)
    (fun a => hR _) (fun _ e => hR _) hn
  intro op hop
  obtain ⟨hlink, h⟩ := hkeep op hop
  refine ⟨hlink, fun w f r w' hinv hmine hallowed hhappens => ?_⟩
  obtain ⟨hbase', hmine'⟩ := h w f r w' hinv hmine hallowed hhappens
  exact ⟨hbase', hmine', fun _ _ => trivial⟩

/-- The session `n` may end with the outcome `a` in the ghost state `ℓ`. -/
def Protocol.Ends (P : Protocol σ Q Op Res ε β L) (Returns : (op : Op) → σ → Res op → σ → Prop)
    (total lossless : Op → Prop) (n : ℕ) (a : Except ε β) (ℓ : L) : Prop :=
  P.number ℓ = some n ∧ ∀ w f r w', P.Inv w (ℓ ::ₘ f) → P.mine ℓ w →
    P.allowed (.finish n a) w r → happens Returns total lossless (.finish n a) w r w' →
      P.base w' (P.idle ::ₘ f) ∧ P.ended n a w'

/-- A session that follows the protocol from its beginning on. -/
def Protocol.Follows (P : Protocol σ Q Op Res ε β L)
    (Returns : (op : Op) → σ → Res op → σ → Prop) (total lossless : Op → Prop) (n : ℕ) (q : Q)
    (p : Program Op Res ε β) : Prop :=
  ∀ w f r w', P.Inv w (P.idle ::ₘ f) → (∀ e ∈ w.entries, e.1.session ≠ n) →
    (∀ e ∈ w.effects, e.session ≠ n) → P.allowed (.begin n q) w r →
    happens Returns total lossless (.begin n q) w r w' →
      ∃ ℓ, P.number ℓ = some n ∧ P.base w' (ℓ ::ₘ f) ∧ P.mine ℓ w' ∧
        Safe ((P.discipline Returns total lossless).at n) p ℓ (P.Ends Returns total lossless n)

lemma Protocol.Follows.safely (hP : P.Lawful) {q : Q} {p : Program Op Res ε β}
    (h : P.Follows Returns total lossless n q p) :
    Safely (P.discipline Returns total lossless) (session n q p) P.idle := by
  apply safe_session (D := P.discipline Returns total lossless) rfl
  intro w f r w' hinv hallowed (hhappens : happens Returns total lossless (.begin n q) w r w')
  have hnew : ∀ q, ¬w.Begun n q := hhappens.2.1
  obtain ⟨ℓ, hn, hbase, hmine, hsafe⟩ := h w f r w' hinv
    (fun e he heq => by
      obtain ⟨q, hq⟩ := hinv.entries e he
      rw [heq] at hq
      exact hnew q hq)
    (fun e he heq => by
      obtain ⟨q, hq⟩ := hinv.effects e he
      rw [heq] at hq
      exact hnew q hq) hallowed hhappens
  refine ⟨ℓ, hinv.begin hP hhappens hn hbase hmine, hsafe.mono fun a ℓ hends => ?_⟩
  refine ⟨hends.1, ?_⟩
  intro w f r w' hinv hallowed (hhappens : happens Returns total lossless (.finish n a) w r w')
  refine ⟨P.idle, ?_, rfl⟩
  have hmine := (hinv.running ℓ (Multiset.mem_cons_self ..) n hends.1).2.2
  obtain ⟨hbase', hover⟩ := hends.2 w f r w' hinv hmine hallowed hhappens
  exact hinv.finish hP hends.1 hhappens hbase' hover

/-- **Soundness.** Sessions that follow a protocol keep its invariant. -/
theorem Protocol.governs (hP : P.Lawful) {program : Q → Program Op Res ε β} {init : σ → Prop}
    {other : σ → σ → Prop}
    {cond : Multiset (Program (Event Q Op (Except ε β)) (Event.Res Res) ε Unit) →
      (e : Event Q Op (Except ε β)) → Journal σ Q Op Res ε β → Except ε (e.Res Res) → Prop}
    (hinit : ∀ w, init w.state → w.entries = [] → w.effects = [] → P.base w 0)
    (hidle : ∀ w f, P.base w f → P.base w (P.idle ::ₘ f))
    (hworld : ∀ w w' f, w'.entries = w.entries → w'.effects = w.effects →
      other w.state w'.state → P.base w f → P.base w' f)
    (hcond : ∀ rest e w r, cond rest e w r → P.allowed e w r)
    (hprogram : ∀ n q, P.Follows Returns total lossless n q (program q)) :
    Governs (P.discipline Returns total lossless)
      (sessions Returns total lossless program init other cond) where
  env _ _ _ _ h := h
  init w h := by
    obtain ⟨hstate, hentries, heffects⟩ := h
    refine ⟨hinit w hstate hentries heffects, Multiset.nodup_zero, fun n q q' hq => ?_,
      fun ℓ hℓ => absurd hℓ (Multiset.notMem_zero _), fun n q hq => ?_, ?_, ?_, fun n a ha => ?_⟩
    · rw [Journal.Begun, hentries] at hq
      cases hq
    · rw [Journal.Begun, hentries] at hq
      cases hq
    · intro e he
      rw [hentries] at he
      cases he
    · intro e he
      rw [heffects] at he
      cases he
    · rw [Journal.Finished, hentries] at ha
      cases ha
  start w p h := by
    obtain ⟨n, q, rfl⟩ := h
    refine ⟨P.idle, (hprogram n q).safely hP, fun f hf => ⟨hidle w f hf.base, ?_, hf.asked,
      fun ℓ hℓ m hm => ?_, fun m q hq => ?_, hf.entries, hf.effects, hf.ended⟩⟩
    · rw [Multiset.filterMap_cons_none _ _ hP.idle]
      exact hf.nodup
    · rcases Multiset.mem_cons.mp hℓ with rfl | hℓ
      · rw [hP.idle] at hm
        cases hm
      · exact hf.running ℓ hℓ m hm
    · rcases hf.entered m q hq with ⟨ℓ, hℓ, hm⟩ | hover
      · exact .inl ⟨ℓ, Multiset.mem_cons_of_mem hℓ, hm⟩
      · exact .inr hover
  world w w' f h hf := by
    obtain ⟨hentries, heffects, hother⟩ := h
    have hagrees : ∀ n, w.Agrees n w' := fun n => .of_eq hentries heffects
    have hbegun : ∀ n q, w'.Begun n q ↔ w.Begun n q := fun n q => by
      rw [Journal.Begun, Journal.Begun, hentries]
    have hfinished : ∀ n a, w'.Finished n a ↔ w.Finished n a := fun n a => by
      rw [Journal.Finished, Journal.Finished, hentries]
    refine ⟨hworld w w' f hentries heffects hother hf.base, hf.nodup, ?_, fun ℓ hℓ n hn => ?_, ?_,
      ?_, ?_, fun n a ha => ?_⟩
    · simpa only [hbegun] using hf.asked
    · obtain ⟨hbegun', hfinished', hmine⟩ := hf.running ℓ hℓ n hn
      simp only [hbegun, hfinished]
      exact ⟨hbegun', hfinished', hP.mine n ℓ w w' hn (hagrees n) hmine⟩
    · simpa only [hbegun, hfinished] using hf.entered
    · simpa only [hbegun, hentries] using hf.entries
    · simpa only [hbegun, heffects] using hf.effects
    · exact hP.ended n a w w' (hagrees n) (hf.ended n a ((hfinished n a).mp ha))
  cond rest f e w r _ h := hcond rest e w r h

/-- The session of a ghost state is in progress, and its next event is a call that the ghost state
links it to, or its end, with which what is said of finished sessions becomes true. -/
theorem Protocol.next_of_ghost (hP : P.Lawful)
    {s : Pool (Journal σ Q Op Res ε β) (Event Q Op (Except ε β)) (Event.Res Res) ε}
    (hrel : Multiset.Rel (Safely (P.discipline Returns total lossless)) s.threads f)
    (hinv : P.Inv s.world f) (hℓ : ℓ ∈ f) (hn : P.number ℓ = some n) :
    ∃ p ∈ s.threads, ∃ e, p.next = some e ∧ e.session = n ∧
      ((∃ op, e = .call n op ∧ P.link ℓ op) ∨ ∃ a, e = .finish n a ∧
        (P.allowed (.finish n a) s.world (.ok ()) →
          P.ended n a { s.world with entries := s.world.entries ++ [⟨.finish n a, .ok ()⟩] })) := by
  rw [← Multiset.rel_flip] at hrel
  obtain ⟨p, hp, hsafe⟩ := Multiset.exists_mem_of_rel_of_mem hrel hℓ
  refine ⟨p, hp, ?_⟩
  cases p with
  | done r =>
    have hidle : ℓ = P.idle := hsafe
    rw [hidle, hP.idle] at hn
    cases hn
  | await e k =>
    refine ⟨e, rfl, ?_⟩
    have hlink : (P.discipline Returns total lossless).link ℓ e := hsafe.1
    cases e with
    | begin m q =>
      have hidle : ℓ = P.idle := hlink
      rw [hidle, hP.idle] at hn
      cases hn
    | call m op =>
      obtain rfl : m = n := Option.some.inj (hlink.1.symm.trans hn)
      exact ⟨rfl, .inl ⟨op, rfl, hlink.2⟩⟩
    | finish m a =>
      have hnum : P.number ℓ = some m := hlink
      obtain rfl : m = n := Option.some.inj (hnum.symm.trans hn)
      refine ⟨rfl, .inr ⟨a, rfl, fun hallowed => ?_⟩⟩
      obtain ⟨f, rfl⟩ := Multiset.exists_cons_of_mem hℓ
      obtain ⟨ℓ', hinv', -⟩ := hsafe.2 s.world f (.ok ())
        { s.world with entries := s.world.entries ++ [⟨.finish m a, .ok ()⟩] } hinv hallowed
        ⟨rfl, rfl⟩
      exact hinv'.ended m a (List.mem_append_right _ (List.mem_singleton_self _))

/-- A session that has begun is finished, or it is one of the sessions in progress. -/
theorem Protocol.in_progress {S : Setting (Journal σ Q Op Res ε β) (Event Q Op (Except ε β))
    (Event.Res Res) ε} (hP : P.Lawful) (hS : Governs (P.discipline Returns total lossless) S)
    {s : Pool (Journal σ Q Op Res ε β) (Event Q Op (Except ε β)) (Event.Res Res) ε}
    (h : (system S).Reachable s) {q : Q} (hq : s.world.Begun n q) :
    (∃ a, s.world.Finished n a) ∨ ∃ p ∈ s.threads, ∃ e, p.next = some e ∧ e.session = n := by
  obtain ⟨f, hrel, hinv⟩ := reachable_sound hS h
  rcases hinv.entered n q hq with ⟨ℓ, hℓ, hn⟩ | hfinished
  · obtain ⟨p, hp, e, he, hsession, -⟩ := Protocol.next_of_ghost hP hrel hinv hℓ hn
    exact .inr ⟨p, hp, e, he, hsession⟩
  · exact .inl hfinished

end Programs

end Protocols

end Async
