import PayEra.Lib.Governance

/-!
# Contracts that publish what they do

A contract appends events to its log, and whoever follows the log keeps a view of the storage: every
event is applied to the view, in order. The view is right if every call that returns changes the storage,
as the view shows it, by the events that it has published; it may rely on an invariant of the storage.
Then the log alone tells the view, from the beginning or from any checkpoint on.
-/

namespace Soroban

open Transition Call

/-- Events were published, and they account for what has changed in the view. -/
def Publishes {τ E V : Type} (events : τ → List E) (view : τ → V) (apply : V → E → V) (s t : τ) : Prop :=
  ∃ es, events t = events s ++ es ∧ view t = es.foldl apply (view s)

namespace Publishes

variable {τ E V : Type} {events : τ → List E} {view : τ → V} {apply : V → E → V} {s t u : τ} {e : E}

lemma refl (s : τ) : Publishes events view apply s s := ⟨[], by simp, rfl⟩

/-- One event was published. -/
lemma of_event (hevents : events t = events s ++ [e]) (hview : view t = apply (view s) e) :
    Publishes events view apply s t :=
  ⟨[e], hevents, hview⟩

lemma trans (h : Publishes events view apply s t) (h' : Publishes events view apply t u) :
    Publishes events view apply s u := by
  obtain ⟨es, hlog, hview⟩ := h
  obtain ⟨es', hlog', hview'⟩ := h'
  refine ⟨es ++ es', ?_, ?_⟩
  · rw [hlog', hlog, List.append_assoc]
  · rw [hview', hview, List.foldl_append]

/-- What was told before is still told. -/
lemma told {v : V} (h : Publishes events view apply s t)
    (hview : view s = (events s).foldl apply v) : view t = (events t).foldl apply v := by
  obtain ⟨es, hlog, hnext⟩ := h
  rw [hnext, hlog, hview, List.foldl_append]

end Publishes

/-- A hosted contract with a log and a view that is kept by it. -/
structure Journaled (ε σ τ ι κ l E V : Type) extends Hosted ε σ τ ι κ l where
  events : τ → List E
  /-- What the log tells of the storage. -/
  view : τ → V
  /-- The view before the first event. -/
  blank : V
  apply : V → E → V
  /-- The invariant of the storage. -/
  kept : τ → Prop
  deployed : ∀ c, system.Init c → kept (own (state c)) ∧
    view (own (state c)) = (events (own (state c))).foldl apply blank
  turn : ∀ env i s t, kept (own s) → (exec i).run env s = .ok ((), t) →
    kept (own t) ∧ Publishes events view apply (own s) (own t)

namespace Journaled

variable {ε σ τ ι κ l E V : Type} (J : Journaled ε σ τ ι κ l E V)

/-- What a reader of the whole log sees. -/
def replay (es : List E) : V := es.foldl J.apply J.blank

/-- The log of the contract. -/
def log (c : κ) : List E := J.events (J.storage c)

/-- What the log is to tell. -/
def viewAt (c : κ) : V := J.view (J.storage c)

/-- From `c` to `d` events were added, and they account for what has changed. -/
def Continues (c d : κ) : Prop := Publishes J.events J.view J.apply (J.storage c) (J.storage d)

/-- The log tells the view: read from the beginning, or from here on whatever happens, and two
histories with one log have one view. -/
structure Told (c : κ) : Prop where
  replayed : J.viewAt c = J.replay (J.log c)
  resumed : ∀ tr d, J.system.Run c tr d → J.Continues c d
  determined : ∀ d, J.system.Reachable d → J.log d = J.log c → J.viewAt d = J.viewAt c

variable {J} {c d : κ} {a : l} {tr : List (Move κ l)}

/-- One transition: a call that returned has published what it did, and nothing else happens to the
contract. -/
lemma continues_step (hkept : J.kept (J.storage c)) (h : J.system.Step c a d) :
    J.kept (J.storage d) ∧ J.Continues c d := by
  rcases Hosted.moves h with ⟨-, hstorage⟩ | ⟨env, i, -, hrun⟩
  · rw [Continues, hstorage]
    exact ⟨hkept, .refl _⟩
  · exact J.turn env i _ _ hkept hrun

lemma continues_run (hkept : J.kept (J.storage c)) (h : J.system.Run c tr d) :
    J.kept (J.storage d) ∧ J.Continues c d := by
  induction h with
  | nil => exact ⟨hkept, .refl _⟩
  | snoc _ hstep ih =>
    obtain ⟨hlast, hcontinues⟩ := continues_step ih.1 hstep
    exact ⟨hlast, ih.2.trans hcontinues⟩

lemma replayed (h : J.system.Reachable c) :
    J.kept (J.storage c) ∧ J.viewAt c = J.replay (J.log c) := by
  obtain ⟨c₀, tr, h₀, hrun⟩ := h
  obtain ⟨hkept, hdeployed⟩ := J.deployed c₀ h₀
  obtain ⟨hlast, hcontinues⟩ := continues_run hkept hrun
  exact ⟨hlast, hcontinues.told hdeployed⟩

/-- **The log tells the view.** -/
theorem told (h : J.system.Reachable c) : J.Told c := by
  obtain ⟨hkept, hview⟩ := replayed h
  refine ⟨hview, fun tr d hrun => (continues_run hkept hrun).2, fun d hd heq => ?_⟩
  rw [(replayed hd).2, hview, heq]

end Journaled

end Soroban
