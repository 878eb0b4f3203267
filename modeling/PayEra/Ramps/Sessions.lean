import PayEra.Lib.Protocol
import PayEra.Ramps.Service

/-!
# The sessions of the ramps service

Any number of initiations, refreshes and ticks of the poller, interleaved at their calls over one
database, with any answers of the provider and any failures.
-/

namespace PayEra.Ramps

open Async (Program Event Journal Setting)
open Async.Program

abbrev Happening := Event Asked Op (Except Thrown Unit)

abbrev Happening.Res (e : Happening) : Type := Event.Res Op.Res e

/-- The database with the journal of the sessions. -/
abbrev Desk := Journal Rails Asked Op Op.Res Thrown Unit

/-- A call that took effect. -/
abbrev Done := Async.Effect Rails Op

abbrev InProgress := Program Happening (Event.Res Op.Res) Thrown Unit

abbrev DeskState := Async.Pool Desk Happening (Event.Res Op.Res) Thrown

/-- A condition on what happens, given the other sessions in progress. -/
abbrev DeskCondition :=
  Multiset InProgress → (e : Happening) → Desk → Except Thrown (Happening.Res e) → Prop

def anyHappening : DeskCondition := fun _ _ _ _ => True

/-- No ramps yet. -/
structure Rails.Empty (s : Rails) : Prop where
  ramps : s.ramps = []
  events : s.events = []

abbrev desk (anchor : Anchor) (cond : DeskCondition) :=
  Async.system (Async.sessions Returns Total (fun _ => False) (Asked.program anchor) Rails.Empty
    Rails.Other cond)

/-- Any event of a session. -/
abbrev Happens (e : Happening) (w : Desk) (r : Except Thrown (Happening.Res e)) (w' : Desk) : Prop :=
  Async.happens Returns Total (fun _ => False) e w r w'

/-! ### Steps -/

section Steps

variable {anchor : Anchor} {cond : DeskCondition} {s t : DeskState}
  {l : Async.Label Happening (Event.Res Op.Res) Thrown}

/-- A step is a call of a session, or it changes neither rows nor events nor effects. -/
lemma desk_step (h : (desk anchor cond).Step s l t) :
    (t.world.state.ramps = s.world.state.ramps ∧ t.world.state.events = s.world.state.events ∧
      t.world.effects = s.world.effects) ∨
    ∃ n op r k rest, s.threads = .await (.call n op) k ::ₘ rest ∧
      cond rest (.call n op) s.world r ∧ Happens (.call n op) s.world r t.world := by
  cases l with
  | call e r =>
    obtain ⟨k, rest, hs, hcond, henv, -⟩ := h
    cases e with
    | call n op => exact .inr ⟨n, op, r, k, rest, hs, hcond, henv⟩
    | begin n q =>
      obtain ⟨-, -, hw⟩ := henv
      rw [hw]
      exact .inl ⟨rfl, rfl, rfl⟩
    | finish n a =>
      obtain ⟨-, hw⟩ := henv
      rw [hw]
      exact .inl ⟨rfl, rfl, rfl⟩
  | start p =>
    obtain ⟨-, hw, -⟩ := h
    rw [hw]
    exact .inl ⟨rfl, rfl, rfl⟩
  | world =>
    obtain ⟨⟨-, heffects, hother⟩, -⟩ := h
    exact .inl ⟨hother.ramps, hother.events, heffects⟩

end Steps

end PayEra.Ramps
