import PayEra.Api.Transactions
import PayEra.Lib.Transcript

/-!
# Live rates

`getLiveRates` of `apps/api/src/transactions/transactions.service.ts`, with the rates that it keeps in
memory. A request that finds them too old asks for new ones, and others may do so in the meantime; where
it fails, old rates or static estimates are taken. Rates that are served without asking were asked for
less than a minute ago, and no rate is zero.
-/

namespace PayEra.Api.LiveRates

open Async (Program Event Journal Setting Exchange told told_of_reachable invariant_of_told upon)
open Async.Program Async.Script

/-! ### Data -/

abbrev Rates : Type := AssetCode → ℚ

/-- What is read of CoinGecko's answer; a price may be missing. -/
structure Prices where
  stellar : Option ℚ
  usdCoin : Option ℚ
  bitcoin : Option ℚ
  ethereum : Option ℚ
  solana : Option ℚ

/-- `price || estimate` -/
def orElse (price : Option ℚ) (estimate : ℚ) : ℚ := (price.filter (· ≠ 0)).getD estimate

def Prices.rates (data : Prices) : Rates
  | .XLM => orElse data.stellar 9
  | .USDC => orElse data.usdCoin 83
  | .BTC => orElse data.bitcoin 9000000
  | .ETH => orElse data.ethereum 300000
  | .SOL => orElse data.solana 14000
  | .INR => 1

def estimates : Rates
  | .XLM => 9
  | .USDC => 83
  | .BTC => 9000000
  | .ETH => 300000
  | .SOL => 14000
  | .INR => 1

/-- What is kept in memory; `none` has no keys. -/
structure Cache where
  rateCache : Option Rates := none
  rateCacheTime : ℕ := 0

/-- What the condition on the cache looks at, in one go. -/
structure Look extends Cache where
  now : ℕ

/-- The rates of the last minute. -/
def Look.fresh (look : Look) : Option Rates :=
  if look.now < look.rateCacheTime + 60000 then look.rateCache else none

/-! ### Calls -/

inductive Op where
  | look
  /-- CoinGecko, behind the circuit breaker. -/
  | fetchPrices
  /-- `this.rateCache = ...; this.rateCacheTime = now` -/
  | keep (data : Prices) (now : ℕ)
  /-- What the `catch` does. -/
  | fallBack

abbrev Op.Res : Op → Type
  | .look => Look
  | .fetchPrices => Prices
  | .keep .. | .fallBack => Rates

/-- What happens within the process. -/
def Op.Local : Op → Prop
  | .fetchPrices => False
  | .look | .keep .. | .fallBack => True

def Cache.keep (data : Prices) (now : ℕ) : Cache where
  rateCache := some data.rates
  rateCacheTime := now

def Cache.fallBack (c : Cache) : Rates := c.rateCache.getD estimates

/-- The time and the prices are arbitrary. -/
def Returns : (op : Op) → Cache → op.Res → Cache → Prop
  | .look, c, look, c' => look.toCache = c ∧ c' = c
  | .fetchPrices, c, _, c' => c' = c
  | .keep data now, _, rates, c' => rates = data.rates ∧ c' = Cache.keep data now
  | .fallBack, c, rates, c' => rates = c.fallBack ∧ c' = { c with rateCache := some c.fallBack }

/-! ### The service -/

abbrev Service (α : Type) := Program Op Op.Res String α

def call (op : Op) : Service op.Res := Program.perform op

def getLiveRates : Service Rates := do
  let look : Look ← call .look
  match look.fresh with
  | some rates => pure rates
  | none =>
    match ← (call .fetchPrices).attempt with
    | .ok data => call (.keep data look.now)
    | .error _ => call .fallBack

abbrev Happening := Event Unit Op (Except String Rates)

abbrev Board := Journal Cache Unit Op Op.Res String Rates

/-- Any number of requests for rates, from a cache that is empty. -/
abbrev quotingTraffic : Setting Board Happening (Event.Res Op.Res) String :=
  Async.sessions Returns Op.Local Op.Local (fun _ => getLiveRates) (fun c => c = {})
    (fun c c' => c' = c) fun _ _ _ _ => True

abbrev quoting := Async.system quotingTraffic

abbrev QuotingState := Async.Pool Board Happening (Event.Res Op.Res) String

/-! ### Programs -/

abbrev Transcript := List (Exchange Op Op.Res String)

/-- The session has looked at the time, and after that it was told the prices. -/
def Asked (l : Transcript) (data : Prices) (now : ℕ) : Prop :=
  ∃ look : Look, look.now = now ∧
    List.Sublist [⟨.look, .ok look⟩, ⟨.fetchPrices, .ok data⟩] l

/-- Rates are kept with the time before they were asked for, and the `catch` follows a failure. -/
def Orderly (_ : Unit) (l : Transcript) : Op → Prop
  | .look | .fetchPrices => True
  | .keep data now => Asked l data now
  | .fallBack => ∃ e, ⟨.fetchPrices, .error e⟩ ∈ l

/-- Where the rates of a session come from. -/
inductive Served (l : Transcript) (rates : Rates) : Prop where
  | cached (look : Look) (hlook : ⟨.look, .ok look⟩ ∈ l) (hfresh : look.fresh = some rates)
  | asked (data : Prices) (now : ℕ) (hasked : Asked l data now) (hrates : ⟨.keep data now, .ok rates⟩ ∈ l)
  | failed (e : String) (hfailed : ⟨.fetchPrices, .error e⟩ ∈ l) (hrates : ⟨.fallBack, .ok rates⟩ ∈ l)

lemma Asked.mono {l l' : Transcript} {data : Prices} {now : ℕ} (h : Asked l data now)
    (hl : l.Sublist l') : Asked l' data now := by
  obtain ⟨look, hnow, hasked⟩ := h
  exact ⟨look, hnow, hasked.trans hl⟩

lemma admits_getLiveRates : (told Orderly).Admits getLiveRates ((), [])
    (upon (fun rates κ => Served κ.2 rates) fun _ => True) := by
  refine admits_call trivial (fun _ _ _ => trivial) ?_
  rintro look κ rfl
  dsimp only
  cases hfresh : look.fresh with
  | some rates => exact .cached look (List.mem_singleton_self _) hfresh
  | none =>
    refine admits_attempt (R := fun data κ => κ = ((), [⟨.look, .ok look⟩, ⟨.fetchPrices, .ok data⟩]))
      (E := fun κ => ∃ e, κ = ((), [⟨.look, .ok look⟩, ⟨.fetchPrices, .error e⟩])) ?_ ?_ ?_
    · refine admits_perform trivial ?_
      rintro r κ rfl
      cases r with
      | ok data => rfl
      | error e => exact ⟨e, rfl⟩
    · rintro data κ rfl
      have hasked : Asked [⟨.look, .ok look⟩, ⟨.fetchPrices, .ok data⟩] data look.now :=
        ⟨look, rfl, List.Sublist.refl _⟩
      refine admits_perform hasked ?_
      rintro r κ rfl
      cases r with
      | ok rates =>
        refine .asked data look.now (hasked.mono (List.sublist_append_left ..)) ?_
        exact List.mem_append_right _ (List.mem_singleton_self _)
      | error e => trivial
    · rintro e κ ⟨e', rfl⟩
      refine admits_perform ⟨e', by simp⟩ ?_
      rintro r κ rfl
      cases r with
      | ok rates =>
        refine .failed e' (by simp) ?_
        exact List.mem_append_right _ (List.mem_singleton_self _)
      | error e => trivial

/-! ### The cache -/

/-- The rates and the time of the cache are those of a session, or it was empty. -/
def Kept (w : Board) (c : Cache) : Prop :=
  c.rateCacheTime = 0 ∧ (c.rateCache = none ∨ c.rateCache = some estimates) ∨
    ∃ m data now r, w.Answered m (.keep data now) r ∧ c = Cache.keep data now

/-- What is in memory, and what was ever read from it. -/
structure Traced (w : Board) : Prop where
  cache : Kept w w.state
  looks : ∀ n (look : Look), w.Answered n .look (.ok look) → Kept w look.toCache
  keeps : ∀ n data now rates, w.Answered n (.keep data now) (.ok rates) → rates = data.rates
  fallBacks : ∀ n rates, w.Answered n .fallBack (.ok rates) → ∃ c, Kept w c ∧ rates = c.fallBack

section Cache

variable {w w' : Board} {n : ℕ} {op : Op} {s : QuotingState}

lemma Kept.mono {c : Cache} (h : Kept w c) (hentries : w.entries ⊆ w'.entries) : Kept w' c := by
  refine h.imp_right ?_
  rintro ⟨m, data, now, r, hkeep, rfl⟩
  exact ⟨m, data, now, r, hentries hkeep, rfl⟩

/-- Falling back does not touch rates that are there. -/
lemma Kept.fallBack {c : Cache} (h : Kept w c) : Kept w { c with rateCache := some c.fallBack } := by
  rcases h with ⟨htime, hnone | hsome⟩ | ⟨m, data, now, r, hkeep, rfl⟩
  · exact .inl ⟨htime, .inr (by rw [Cache.fallBack, hnone]; rfl)⟩
  · exact .inl ⟨htime, .inr (by rw [Cache.fallBack, hsome]; rfl)⟩
  · exact .inr ⟨m, data, now, r, hkeep, rfl⟩

/-- What a call makes of the cache is kept. -/
lemma Kept.returns {v : op.Res} {c' : Cache} {r : Except String op.Res} (h : Kept w w.state)
    (hreturns : Returns op w.state v c') (hentries : w'.entries = w.entries ++ [⟨.call n op, r⟩]) :
    Kept w' c' := by
  have hsubset : w.entries ⊆ w'.entries := by
    rw [hentries]
    exact List.subset_append_left ..
  cases op with
  | look => exact hreturns.2 ▸ h.mono hsubset
  | fetchPrices => exact hreturns ▸ h.mono hsubset
  | fallBack => exact hreturns.2 ▸ (h.mono hsubset).fallBack
  | keep data now =>
    refine .inr ⟨n, data, now, r, ?_, hreturns.2⟩
    rw [Journal.Answered, hentries]
    exact List.mem_append_right _ (List.mem_singleton_self _)

lemma Traced.call {r : Except String op.Res} (h : Traced w)
    (hhappens : Async.happens Returns Op.Local Op.Local (.call n op) w r w') : Traced w' := by
  have hentries : w.entries ⊆ w'.entries := by
    rw [hhappens.1]
    exact List.subset_append_left ..
  refine ⟨?_, fun m look hm => ?_, fun m data now rates hm => ?_, fun m rates hm => ?_⟩
  · rcases Async.happens_call hhappens with ⟨hstate, -⟩ | ⟨⟨v, hreturns⟩, -⟩
    · rw [hstate]
      exact h.cache.mono hentries
    · exact h.cache.returns hreturns hhappens.1
  · rcases Async.answered_happens hhappens hm with hm | heq
    · exact (h.looks m look hm).mono hentries
    · cases heq
      rw [hhappens.2.1.1]
      exact h.cache.mono hentries
  · rcases Async.answered_happens hhappens hm with hm | heq
    · exact h.keeps m data now rates hm
    · cases heq
      exact hhappens.2.1.1
  · rcases Async.answered_happens hhappens hm with hm | heq
    · obtain ⟨c, hc, hrates⟩ := h.fallBacks m rates hm
      exact ⟨c, hc.mono hentries, hrates⟩
    · cases heq
      exact ⟨w.state, h.cache.mono hentries, hhappens.2.1.1⟩

/-- **The cache is traced** to the sessions that filled it. -/
theorem traced_of_reachable (hs : quoting.Reachable s) : Traced s.world := by
  refine invariant_of_told (fun _ => admits_getLiveRates) ?_
    (fun n q op w r w' h hcall _ _ => h.call hcall) ?_ hs
  · intro w hstate hentries _
    have hnone : ∀ n op r, ¬w.Answered n op r := by
      intro n op r hr
      rw [Journal.Answered, hentries] at hr
      cases hr
    refine ⟨?_, fun n _ h => (hnone _ _ _ h).elim, fun n _ _ _ h => (hnone _ _ _ h).elim,
      fun n _ h => (hnone _ _ _ h).elim⟩
    rw [hstate]
    exact .inl ⟨rfl, .inl rfl⟩
  · intro w w' h hentries hanswered _ hstate
    have heq : w'.state = w.state := hstate.elim (fun h => h) fun h => h
    refine ⟨heq ▸ h.cache.mono hentries, fun n look hn => ?_, fun n data now rates hn => ?_,
      fun n rates hn => ?_⟩
    · exact (h.looks n look (hanswered n _ _ hn)).mono hentries
    · exact h.keeps n data now rates (hanswered n _ _ hn)
    · obtain ⟨c, hc, hrates⟩ := h.fallBacks n rates (hanswered n _ _ hn)
      exact ⟨c, hc.mono hentries, hrates⟩

/-- The rates are the static estimates, or were asked for at the time. -/
def Since (w : Board) (rates : Rates) (now : ℕ) : Prop :=
  rates = estimates ∧ now = 0 ∨ ∃ m data, Asked (w.own m) data now ∧ rates = data.rates

lemma orElse_ne_zero {price : Option ℚ} {estimate : ℚ} (h : estimate ≠ 0) : orElse price estimate ≠ 0 := by
  rw [orElse]
  cases hprice : price.filter (· ≠ 0) with
  | none => exact h
  | some x => simpa using (Option.filter_eq_some_iff.mp hprice).2

/-- No price is zero. -/
lemma Since.ne_zero {rates : Rates} {now : ℕ} (h : Since w rates now) (asset : AssetCode) :
    rates asset ≠ 0 := by
  rcases h with ⟨rfl, -⟩ | ⟨m, data, -, rfl⟩
  · cases asset with
    | _ => simp [estimates]
  · cases asset with
    | INR => simp [Prices.rates]
    | _ => exact orElse_ne_zero (by simp)

/-- What is kept was asked for at the time. -/
lemma Kept.since (hs : quoting.Reachable s) {c : Cache} (h : Kept s.world c) {rates : Rates}
    (hrates : c.fallBack = rates) : Since s.world rates c.rateCacheTime := by
  subst hrates
  rcases h with ⟨htime, hnone | hsome⟩ | ⟨m, data, now, r, hkeep, rfl⟩
  · exact .inl ⟨by rw [Cache.fallBack, hnone]; rfl, htime⟩
  · exact .inl ⟨by rw [Cache.fallBack, hsome]; rfl, htime⟩
  · obtain ⟨l, hcalled⟩ := Async.exists_called hkeep
    obtain ⟨q, -, hchecked⟩ := Async.checked_of_called (fun _ => admits_getLiveRates) hs hcalled
    exact .inr ⟨m, data, Asked.mono hchecked hcalled.sublist, rfl⟩

/-- **Rates.** However requests interleave: the rates that a session ends with are not zero, and they were
asked for less than a minute before the session has looked at the time, or its own request has failed. -/
theorem rates_recent (hs : quoting.Reachable s) {rates : Rates}
    (hfinished : s.world.Finished n (.ok rates)) :
    (∀ asset, rates asset ≠ 0) ∧ ∃ now, Since s.world rates now ∧
      ((∃ look : Look, s.world.Answered n .look (.ok look) ∧ look.now < now + 60000) ∨
        ∃ e, s.world.Answered n .fetchPrices (.error e)) := by
  obtain ⟨q, hq⟩ := Async.begun_of_finished hs hfinished
  have hserved : Served (s.world.own n) rates :=
    (told_of_reachable (fun _ => admits_getLiveRates) hs hq).2 _ hfinished
  have htraced := traced_of_reachable hs
  have hsince : ∃ now, Since s.world rates now ∧
      ((∃ look : Look, s.world.Answered n .look (.ok look) ∧ look.now < now + 60000) ∨
        ∃ e, s.world.Answered n .fetchPrices (.error e)) := by
    cases hserved with
    | cached look hlook hfresh =>
      have hread := Async.mem_own.mp hlook
      rw [Look.fresh] at hfresh
      split_ifs at hfresh with hlt
      refine ⟨_, (htraced.looks n look hread).since hs ?_, .inl ⟨look, hread, hlt⟩⟩
      rw [Cache.fallBack, hfresh]
      rfl
    | asked data now hasked hrates =>
      have hlooked : ∃ look : Look, ⟨.look, .ok look⟩ ∈ s.world.own n ∧ look.now = now := by
        obtain ⟨look, hnow, hsublist⟩ := hasked
        exact ⟨look, hsublist.subset (List.mem_cons_self ..), hnow⟩
      obtain ⟨look, hlook, hnow⟩ := hlooked
      obtain rfl := htraced.keeps n data now rates (Async.mem_own.mp hrates)
      refine ⟨now, .inr ⟨n, data, hasked, rfl⟩, .inl ⟨look, ?_, by omega⟩⟩
      exact Async.mem_own.mp hlook
    | failed e hfailed hrates =>
      obtain ⟨c, hc, rfl⟩ := htraced.fallBacks n rates (Async.mem_own.mp hrates)
      exact ⟨_, hc.since hs rfl, .inr ⟨e, Async.mem_own.mp hfailed⟩⟩
  obtain ⟨now, hnow, hrecent⟩ := hsince
  exact ⟨hnow.ne_zero, now, hnow, hrecent⟩

end Cache

/-! ### Two requests -/

namespace TwoRequests

def prices : Prices where
  stellar := some 30
  usdCoin := some 88
  bitcoin := none
  ethereum := some 0
  solana := some 12000

def reply : (op : Op) → Cache → Except String op.Res × Cache
  | .look, c => (.ok { toCache := c, now := 100000 }, c)
  | .fetchPrices, c => (.ok prices, c)
  | .keep data now, _ => (.ok data.rates, Cache.keep data now)
  | .fallBack, c => (.ok c.fallBack, { c with rateCache := some c.fallBack })

lemma played_reply (op : Op) (c : Cache) : Async.Played Returns Op.Local op c (reply op c) := by
  cases op with
  | fetchPrices => rfl
  | look | keep | fallBack => exact ⟨rfl, rfl⟩

abbrev InProgress := Async.Program Happening (Event.Res Op.Res) String Unit

def after (n : ℕ) (w : Board) : InProgress × Board :=
  (Async.session n () getLiveRates).runFor (Async.journalled reply) 6 w

lemma run_after {n : ℕ} {w : Board} {threads : Multiset InProgress}
    (h : (Async.session n () getLiveRates).checkFor (Async.journalled reply)
      (fun e w _ => Async.unused e w) 6 w) :
    ∃ tr, quoting.Run ⟨w, threads⟩ tr ⟨(after n w).2, (after n w).1 ::ₘ threads⟩ :=
  Async.run_session played_reply (fun _ _ _ => trivial) h

def first : InProgress × Board := after 0 { state := {} }

def second : InProgress × Board := after 1 first.2

end TwoRequests

/-- The second request is served what the first one has asked for. -/
theorem rates_recent_of_cached : ∃ (s : QuotingState) (rates : Rates), quoting.Reachable s ∧
    s.world.Finished 1 (.ok rates) ∧ rates .XLM = 30 ∧ (∀ asset, rates asset ≠ 0) ∧
      ∃ now, Since s.world rates now := by
  have hinit : quoting.Init ⟨{ state := {} }, 0⟩ := ⟨⟨rfl, rfl, rfl⟩, rfl⟩
  have hfirst : ∃ tr, quoting.Run ⟨{ state := {} }, 0⟩ tr
      ⟨TwoRequests.first.2, TwoRequests.first.1 ::ₘ 0⟩ :=
    TwoRequests.run_after (by decide +kernel)
  obtain ⟨tr₁, hrun₁⟩ := hfirst
  have hsecond : ∃ tr, quoting.Run ⟨TwoRequests.first.2, TwoRequests.first.1 ::ₘ 0⟩ tr
      ⟨TwoRequests.second.2, TwoRequests.second.1 ::ₘ TwoRequests.first.1 ::ₘ 0⟩ :=
    TwoRequests.run_after (by decide +kernel)
  obtain ⟨tr₂, hrun₂⟩ := hsecond
  have hreach := (Transition.System.Reachable.init hinit).run (hrun₁.append hrun₂)
  have hentry : TwoRequests.second.2.entries[7]? =
      some ⟨.finish 1 (.ok TwoRequests.prices.rates), .ok ()⟩ := rfl
  have hfinished : TwoRequests.second.2.Finished 1 (.ok TwoRequests.prices.rates) :=
    List.mem_of_getElem? hentry
  obtain ⟨hne, now, hnow, -⟩ := rates_recent hreach hfinished
  exact ⟨_, _, hreach, hfinished, rfl, hne, now, hnow⟩

end PayEra.Api.LiveRates
