import Mathlib.Algebra.Order.Ring.Int
import Mathlib.Logic.Function.Basic
import PayEra.Lib.Transition

/-!
# Contract calls on a Soroban-like host

What a contract entrypoint can do on the host: read and write its own storage, ask for an
address's authorization, fail with a contract error or trap. A failing call is rolled back by
the host, so an error carries no storage.

An address is authorized either because it signed the invocation or because it is the contract
that makes this very call. A contract that calls another becomes the invoker of the nested call
and of that call only.

Instance and persistent entries are kept alive throughout, so extending their time to live is
the identity and is left out.
-/

namespace Soroban

/-! ### Values -/

/-- An account or contract address. -/
structure Address where
  key : Nat
  deriving DecidableEq, Repr

/-- `BytesN<32>`. -/
structure Bytes32 where
  bytes : List UInt8
  length_eq : bytes.length = 32
  deriving DecidableEq, Repr

/-- 32 equal bytes. -/
def Bytes32.fill (b : UInt8) : Bytes32 := ⟨List.replicate 32 b, by simp⟩

/-- `i128`: an integer with its range. -/
structure I128 where
  val : Int
  lower : -2 ^ 127 ≤ val
  upper : val < 2 ^ 127
  deriving DecidableEq, Repr

namespace I128

instance : Coe I128 Int := ⟨I128.val⟩

instance : Zero I128 := ⟨⟨0, by decide, by decide⟩⟩

@[simp] lemma val_zero : (0 : I128).val = 0 := rfl

@[ext] lemma ext {a b : I128} (h : a.val = b.val) : a = b := by
  cases a; cases b; congr

/-- A literal. -/
def lit (n : Int) (h : -2 ^ 127 ≤ n ∧ n < 2 ^ 127 := by decide) : I128 := ⟨n, h.1, h.2⟩

@[simp] lemma val_lit (n : Int) (h : -2 ^ 127 ≤ n ∧ n < 2 ^ 127) : (lit n h).val = n := rfl

/-- The checked conversion that every `checked_` operation ends in. -/
def ofInt? (z : Int) : Option I128 :=
  if h : -2 ^ 127 ≤ z ∧ z < 2 ^ 127 then some ⟨z, h.1, h.2⟩ else none

@[simp] lemma ofInt?_eq_some {z : Int} {a : I128} : ofInt? z = some a ↔ a.val = z := by
  unfold ofInt?
  constructor
  · intro h
    split_ifs at h
    cases h
    rfl
  · rintro rfl
    rw [dif_pos ⟨a.lower, a.upper⟩]

def checkedAdd (a b : I128) : Option I128 := ofInt? (a.val + b.val)

def checkedSub (a b : I128) : Option I128 := ofInt? (a.val - b.val)

def checkedMul (a b : I128) : Option I128 := ofInt? (a.val * b.val)

/-- `a / b`, which rounds toward zero and traps on a zero divisor and on overflow. -/
def checkedDiv (a b : I128) : Option I128 :=
  if b.val = 0 then none else ofInt? (a.val.tdiv b.val)

/-- `n as i128` for an `n : u32`. -/
def ofUInt32 (n : UInt32) : I128 :=
  ⟨n.toNat, by omega, by have := n.toNat_lt; omega⟩

@[simp] lemma val_ofUInt32 (n : UInt32) : (ofUInt32 n).val = n.toNat := rfl

@[simp] lemma checkedAdd_eq_some {a b c : I128} :
    checkedAdd a b = some c ↔ c.val = a.val + b.val := ofInt?_eq_some

@[simp] lemma checkedSub_eq_some {a b c : I128} :
    checkedSub a b = some c ↔ c.val = a.val - b.val := ofInt?_eq_some

@[simp] lemma checkedMul_eq_some {a b c : I128} :
    checkedMul a b = some c ↔ c.val = a.val * b.val := ofInt?_eq_some

@[simp] lemma checkedDiv_eq_some {a b c : I128} :
    checkedDiv a b = some c ↔ b.val ≠ 0 ∧ c.val = a.val.tdiv b.val := by
  unfold checkedDiv
  split_ifs with h <;> simp [h]

end I128

/-! ### Persistent maps -/

/-- What a map holds after one key was written. -/
lemma update_eq_some {κ α : Type*} [DecidableEq κ] {f : κ → Option α} {k x : κ} {v y : α} :
    Function.update f k (some v) x = some y ↔ x = k ∧ v = y ∨ x ≠ k ∧ f x = some y := by
  by_cases h : x = k
  · subst h
    simp
  · simp [h]

/-- Writing a free key keeps what the map held. -/
lemma update_of_free {κ α : Type*} [DecidableEq κ] {f : κ → Option α} {k x : κ} {y : α}
    (hfree : f k = none) (hx : f x = some y) (v : Option α) : Function.update f k v x = some y := by
  have hne : x ≠ k := by
    rintro rfl
    rw [hfree] at hx
    cases hx
  rw [Function.update_of_ne hne, hx]

/-! ### Calls -/

/-- What the host tells the running contract: the ledger sequence, who signed the invocation,
which contract made the call, and the contract's own address. -/
structure Env where
  ledger : Nat
  signed : Address → Bool
  invoker : Option Address
  self : Address

namespace Env

/-- `require_auth` succeeds for signers and for the direct invoker. -/
def auth (env : Env) (a : Address) : Bool := env.signed a || decide (env.invoker = some a)

/-- The environment of a call that this contract makes to `callee`. -/
def nested (env : Env) (callee : Address) : Env :=
  { env with invoker := some env.self, self := callee }

@[simp] lemma nested_auth_self (env : Env) (callee : Address) :
    (env.nested callee).auth env.self = true := by simp [auth, nested]

@[simp] lemma nested_self (env : Env) (callee : Address) : (env.nested callee).self = callee := rfl

@[simp] lemma nested_ledger (env : Env) (callee : Address) :
    (env.nested callee).ledger = env.ledger := rfl

end Env

/-- How a call fails: with one of the contract's errors, or with a trap. -/
inductive Halt (ε : Type) where
  | err (e : ε)
  | trap
  deriving DecidableEq, Repr

/-- A contract call over a state `σ`. -/
structure Call (ε σ α : Type) where
  run : Env → σ → Except (Halt ε) (α × σ)

namespace Call

variable {ε σ τ α β : Type}

instance : Monad (Call ε σ) where
  pure a := ⟨fun _ s => .ok (a, s)⟩
  bind x f := ⟨fun env s =>
    match x.run env s with
    | .ok (a, t) => (f a).run env t
    | .error e => .error e⟩

/-- `Err(e)`. -/
def fail (e : ε) : Call ε σ α := ⟨fun _ _ => .error (.err e)⟩

/-- `panic!`. -/
def trap : Call ε σ α := ⟨fun _ _ => .error .trap⟩

/-- `if p { return Err(e) }`. -/
def failIf (p : Prop) [Decidable p] (e : ε) : Call ε σ Unit := if p then fail e else pure ()

/-- `o.ok_or(e)?`. -/
def okOr (o : Option α) (e : ε) : Call ε σ α :=
  match o with
  | some a => pure a
  | none => fail e

/-- `o.unwrap_or_else(|| panic!(..))`. -/
def expect (o : Option α) : Call ε σ α :=
  match o with
  | some a => pure a
  | none => trap

/-- `a.require_auth()`. -/
def requireAuth (a : Address) : Call ε σ Unit :=
  ⟨fun env s => if env.auth a then .ok ((), s) else .error .trap⟩

/-- The state as it is now. -/
def get : Call ε σ σ := ⟨fun _ s => .ok (s, s)⟩

def modify (f : σ → σ) : Call ε σ Unit := ⟨fun _ s => .ok ((), f s)⟩

/-- `env.ledger().sequence()`. -/
def sequence : Call ε σ Nat := ⟨fun env s => .ok (env.ledger, s)⟩

/-- `env.current_contract_address()`. -/
def currentContractAddress : Call ε σ Address := ⟨fun env s => .ok (env.self, s)⟩

/-- A call whose answer nobody looks at. -/
def void (c : Call ε σ α) : Call ε σ Unit := do
  let _ ← c

/-- What the host keeps of a call: its storage if it returned, the old one otherwise. -/
def commit (c : Call ε σ α) (env : Env) (s : σ) : σ :=
  match c.run env s with
  | .ok (_, t) => t
  | .error _ => s

/-! ### Inversion of a successful call -/

variable {env : Env} {s t : σ} {a : α} {b : β}

@[simp] lemma run_pure : (pure a : Call ε σ α).run env s = .ok (a, s) := rfl

@[simp] lemma run_bind {x : Call ε σ α} {f : α → Call ε σ β} :
    (x >>= f).run env s = .ok (b, t) ↔
      ∃ a u, x.run env s = .ok (a, u) ∧ (f a).run env u = .ok (b, t) := by
  change (match x.run env s with
    | .ok (a, t) => (f a).run env t
    | .error e => .error e) = _ ↔ _
  cases x.run env s with
  | ok p => simp [Prod.ext_iff]
  | error e => simp

@[simp] lemma run_fail {e : ε} : (fail e : Call ε σ α).run env s = .error (.err e) := rfl

@[simp] lemma run_trap : (trap : Call ε σ α).run env s = .error .trap := rfl

@[simp] lemma run_failIf {p : Prop} [Decidable p] {e : ε} {u : Unit} :
    (failIf p e : Call ε σ Unit).run env s = .ok (u, t) ↔ ¬p ∧ t = s := by
  unfold failIf
  split_ifs with h <;> simp [h, eq_comm]

@[simp] lemma run_okOr {o : Option α} {e : ε} :
    (okOr o e : Call ε σ α).run env s = .ok (a, t) ↔ o = some a ∧ t = s := by
  cases o <;> simp [okOr, eq_comm]

@[simp] lemma run_expect {o : Option α} :
    (expect o : Call ε σ α).run env s = .ok (a, t) ↔ o = some a ∧ t = s := by
  cases o <;> simp [expect, eq_comm]

@[simp] lemma run_requireAuth {x : Address} {u : Unit} :
    (requireAuth x : Call ε σ Unit).run env s = .ok (u, t) ↔ env.auth x = true ∧ t = s := by
  cases h : env.auth x
  · simp [requireAuth, h]
  · simp [requireAuth, h, eq_comm (a := s)]

@[simp] lemma run_get {r : σ} :
    (get : Call ε σ σ).run env s = .ok (r, t) ↔ r = s ∧ t = s := by
  simp [get, eq_comm]

@[simp] lemma run_modify {f : σ → σ} {u : Unit} :
    (modify f : Call ε σ Unit).run env s = .ok (u, t) ↔ t = f s := by
  simp [modify, eq_comm]

@[simp] lemma run_sequence {n : Nat} :
    (sequence : Call ε σ Nat).run env s = .ok (n, t) ↔ n = env.ledger ∧ t = s := by
  simp [sequence, eq_comm]

@[simp] lemma run_currentContractAddress {x : Address} :
    (currentContractAddress : Call ε σ Address).run env s = .ok (x, t) ↔
      x = env.self ∧ t = s := by
  simp [currentContractAddress, eq_comm]

@[simp] lemma run_void {c : Call ε σ α} {u : Unit} :
    c.void.run env s = .ok (u, t) ↔ ∃ a, c.run env s = .ok (a, t) := by
  simp [void]

/-- Branches of a Rust `if` end in the same place. -/
@[simp] lemma run_ite {p : Prop} [Decidable p] {x y : Call ε σ α} :
    (if p then x else y).run env s = .ok (a, t) ↔
      (p ∧ x.run env s = .ok (a, t)) ∨ (¬p ∧ y.run env s = .ok (a, t)) := by
  split_ifs with h <;> simp [h]

lemma commit_of_ok {c : Call ε σ α} (h : c.run env s = .ok (a, t)) : c.commit env s = t := by
  simp [commit, h]

lemma commit_of_error {c : Call ε σ α} {e : Halt ε} (h : c.run env s = .error e) :
    c.commit env s = s := by
  simp [commit, h]

/-- A call either returns, or the host leaves the storage as it was. -/
lemma commit_cases (c : Call ε σ α) (env : Env) (s : σ) :
    (∃ a, c.run env s = .ok (a, c.commit env s)) ∨ c.commit env s = s := by
  unfold commit
  cases h : c.run env s with
  | ok p => exact .inl ⟨p.1, rfl⟩
  | error e => exact .inr rfl

/-! ### Going on and stopping -/

lemma run_bind_of_ok {x : Call ε σ α} {f : α → Call ε σ β} (h : x.run env s = .ok (a, t)) :
    (x >>= f).run env s = (f a).run env t := by
  change (match x.run env s with
    | .ok (a, t) => (f a).run env t
    | .error e => .error e) = _
  rw [h]

lemma run_bind_of_error {x : Call ε σ α} {f : α → Call ε σ β} {e : Halt ε}
    (h : x.run env s = .error e) : (x >>= f).run env s = .error e := by
  change (match x.run env s with
    | .ok (a, t) => (f a).run env t
    | .error e => .error e) = _
  rw [h]

lemma run_failIf_of {p : Prop} [Decidable p] {e : ε} (h : p) :
    (failIf p e : Call ε σ Unit).run env s = .error (.err e) := by
  rw [failIf, if_pos h]
  rfl

/-! ### Inversion of a failing call -/

@[simp] lemma run_bind_eq_error {x : Call ε σ α} {f : α → Call ε σ β} {e : Halt ε} :
    (x >>= f).run env s = .error e ↔
      x.run env s = .error e ∨ ∃ a t, x.run env s = .ok (a, t) ∧ (f a).run env t = .error e := by
  change (match x.run env s with
    | .ok (a, t) => (f a).run env t
    | .error e => .error e) = _ ↔ _
  cases x.run env s with
  | ok p => simp [Prod.ext_iff]
  | error e => simp

@[simp] lemma run_failIf_eq_error {p : Prop} [Decidable p] {e : ε} {e' : Halt ε} :
    (failIf p e : Call ε σ Unit).run env s = .error e' ↔ p ∧ e' = .err e := by
  unfold failIf
  split_ifs with h <;> simp [h, eq_comm]

@[simp] lemma run_okOr_eq_error {o : Option α} {e : ε} {e' : Halt ε} :
    (okOr o e : Call ε σ α).run env s = .error e' ↔ o = none ∧ e' = .err e := by
  cases o <;> simp [okOr, eq_comm]

@[simp] lemma run_requireAuth_eq_error {x : Address} {e : Halt ε} :
    (requireAuth x : Call ε σ Unit).run env s = .error e ↔ env.auth x = false ∧ e = .trap := by
  cases h : env.auth x
  · simp [requireAuth, h, eq_comm (a := e)]
  · simp [requireAuth, h]

@[simp] lemma run_get_eq_error {e : Halt ε} : (get : Call ε σ σ).run env s = .error e ↔ False := by
  simp [get]

@[simp] lemma run_modify_eq_error {f : σ → σ} {e : Halt ε} :
    (modify f : Call ε σ Unit).run env s = .error e ↔ False := by
  simp [modify]

@[simp] lemma run_sequence_eq_error {e : Halt ε} :
    (sequence : Call ε σ Nat).run env s = .error e ↔ False := by
  simp [sequence]

end Call

/-! ### Calls to other contracts -/

/-- A contract's own state next to that of the other contracts it can reach. -/
@[ext] structure WithPeers (σ ω : Type) where
  own : σ
  peers : ω

/-- What another contract answers: nothing if it failed, in which case it changed nothing. -/
abbrev Reply (ω α : Type) := Env → ω → Option (α × ω)

namespace Call

variable {ε σ ω α : Type}

/-- A call that touches the contract's own state only. -/
def own (c : Call ε σ α) : Call ε (WithPeers σ ω) α :=
  ⟨fun env s =>
    match c.run env s.own with
    | .ok (a, t) => .ok (a, { s with own := t })
    | .error e => .error e⟩

/-- A client call: the caller traps if the callee fails. -/
def invoke (callee : Address) (f : Reply ω α) : Call ε (WithPeers σ ω) α :=
  ⟨fun env s =>
    match f (env.nested callee) s.peers with
    | some (a, w) => .ok (a, { s with peers := w })
    | none => .error .trap⟩

/-- A `try_` client call: the caller goes on if the callee fails. -/
def tryInvoke (callee : Address) (f : Reply ω α) : Call ε (WithPeers σ ω) (Option α) :=
  ⟨fun env s =>
    match f (env.nested callee) s.peers with
    | some (a, w) => .ok (some a, { s with peers := w })
    | none => .ok (none, s)⟩

/-- A contract's entrypoint, as its callers see it. -/
def reply (c : Call ε σ α) : Reply σ α := fun env s =>
  match c.run env s with
  | .ok r => some r
  | .error _ => none

variable {env : Env} {a : α}

@[simp] lemma run_own {c : Call ε σ α} {s t : WithPeers σ ω} :
    (own c : Call ε (WithPeers σ ω) α).run env s = .ok (a, t) ↔
      ∃ r, c.run env s.own = .ok (a, r) ∧ t = ⟨r, s.peers⟩ := by
  cases h : c.run env s.own with
  | ok p =>
    simp only [own, h, Except.ok.injEq, Prod.ext_iff]
    grind
  | error e => simp [own, h]

@[simp] lemma run_invoke {callee : Address} {f : Reply ω α} {s t : WithPeers σ ω} :
    (invoke callee f : Call ε (WithPeers σ ω) α).run env s = .ok (a, t) ↔
      ∃ w, f (env.nested callee) s.peers = some (a, w) ∧ t = ⟨s.own, w⟩ := by
  cases h : f (env.nested callee) s.peers with
  | some p =>
    simp only [invoke, h, Except.ok.injEq, Option.some.injEq, Prod.ext_iff]
    grind
  | none => simp [invoke, h]

lemma run_own_of_error {c : Call ε σ α} {s : WithPeers σ ω} {e : Halt ε}
    (h : c.run env s.own = .error e) :
    (own c : Call ε (WithPeers σ ω) α).run env s = .error e := by
  simp only [own, h]

/-- The caller of a client that failed traps. -/
lemma run_invoke_of_none {callee : Address} {f : Reply ω α} {s : WithPeers σ ω}
    (h : f (env.nested callee) s.peers = none) :
    (invoke callee f : Call ε (WithPeers σ ω) α).run env s = .error .trap := by
  simp only [invoke, h]

/-- What a `try_` call leaves of the peers' state. -/
def afterTry (r : Option (α × ω)) (w : ω) : ω := (r.map Prod.snd).getD w

@[simp] lemma run_tryInvoke {callee : Address} {f : Reply ω α} {s t : WithPeers σ ω}
    {r : Option α} :
    (tryInvoke callee f : Call ε (WithPeers σ ω) (Option α)).run env s = .ok (r, t) ↔
      r = (f (env.nested callee) s.peers).map Prod.fst ∧
        t = ⟨s.own, afterTry (f (env.nested callee) s.peers) s.peers⟩ := by
  cases h : f (env.nested callee) s.peers with
  | some p =>
    simp only [tryInvoke, h, afterTry, Except.ok.injEq, Prod.ext_iff, Option.map_some,
      Option.getD_some]
    grind
  | none =>
    simp only [tryInvoke, h, afterTry, Except.ok.injEq, Prod.ext_iff, Option.map_none,
      Option.getD_none]
    rw [eq_comm (a := none), eq_comm (a := s)]

@[simp] lemma reply_eq_some {c : Call ε σ α} {s t : σ} :
    c.reply env s = some (a, t) ↔ c.run env s = .ok (a, t) := by
  unfold reply
  cases c.run env s <;> simp

@[simp] lemma reply_eq_none {c : Call ε σ α} {s : σ} :
    c.reply env s = none ↔ ∀ a t, c.run env s ≠ .ok (a, t) := by
  unfold reply
  cases c.run env s with
  | ok p => simp [Prod.ext_iff]
  | error e => simp

end Call

/-! ### A contract on a ledger -/

/-- A contract's state together with the last ledger sequence it was called at. -/
structure OnLedger (σ : Type) where
  ledger : Nat
  state : σ

/-- A contract with entrypoints `ι`: deployed by one of `deploy`, it is called in any order,
with any arguments, by anyone; ledger sequences never decrease. -/
def contract {ε σ ι : Type} (deploy : Env → σ → Prop) (exec : ι → Call ε σ Unit) :
    Transition.System (OnLedger σ) (Env × ι) where
  Init c := ∃ env : Env, deploy env c.state ∧ c.ledger = env.ledger
  Step c l d :=
    c.ledger ≤ l.1.ledger ∧ d.ledger = l.1.ledger ∧ d.state = (exec l.2).commit l.1 c.state

/-- Anyone may call any entrypoint next. -/
lemma contract_reachable_call {ε σ ι : Type} {deploy : Env → σ → Prop} {exec : ι → Call ε σ Unit}
    {c : OnLedger σ} (h : (contract deploy exec).Reachable c) (env : Env) (i : ι)
    (hl : c.ledger ≤ env.ledger) :
    (contract deploy exec).Reachable ⟨env.ledger, (exec i).commit env c.state⟩ :=
  h.step (l := (env, i)) ⟨hl, rfl, rfl⟩

lemma contract_run_call {ε σ ι : Type} {deploy : Env → σ → Prop} {exec : ι → Call ε σ Unit}
    {c₀ c : OnLedger σ} {tr : List (Transition.Move (OnLedger σ) (Env × ι))}
    (h : (contract deploy exec).Run c₀ tr c) (env : Env) (i : ι) (hl : c.ledger ≤ env.ledger) :
    (contract deploy exec).Run c₀
      (tr ++ [⟨c, (env, i), ⟨env.ledger, (exec i).commit env c.state⟩⟩])
      ⟨env.ledger, (exec i).commit env c.state⟩ :=
  h.snoc ⟨hl, rfl, rfl⟩

/-- Invariants of a contract: established by the constructor, kept by every call that returns. -/
theorem contract_invariant {ε σ ι : Type} {deploy : Env → σ → Prop} {exec : ι → Call ε σ Unit}
    {P : σ → Prop} (hdeploy : ∀ env s, deploy env s → P s)
    (hexec : ∀ env i s t, P s → (exec i).run env s = .ok ((), t) → P t)
    {c : OnLedger σ} (h : (contract deploy exec).Reachable c) : P c.state := by
  refine h.invariant (P := fun c => P c.state) ?_ ?_
  · rintro s ⟨env, hd, -⟩
    exact hdeploy env _ hd
  · rintro s l t - hs ⟨-, -, ht⟩
    rw [ht]
    rcases Call.commit_cases (exec l.2) l.1 s.state with ⟨u, hok⟩ | heq
    · exact hexec _ _ _ _ hs hok
    · rw [heq]
      exact hs

end Soroban
