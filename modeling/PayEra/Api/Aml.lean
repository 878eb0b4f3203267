import PayEra.Lib.Decimal
import PayEra.Lib.Json

/-!
# Screening

`apps/api/src/aml/aml.service.ts`: the risk of an address by the answer of a provider, or by a hash of
the address where there is none that can be read. The flags and the score are made independently.
-/

namespace PayEra.Api.Aml

open Decimal (Number)

/-! ### Results -/

inductive RiskLevel where
  | LOW | MEDIUM | HIGH | CRITICAL
  deriving DecidableEq, Repr

inductive Severity where
  | INFO | WARNING | HIGH | CRITICAL
  deriving DecidableEq, Repr

inductive FlagType where
  | HIGH_RISK_JURISDICTION | SANCTIONS | MIXER_USAGE | DARKNET_MARKET
  deriving DecidableEq, Repr

inductive Provider where
  | mock | chainalysis | trm
  deriving DecidableEq, Repr

structure AmlFlag where
  type : FlagType
  severity : Severity
  description : String
  metadata : Json

structure AmlScreeningResult where
  address : String
  network : String
  riskScore : Json
  riskLevel : RiskLevel
  flags : List AmlFlag
  screenedAt : ℕ
  provider : Provider
  referenceId : String

/-- The test of `isSanctioned`. -/
def AmlScreeningResult.sanctioned (result : AmlScreeningResult) : Bool :=
  result.flags.any fun f => f.type = .SANCTIONS && f.severity = .CRITICAL

/-! ### Strings and numbers -/

/-- The code units of UTF-16. -/
def codeUnits (s : String) : List ℕ :=
  s.toList.flatMap fun c =>
    if c.toNat < 65536 then [c.toNat]
    else [55296 + (c.toNat - 65536) / 1024, 56320 + (c.toNat - 65536) % 1024]

mutual

/-- The text of the value cannot be made: there is an object in it with a `toString` of its own. -/
def textless : Json → Bool
  | .arr items => anyTextless items
  | .obj fields => fields.any fun f => f.1 = "toString"
  | _ => false

def anyTextless : List Json → Bool
  | [] => false
  | item :: items => textless item || anyTextless items

end

mutual

/-- The number that the text of the value stands for. -/
def textNumber : Json → Option Number
  | .null => some (.finite 0)
  | .bool _ => none
  | .num x => some (.finite x)
  | .str s => Decimal.toNumber s.toList
  | .arr items => itemsNumber items
  | .obj _ => none

/-- The items are separated by commas, which no number has. -/
def itemsNumber : List Json → Option Number
  | [] => some (.finite 0)
  | item :: items => if items.isEmpty then textNumber item else none

end

/-- The number that a comparison makes of a value, where `none` stands for `undefined`, and for `NaN`. -/
def number : Option Json → Option Number
  | none => none
  | some (.bool b) => some (.finite (if b then 1 else 0))
  | some value => textNumber value

def toNumber (value : Option Json) : Except String (Option Number) :=
  if value.any textless then .error "Cannot convert object to primitive value" else .ok (number value)

/-- `n > bound`. -/
def greater (n : Option Number) (bound : ℚ) : Bool :=
  match n with
  | some (.finite x) => decide (bound < x)
  | some (.infinite negative) => !negative
  | none => false

/-- `n >= bound`. -/
def atLeast (n : Option Number) (bound : ℚ) : Bool :=
  match n with
  | some (.finite x) => decide (bound ≤ x)
  | some (.infinite negative) => !negative
  | none => false

/-- `value?.key`. -/
def get? (value : Option Json) (key : String) : Option Json :=
  match value with
  | some (.obj fields) => fields.lookup key
  | some (.arr items) => if key = "length" then some (.num items.length) else none
  | some (.str s) => if key = "length" then some (.num (codeUnits s).length) else none
  | _ => none

/-! ### The levels -/

def levelOf (n : Option Number) : RiskLevel :=
  if atLeast n 80 then .CRITICAL
  else if atLeast n 60 then .HIGH
  else if atLeast n 30 then .MEDIUM
  else .LOW

def getRiskLevel (score : Json) : Except String RiskLevel := do
  let n ← toNumber (some score)
  pure (levelOf n)

def sanctionsFlag (metadata : Json) : AmlFlag where
  type := .SANCTIONS
  severity := .CRITICAL
  description := "Address matches sanctions list"
  metadata := metadata

def jurisdictionFlag (metadata : Json) : AmlFlag where
  type := .HIGH_RISK_JURISDICTION
  severity := .WARNING
  description := "Address associated with high-risk jurisdiction"
  metadata := metadata

def mixerFlag (description : String) (metadata : Json) : AmlFlag where
  type := .MIXER_USAGE
  severity := .WARNING
  description := description
  metadata := metadata

def darknetFlag (description : String) (metadata : Json) : AmlFlag where
  type := .DARKNET_MARKET
  severity := .HIGH
  description := description
  metadata := metadata

/-- When a screening takes place, and what it is called. -/
structure Moment where
  now : ℕ
  referenceId : String

/-! ### The hash -/

/-- The integer of 32 bits with a sign. -/
def toInt32 (x : ℤ) : ℤ := x.bmod (2 ^ 32)

/-- `hash = ((hash << 5) - hash) + char; hash = hash & hash`. -/
def hashStep (hash : ℤ) (char : ℕ) : ℤ := toInt32 (toInt32 (hash * 32) - hash + char)

def simpleHash (str : String) : ℕ := ((codeUnits str).foldl hashStep 0).natAbs

/-- `address.toLowerCase().includes('sanction')`; no character beyond ASCII has one of these as its
small letter, but for one that brings a mark along. -/
def includesSanction (address : String) : Bool :=
  (address.toList.map Char.toLower).tails.any ['s', 'a', 'n', 'c', 't', 'i', 'o', 'n'].isPrefixOf

section

variable (isoString : ℕ → String)

def mockScreening (address network : String) (moment : Moment) : AmlScreeningResult :=
  let hash := simpleHash address
  let riskScore := hash % 100
  let jurisdiction : List AmlFlag :=
    if (['G', 'B'].isPrefixOf address.toList || ['G', 'C'].isPrefixOf address.toList) && hash % 10 = 0 then
      [jurisdictionFlag (.obj [("jurisdiction", .str "XX")])]
    else []
  let sanctions :=
    if includesSanction address || hash % 50 = 0 then
      [sanctionsFlag (.obj [("list", .str "OFAC SDN"), ("matchConfidence", .num (95 / 100))])]
    else []
  let mixer : List AmlFlag :=
    if hash % 20 = 0 then
      [mixerFlag "Address has interacted with known mixing services"
        (.obj [("mixer", .str "Tornado Cash"),
          ("lastInteraction", .str (isoString (moment.now - 86400000 * 30)))])]
    else []
  let darknet : List AmlFlag :=
    if hash % 30 = 0 then
      [darknetFlag "Address has interacted with darknet marketplace"
        (.obj [("marketplace", .str "Hydra"),
          ("lastInteraction", .str (isoString (moment.now - 86400000 * 7)))])]
    else []
  { address
    network
    riskScore := .num riskScore
    riskLevel := levelOf (some (.finite riskScore))
    flags := jurisdiction ++ sanctions ++ mixer ++ darknet
    screenedAt := moment.now
    provider := .mock
    referenceId := moment.referenceId }

/-! ### The providers -/

/-- `data.riskScore || 0`. -/
def orZero (riskScore : Option Json) : Json := (riskScore.filter Json.truthy).getD (.num 0)

def mapChainalysisResponse (address network : String) (data : Json) (moment : Moment) :
    Except String AmlScreeningResult := do
  let sanctions ← data.get "sanctions"
  let hits := get? sanctions "matches"
  let count ← toNumber (get? hits "length")
  let riskFactors ← data.get "riskFactors"
  let mixer := (get? riskFactors "mixer").filter Json.truthy
  let darknet := (get? riskFactors "darknet").filter Json.truthy
  let riskScore ← data.get "riskScore"
  let riskLevel ← getRiskLevel (orZero riskScore)
  pure
    { address
      network
      riskScore := orZero riskScore
      riskLevel
      flags :=
        (if greater count 0 then [sanctionsFlag (.obj [("matches", hits.getD .null)])] else []) ++
          mixer.toList.map (mixerFlag "Address has interacted with mixing services") ++
          darknet.toList.map (darknetFlag "Address has interacted with darknet markets")
      screenedAt := moment.now
      provider := .chainalysis
      referenceId := moment.referenceId }

def mapTRMResponse (address network : String) (data : Json) (moment : Moment) :
    Except String AmlScreeningResult := do
  let sanctions ← data.get "sanctions"
  let hits := get? sanctions "hits"
  let count ← toNumber (get? hits "length")
  let counterparties ← data.get "counterparties"
  let mixers := get? counterparties "mixers"
  let mixerCount ← toNumber (get? mixers "length")
  let darknetMarkets := get? counterparties "darknetMarkets"
  let darknetCount ← toNumber (get? darknetMarkets "length")
  let riskScore ← data.get "riskScore"
  let riskLevel ← getRiskLevel (orZero riskScore)
  pure
    { address
      network
      riskScore := orZero riskScore
      riskLevel
      flags :=
        (if greater count 0 then [sanctionsFlag (.obj [("hits", hits.getD .null)])] else []) ++
          (if greater mixerCount 0 then
            [mixerFlag "Address has interacted with mixing services"
              (.obj [("mixers", mixers.getD .null)])]
          else []) ++
          if greater darknetCount 0 then
            [darknetFlag "Address has interacted with darknet markets"
              (.obj [("markets", darknetMarkets.getD .null)])]
          else []
      screenedAt := moment.now
      provider := .trm
      referenceId := moment.referenceId }

/-! ### The service -/

structure AmlConfig where
  defaultProvider : Provider
  chainalysisApiKey : String
  trmApiKey : String

/-- How a request to a provider ends. -/
inductive Fetched where
  | failed (message : String)
  | response (ok : Bool) (json : Except String Json)

/-- `try { ... } catch { return this.mockScreening(...) }`. -/
def screenWith (map : Json → Except String AmlScreeningResult) (fallback : AmlScreeningResult) :
    Fetched → AmlScreeningResult
  | .response true (.ok data) =>
    match map data with
    | .ok result => result
    | .error _ => fallback
  | _ => fallback

def screenWallet (config : AmlConfig) (address network : String) (fetched : Fetched) (moment : Moment) :
    AmlScreeningResult :=
  let fallback := mockScreening isoString address network moment
  if config.defaultProvider = .chainalysis ∧ config.chainalysisApiKey ≠ "" then
    screenWith (fun data => mapChainalysisResponse address network data moment) fallback fetched
  else if config.defaultProvider = .trm ∧ config.trmApiKey ≠ "" then
    screenWith (fun data => mapTRMResponse address network data moment) fallback fetched
  else fallback

def isSanctioned (config : AmlConfig) (address network : String) (fetched : Fetched) (moment : Moment) :
    Bool :=
  (screenWallet isoString config address network fetched moment).sanctioned

end

/-! ### Sanctions and levels -/

/-- Who is sanctioned is of the critical level, in the same result and for whoever screens the wallet on
the same data at another moment. -/
structure Dominates (isoString : ℕ → String) (config : AmlConfig) (address network : String)
    (fetched : Fetched) : Prop where
  result : ∀ moment, (screenWallet isoString config address network fetched moment).sanctioned = true →
    (screenWallet isoString config address network fetched moment).riskLevel = .CRITICAL
  caller : ∀ moment moment', isSanctioned isoString config address network fetched moment = true →
    (screenWallet isoString config address network fetched moment').riskLevel = .CRITICAL

/-- The length of a list in the payload. -/
def lengthOf (data : Json) (list : String × String) : Option Json :=
  get? (get? (get? (some data) list.1) list.2) "length"

/-- The values that are compared with numbers, by the paths of the lists that are counted. -/
def compared (data : Json) (lists : List (String × String)) : List Json :=
  orZero (get? (some data) "riskScore") ::
    lists.filterMap (lengthOf data)

/-- There is something to read, and every comparison has numbers. -/
def readable (lists : List (String × String)) (data : Json) : Bool :=
  (match data with
    | .null => false
    | _ => true) && (compared data lists).all fun value => !textless value

/-- The list is not empty. -/
def counted (list : String × String) (data : Json) : Bool :=
  greater (number (lengthOf data list)) 0

/-- The score is eighty at least. -/
def severe (data : Json) : Bool := atLeast (number (some (orZero (get? (some data) "riskScore")))) 80

def chainalysisLists : List (String × String) := [("sanctions", "matches")]

def trmLists : List (String × String) :=
  [("sanctions", "hits"), ("counterparties", "mixers"), ("counterparties", "darknetMarkets")]

/-- The list of sanctions and the payload, where a provider's answer is used. -/
def payload (config : AmlConfig) : Fetched → Option ((String × String) × Json)
  | .response true (.ok data) =>
    if config.defaultProvider = .chainalysis ∧ config.chainalysisApiKey ≠ "" then
      if readable chainalysisLists data then some (("sanctions", "matches"), data) else none
    else if config.defaultProvider = .trm ∧ config.trmApiKey ≠ "" then
      if readable trmLists data then some (("sanctions", "hits"), data) else none
    else none
  | _ => none

/-- The provider's score is severe if it reports sanctions; and without a provider the hash is not a
multiple of fifty, and is severe by a name with sanctions. -/
def Agrees (config : AmlConfig) (address : String) (fetched : Fetched) : Prop :=
  match payload config fetched with
  | some (list, data) => counted list data = true → severe data = true
  | none => simpleHash address % 50 ≠ 0 ∧
    (includesSanction address = true → 80 ≤ simpleHash address % 100)

section

variable {isoString : ℕ → String} {config : AmlConfig} {address network : String} {data : Json}
  {fetched : Fetched} {moment : Moment} {result : AmlScreeningResult}

/-! ### Without a provider -/

lemma critical_levelOf {n : Option Number} : levelOf n = .CRITICAL ↔ atLeast n 80 = true := by
  unfold levelOf
  split_ifs <;> simp_all

/-- None of the other flags is about sanctions. -/
lemma sanctioned_mockScreening : (mockScreening isoString address network moment).sanctioned = true ↔
    includesSanction address = true ∨ simpleHash address % 50 = 0 := by
  simp only [AmlScreeningResult.sanctioned, mockScreening, List.any_append]
  split_ifs <;> simp_all [sanctionsFlag, jurisdictionFlag, mixerFlag, darknetFlag]

lemma critical_mockScreening : (mockScreening isoString address network moment).riskLevel = .CRITICAL ↔
    80 ≤ simpleHash address % 100 := by
  rw [mockScreening, critical_levelOf, atLeast, decide_eq_true_eq]
  exact_mod_cast Iff.rfl

/-! ### What a provider's answer is made of -/

/-- What a mapping does that counts the list of sanctions and other lists. -/
structure Maps (list : String × String) (lists : List (String × String)) (data : Json)
    (outcome : Except String AmlScreeningResult) : Prop where
  reads : readable lists data = true → ∃ result, outcome = .ok result ∧
    (result.sanctioned = true ↔ counted list data = true) ∧
    (result.riskLevel = .CRITICAL ↔ severe data = true)
  throws : readable lists data = false → ∃ e, outcome = .error e

lemma ok_bind {α β : Type} (a : α) (f : α → Except String β) : (Except.ok a >>= f) = f a := rfl

/-- A program throws that throws after whatever its first part answers. -/
lemma bind_throws {α β : Type} {x : Except String α} {f : α → Except String β}
    (h : ∀ a, x = .ok a → ∃ e, f a = .error e) : ∃ e, (x >>= f) = .error e := by
  cases x with
  | error e => exact ⟨e, rfl⟩
  | ok a => exact h a rfl

lemma get_eq {key : String} (hnull : data ≠ .null) (hkey : key ≠ "length") :
    data.get key = .ok (get? (some data) key) := by
  cases data <;> simp_all [Json.get, get?]

/-- Every comparison has a number. -/
lemma readable_iff (hnull : data ≠ .null) {lists : List (String × String)} :
    readable lists data = true ↔ textless (orZero (get? (some data) "riskScore")) = false ∧
      ∀ l ∈ lists, (lengthOf data l).any textless = false := by
  have hall : readable lists data = (compared data lists).all fun value => !textless value := by
    cases data <;> simp_all [readable]
  rw [hall, compared]
  simp only [List.all_cons, Bool.and_eq_true, Bool.not_eq_true', List.all_eq_true,
    List.mem_filterMap]
  refine and_congr_right fun _ => ⟨fun h l hl => ?_, ?_⟩
  · cases hvalue : lengthOf data l with
    | none => rfl
    | some value => exact h value ⟨l, hl, hvalue⟩
  · rintro h value ⟨l, hl, hvalue⟩
    have htext := h l hl
    rwa [hvalue] at htext

lemma toNumber_eq_ok {value : Option Json} {n : Option Number} :
    toNumber value = .ok n ↔ value.any textless = false ∧ number value = n := by
  rw [toNumber]
  cases value.any textless <;> simp

lemma getRiskLevel_eq_ok {score : Json} {level : RiskLevel} :
    getRiskLevel score = .ok level ↔ textless score = false ∧ levelOf (number (some score)) = level := by
  have htext : (some score).any textless = textless score := rfl
  rw [getRiskLevel, toNumber, htext]
  cases textless score with
  | false => exact ⟨fun h => ⟨rfl, Except.ok.inj h⟩, fun h => congrArg Except.ok h.2⟩
  | true =>
    constructor
    · intro h
      cases h
    · rintro ⟨h, -⟩
      cases h

lemma chainalysis_eq (address network : String) (moment : Moment) (hnull : data ≠ .null) :
    ∃ result : Option Number → RiskLevel → AmlScreeningResult,
      mapChainalysisResponse address network data moment = (do
        let count ← toNumber (lengthOf data ("sanctions", "matches"))
        let riskLevel ← getRiskLevel (orZero (get? (some data) "riskScore"))
        pure (result count riskLevel)) ∧
      ∀ count riskLevel, (result count riskLevel).riskLevel = riskLevel ∧
        (result count riskLevel).sanctioned = greater count 0 := by
  simp only [mapChainalysisResponse, get_eq hnull (by decide : "sanctions" ≠ "length"),
    get_eq hnull (by decide : "riskFactors" ≠ "length"),
    get_eq hnull (by decide : "riskScore" ≠ "length"), ok_bind]
  refine ⟨_, rfl, fun count riskLevel => ⟨rfl, ?_⟩⟩
  simp only [AmlScreeningResult.sanctioned, List.any_append]
  cases hhit : greater count 0 <;> simp [sanctionsFlag, mixerFlag, darknetFlag]

lemma trm_eq (address network : String) (moment : Moment) (hnull : data ≠ .null) :
    ∃ result : Option Number → Option Number → Option Number → RiskLevel → AmlScreeningResult,
      mapTRMResponse address network data moment = (do
        let count ← toNumber (lengthOf data ("sanctions", "hits"))
        let mixerCount ← toNumber (lengthOf data ("counterparties", "mixers"))
        let darknetCount ← toNumber (lengthOf data ("counterparties", "darknetMarkets"))
        let riskLevel ← getRiskLevel (orZero (get? (some data) "riskScore"))
        pure (result count mixerCount darknetCount riskLevel)) ∧
      ∀ count mixerCount darknetCount riskLevel,
        (result count mixerCount darknetCount riskLevel).riskLevel = riskLevel ∧
        (result count mixerCount darknetCount riskLevel).sanctioned = greater count 0 := by
  simp only [mapTRMResponse, get_eq hnull (by decide : "sanctions" ≠ "length"),
    get_eq hnull (by decide : "counterparties" ≠ "length"),
    get_eq hnull (by decide : "riskScore" ≠ "length"), ok_bind]
  refine ⟨_, rfl, fun count mixerCount darknetCount riskLevel => ⟨rfl, ?_⟩⟩
  simp only [AmlScreeningResult.sanctioned, List.any_append]
  split_ifs <;> simp_all [sanctionsFlag, mixerFlag, darknetFlag]

lemma not_null_of_readable {lists : List (String × String)} (h : readable lists data = true) :
    data ≠ .null := by
  rintro rfl
  cases h

lemma maps_chainalysis : Maps ("sanctions", "matches") chainalysisLists data
    (mapChainalysisResponse address network data moment) where
  reads h := by
    have hnull := not_null_of_readable h
    obtain ⟨hscore, hlists⟩ := (readable_iff hnull).mp h
    obtain ⟨result, heq, hresult⟩ := chainalysis_eq address network moment hnull
    have hcount := toNumber_eq_ok.mpr ⟨hlists ("sanctions", "matches") (by simp [chainalysisLists]), rfl⟩
    rw [heq, hcount, ok_bind, getRiskLevel_eq_ok.mpr ⟨hscore, rfl⟩, ok_bind]
    refine ⟨_, rfl, ?_, ?_⟩
    · rw [(hresult _ _).2, counted]
    · rw [(hresult _ _).1, critical_levelOf, severe]
  throws h := by
    by_cases hnull : data = .null
    · subst hnull
      exact ⟨_, rfl⟩
    obtain ⟨result, heq, -⟩ := chainalysis_eq address network moment hnull
    rw [heq]
    apply bind_throws
    intro count hcount
    apply bind_throws
    intro level hlevel
    have hall : ∀ l ∈ chainalysisLists, (lengthOf data l).any textless = false := by
      simp only [chainalysisLists, List.forall_mem_singleton]
      exact (toNumber_eq_ok.mp hcount).1
    rw [(readable_iff hnull).mpr ⟨(getRiskLevel_eq_ok.mp hlevel).1, hall⟩] at h
    cases h

lemma maps_trm : Maps ("sanctions", "hits") trmLists data
    (mapTRMResponse address network data moment) where
  reads h := by
    have hnull := not_null_of_readable h
    obtain ⟨hscore, hlists⟩ := (readable_iff hnull).mp h
    obtain ⟨result, heq, hresult⟩ := trm_eq address network moment hnull
    have hlength (l : String × String) (hl : l ∈ trmLists) :
        toNumber (lengthOf data l) = .ok (number (lengthOf data l)) :=
      toNumber_eq_ok.mpr ⟨hlists l hl, rfl⟩
    rw [heq, hlength ("sanctions", "hits") (by simp [trmLists]), ok_bind,
      hlength ("counterparties", "mixers") (by simp [trmLists]), ok_bind,
      hlength ("counterparties", "darknetMarkets") (by simp [trmLists]), ok_bind,
      getRiskLevel_eq_ok.mpr ⟨hscore, rfl⟩, ok_bind]
    refine ⟨_, rfl, ?_, ?_⟩
    · rw [(hresult _ _ _ _).2, counted]
    · rw [(hresult _ _ _ _).1, critical_levelOf, severe]
  throws h := by
    by_cases hnull : data = .null
    · subst hnull
      exact ⟨_, rfl⟩
    obtain ⟨result, heq, -⟩ := trm_eq address network moment hnull
    rw [heq]
    apply bind_throws
    intro count hcount
    apply bind_throws
    intro mixerCount hmixers
    apply bind_throws
    intro darknetCount hdarknet
    apply bind_throws
    intro level hlevel
    have hall : ∀ l ∈ trmLists, (lengthOf data l).any textless = false := by
      simp only [trmLists, List.forall_mem_cons]
      exact ⟨(toNumber_eq_ok.mp hcount).1, (toNumber_eq_ok.mp hmixers).1,
        (toNumber_eq_ok.mp hdarknet).1, by simp⟩
    rw [(readable_iff hnull).mpr ⟨(getRiskLevel_eq_ok.mp hlevel).1, hall⟩] at h
    cases h

/-! ### The exact condition -/

/-- The list of sanctions is not empty, or the hash or the address stands for sanctions. -/
def Listed (config : AmlConfig) (address : String) (fetched : Fetched) : Prop :=
  match payload config fetched with
  | some (list, data) => counted list data = true
  | none => includesSanction address = true ∨ simpleHash address % 50 = 0

/-- The score is eighty at least. -/
def Scored (config : AmlConfig) (address : String) (fetched : Fetched) : Prop :=
  match payload config fetched with
  | some (_, data) => severe data = true
  | none => 80 ≤ simpleHash address % 100

/-- What a result says of sanctions and of the level. -/
def Says (result : AmlScreeningResult) (listed scored : Prop) : Prop :=
  (result.sanctioned = true ↔ listed) ∧ (result.riskLevel = .CRITICAL ↔ scored)

lemma says_mock : Says (mockScreening isoString address network moment)
    (includesSanction address = true ∨ simpleHash address % 50 = 0) (80 ≤ simpleHash address % 100) :=
  ⟨sanctioned_mockScreening, critical_mockScreening⟩

/-- The provider's answer is used if it can be read, and otherwise the fallback. -/
lemma says_screenWith {map : Json → Except String AmlScreeningResult} {fallback : AmlScreeningResult}
    {list : String × String} {lists : List (String × String)}
    (hmap : ∀ data, Maps list lists data (map data))
    (hpayload : payload config fetched =
      match fetched with
      | .response true (.ok data) => if readable lists data then some (list, data) else none
      | _ => none)
    (hfallback : Says fallback (includesSanction address = true ∨ simpleHash address % 50 = 0)
      (80 ≤ simpleHash address % 100)) :
    Says (screenWith map fallback fetched) (Listed config address fetched)
      (Scored config address fetched) := by
  rw [Listed, Scored, hpayload, screenWith.eq_def]
  split
  · next data =>
    cases hread : readable lists data with
    | true =>
      obtain ⟨result, heq, hresult⟩ := (hmap data).reads hread
      rw [heq]
      exact hresult
    | false =>
      obtain ⟨e, he⟩ := (hmap data).throws hread
      rw [he]
      exact hfallback
  · exact hfallback

/-- The flag and the level of a result do not depend on the moment. -/
lemma says_screenWallet (isoString : ℕ → String) (config : AmlConfig) (address network : String)
    (fetched : Fetched) (moment : Moment) :
    Says (screenWallet isoString config address network fetched moment)
      (Listed config address fetched) (Scored config address fetched) := by
  unfold screenWallet
  split_ifs with hchainalysis htrm
  · refine says_screenWith (fun data => maps_chainalysis) ?_ says_mock
    unfold payload
    split <;> simp [hchainalysis]
  · refine says_screenWith (fun data => maps_trm) ?_ says_mock
    unfold payload
    split <;> simp [htrm]
  · have hnone : payload config fetched = none := by
      unfold payload
      split <;> simp [hchainalysis, htrm]
    rw [Listed, Scored, hnone]
    exact says_mock

end

namespace SanctionedBelow

def epoch : ℕ → String := fun _ => "1970-01-01T00:00:00.000Z"

def mockConfig : AmlConfig := ⟨.mock, "", ""⟩

def chainalysisConfig : AmlConfig := ⟨.chainalysis, "key", ""⟩

def unscored : Json := .obj [("sanctions", .obj [("matches", .arr [.obj [("list", .str "OFAC SDN")]])])]

end SanctionedBelow

open SanctionedBelow

end PayEra.Api.Aml
