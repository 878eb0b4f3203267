import Mathlib.Algebra.Order.Floor.Ring
import Mathlib.Data.Rat.Floor
import Mathlib.Data.List.DropRight
import Mathlib.Tactic.Ring
import PayEra.Lib.Hex

/-!
# Numbers as text

`toFixed` and `parseFloat` on exact numbers: one rounds a number and writes it, the other reads the
number that a text begins with.
-/

namespace Decimal

/-- What `parseFloat` returns but for `NaN`. -/
inductive Number where
  | finite (value : ℚ)
  | infinite (negative : Bool)
  deriving DecidableEq

def Number.neg : Number → Number
  | .finite q => .finite (-q)
  | .infinite negative => .infinite !negative

/-! ### Writing -/

/-- The digits of a number, with zeros before them where it has fewer than its decimals and one. -/
def padded (n decimals : ℕ) : List Char :=
  List.replicate (decimals + 1 - (Nat.toDigits 10 n).length) '0' ++ Nat.toDigits 10 n

/-- A number of the smallest unit, written with its decimals. -/
def point (n decimals : ℕ) : List Char :=
  let digits := padded n decimals
  if decimals = 0 then digits
  else digits.take (digits.length - decimals) ++ '.' :: digits.drop (digits.length - decimals)

/-- The number in the smallest unit, with halves rounded up. -/
def units (x : ℚ) (decimals : ℕ) : ℕ := ⌊x * 10 ^ decimals + 1 / 2⌋.toNat

def toFixed (x : ℚ) (decimals : ℕ) : List Char :=
  if x < 0 then '-' :: point (units (-x) decimals) decimals else point (units x decimals) decimals

/-! ### Reading -/

/-- White space and ends of lines. -/
def isSpace (c : Char) : Bool :=
  c.toNat ∈ [9, 10, 11, 12, 13, 32, 160, 5760, 8232, 8233, 8239, 8287, 12288, 65279] ||
    decide (8192 ≤ c.toNat) && decide (c.toNat ≤ 8202)

def value (digits : List Char) : ℕ := Nat.ofDigitChars 10 digits 0

/-- The exponent that a text begins with. -/
def exponent : List Char → ℤ
  | [] => 0
  | c :: s =>
    if c = 'e' ∨ c = 'E' then
      match s with
      | '-' :: s => -(value (s.takeWhile Char.isDigit) : ℤ)
      | '+' :: s => value (s.takeWhile Char.isDigit)
      | s => value (s.takeWhile Char.isDigit)
    else 0

/-- The number with the digits, the decimals and the exponent that the rest begins with. -/
def number (whole rest : List Char) : Option Number :=
  match rest with
  | '.' :: t =>
    let fraction := t.takeWhile Char.isDigit
    if whole = [] ∧ fraction = [] then none
    else
      some (.finite (value (whole ++ fraction) *
        10 ^ (exponent (t.dropWhile Char.isDigit) - fraction.length)))
  | _ => if whole = [] then none else some (.finite (value whole * 10 ^ exponent rest))

def infinity : List Char := ['I', 'n', 'f', 'i', 'n', 'i', 't', 'y']

/-- The number without a sign that a text begins with. -/
def unsigned (s : List Char) : Option Number :=
  if infinity.isPrefixOf s then some (.infinite false)
  else number (s.takeWhile Char.isDigit) (s.dropWhile Char.isDigit)

def parseFloat (s : List Char) : Option Number :=
  match s.dropWhile isSpace with
  | '-' :: t => (unsigned t).map Number.neg
  | '+' :: t => unsigned t
  | t => unsigned t

/-! ### All of a text -/

/-- Nothing is left after the exponent that a text begins with. -/
def isExponent : List Char → Bool
  | [] => true
  | c :: s =>
    (c = 'e' || c = 'E') &&
      match s with
      | '-' :: s => s ≠ [] && s.all Char.isDigit
      | '+' :: s => s ≠ [] && s.all Char.isDigit
      | s => s ≠ [] && s.all Char.isDigit

/-- Nothing is left after the number without a sign that a text begins with. -/
def isUnsigned (s : List Char) : Bool :=
  s = infinity ||
    match s.dropWhile Char.isDigit with
    | '.' :: t => isExponent (t.dropWhile Char.isDigit)
    | t => isExponent t

def isDecimal : List Char → Bool
  | '-' :: s => isUnsigned s
  | '+' :: s => isUnsigned s
  | s => isUnsigned s

/-- The base that the letter after a zero stands for. -/
def base (c : Char) : Option ℕ :=
  if c = 'x' ∨ c = 'X' then some 16
  else if c = 'o' ∨ c = 'O' then some 8
  else if c = 'b' ∨ c = 'B' then some 2
  else none

/-- A base, and the digits after it. -/
def radix : List Char → Option (ℕ × List Char)
  | '0' :: c :: digits => (base c).map fun base => (base, digits)
  | _ => none

def integer (base : ℕ) (digits : List Char) : Option Number :=
  if digits = [] then none
  else
    (digits.foldlM (fun n c => ((Hex.digit c).filter (· < base)).map (base * n + ·)) 0).map
      fun n : ℕ => .finite n

/-- `Number`, with `none` for `NaN`: white space around a number is left out, and nothing is zero. -/
def toNumber (text : List Char) : Option Number :=
  let s := (text.dropWhile isSpace).rdropWhile isSpace
  if s = [] then some (.finite 0)
  else
    match radix s with
    | some (base, digits) => integer base digits
    | none => if isDecimal s then parseFloat s else none

/-! ### Reading what was written -/

variable {n decimals : ℕ} {whole fraction : List Char}

/-- What `toFixed` has written. -/
def rounded (x : ℚ) (decimals : ℕ) : ℚ :=
  if x < 0 then -((units (-x) decimals : ℚ) / 10 ^ decimals) else (units x decimals : ℚ) / 10 ^ decimals

lemma value_toDigits (n k : ℕ) : value (List.replicate k '0' ++ Nat.toDigits 10 n) = n := by
  simp [value, Nat.ofDigitChars_append]

lemma isDigit_toDigits : ∀ c ∈ Nat.toDigits 10 n, c.isDigit := fun _ hc =>
  Nat.isDigit_of_mem_toDigits (by decide) (by decide) hc

lemma isDigit_padded : ∀ c ∈ padded n decimals, c.isDigit := by
  intro c hc
  rcases List.mem_append.mp hc with hc | hc
  · rw [List.eq_of_mem_replicate hc]
    rfl
  · exact isDigit_toDigits c hc

lemma lt_length_padded (n decimals : ℕ) : decimals < (padded n decimals).length := by
  simp only [padded, List.length_append, List.length_replicate]
  omega

lemma takeWhile_digits {t : List Char} (h : ∀ c ∈ whole, c.isDigit)
    (ht : ∀ c s, t = c :: s → c.isDigit = false) :
    (whole ++ t).takeWhile Char.isDigit = whole ∧ (whole ++ t).dropWhile Char.isDigit = t := by
  rw [List.takeWhile_append_of_pos h, List.dropWhile_append_of_pos h]
  cases t with
  | nil => simp
  | cons c s => simp [ht c s rfl]

/-- A text that begins with a digit is not `Infinity`. -/
lemma unsigned_cons {c : Char} {s : List Char} (h : c.isDigit) :
    unsigned (c :: s) = number ((c :: s).takeWhile Char.isDigit) ((c :: s).dropWhile Char.isDigit) := by
  have hc : ('I' == c) = false := by
    rw [beq_eq_false_iff_ne]
    rintro rfl
    exact absurd h (by decide)
  have hno : infinity.isPrefixOf (c :: s) = false := by
    rw [infinity, List.isPrefixOf, hc, Bool.false_and]
  rw [unsigned, hno, if_neg Bool.false_ne_true]

lemma unsigned_digits {t : List Char} (hne : whole ≠ []) (h : ∀ c ∈ whole, c.isDigit)
    (ht : ∀ c s, t = c :: s → c.isDigit = false) : unsigned (whole ++ t) = number whole t := by
  obtain ⟨htake, hdrop⟩ := takeWhile_digits h ht
  cases hw : whole with
  | nil => exact absurd hw hne
  | cons c s =>
    rw [hw, List.cons_append] at htake hdrop
    rw [List.cons_append, unsigned_cons (h c (by simp [hw])), htake, hdrop]

lemma unsigned_whole (hne : whole ≠ []) (h : ∀ c ∈ whole, c.isDigit) :
    unsigned whole = some (.finite (value whole)) := by
  have hread := unsigned_digits (t := []) hne h (by simp)
  rw [List.append_nil] at hread
  rw [hread, number, if_neg hne, exponent, zpow_zero, mul_one]
  simp

lemma unsigned_point (hne : whole ≠ []) (hw : ∀ c ∈ whole, c.isDigit)
    (hf : ∀ c ∈ fraction, c.isDigit) :
    unsigned (whole ++ '.' :: fraction) =
      some (.finite (value (whole ++ fraction) / 10 ^ fraction.length)) := by
  obtain ⟨htake, hdrop⟩ := takeWhile_digits (t := []) hf (by simp)
  rw [List.append_nil] at htake hdrop
  rw [unsigned_digits hne hw (by simp)]
  simp only [number]
  rw [htake, hdrop, if_neg (fun h => hne h.1), exponent, zero_sub, zpow_neg, zpow_natCast,
    div_eq_mul_inv]

lemma unsigned_of_point (n decimals : ℕ) :
    unsigned (point n decimals) = some (.finite ((n : ℚ) / 10 ^ decimals)) := by
  have hlen := lt_length_padded n decimals
  have hvalue : value (padded n decimals) = n := value_toDigits _ _
  rw [point]
  split_ifs with hzero
  · subst hzero
    rw [unsigned_whole (List.ne_nil_of_length_pos hlen) isDigit_padded, hvalue, pow_zero, div_one]
  · rw [unsigned_point, List.take_append_drop, List.length_drop, hvalue]
    · congr 5
      omega
    · rw [← List.length_pos_iff, List.length_take]
      omega
    · exact fun c hc => isDigit_padded c (List.mem_of_mem_take hc)
    · exact fun c hc => isDigit_padded c (List.mem_of_mem_drop hc)

/-- A written number begins with a digit. -/
lemma point_eq_cons (n decimals : ℕ) : ∃ c s, point n decimals = c :: s ∧ c.isDigit := by
  have hlen := lt_length_padded n decimals
  obtain ⟨c, s, hcons⟩ := List.exists_cons_of_length_pos (Nat.zero_lt_of_lt hlen)
  have hmem : c ∈ padded n decimals := by simp [hcons]
  have hc : c.isDigit := isDigit_padded c hmem
  rw [point]
  split_ifs with hzero
  · exact ⟨c, s, hcons, hc⟩
  · obtain ⟨k, hk⟩ := Nat.exists_eq_add_one.mpr (Nat.sub_pos_of_lt hlen)
    exact ⟨c, _, by rw [hk, hcons]; rfl, hc⟩

lemma isSpace_digit {c : Char} (hc : c.isDigit) : isSpace c = false := by
  simp only [Char.isDigit, Bool.and_eq_true, decide_eq_true_eq, UInt32.le_iff_toNat_le] at hc
  have hlow : 48 ≤ c.toNat := hc.1
  have hhigh : c.toNat ≤ 57 := hc.2
  simp only [isSpace, List.mem_cons, List.not_mem_nil, or_false, Bool.or_eq_false_iff,
    decide_eq_false_iff_not, Bool.and_eq_false_iff]
  omega

lemma dropWhile_isSpace {c : Char} {s : List Char} (hc : c.isDigit) :
    (c :: s).dropWhile isSpace = c :: s := by simp [isSpace_digit hc]

/-- A text that begins with a digit has no sign. -/
lemma parseFloat_cons {c : Char} {s : List Char} (hc : c.isDigit) :
    parseFloat (c :: s) = unsigned (c :: s) := by
  rw [parseFloat, dropWhile_isSpace hc]
  split
  · simp_all
  · simp_all
  · rfl

/-- **Round trip.** What is read is the number, rounded. -/
theorem parseFloat_toFixed (x : ℚ) (decimals : ℕ) :
    parseFloat (toFixed x decimals) = some (.finite (rounded x decimals)) := by
  rw [toFixed, rounded]
  split_ifs with hneg
  · simp [parseFloat, isSpace, unsigned_of_point, Number.neg]
  · obtain ⟨c, s, hcons, hc⟩ := point_eq_cons (units x decimals) decimals
    have hread := unsigned_of_point (units x decimals) decimals
    rw [hcons] at hread ⊢
    rw [parseFloat_cons hc, hread]

/-! ### Reading all that was written -/

/-- The characters of a written number. -/
def Plain (c : Char) : Prop := c.isDigit ∨ c = '.' ∨ c = '-'

lemma plain_point : ∀ c ∈ point n decimals, c.isDigit ∨ c = '.' := by
  intro c hc
  unfold point at hc
  split_ifs at hc
  · exact .inl (isDigit_padded c hc)
  · rcases List.mem_append.mp hc with hc | hc
    · exact .inl (isDigit_padded c (List.mem_of_mem_take hc))
    · rcases List.mem_cons.mp hc with rfl | hc
      · exact .inr rfl
      · exact .inl (isDigit_padded c (List.mem_of_mem_drop hc))

lemma plain_toFixed {x : ℚ} : ∀ c ∈ toFixed x decimals, Plain c := by
  intro c hc
  unfold toFixed at hc
  split_ifs at hc
  · rcases List.mem_cons.mp hc with rfl | hc
    · exact .inr (.inr rfl)
    · exact (plain_point c hc).imp_right .inl
  · exact (plain_point c hc).imp_right .inl

lemma Plain.not_isSpace {c : Char} (h : Plain c) : isSpace c = false := by
  rcases h with h | rfl | rfl
  · exact isSpace_digit h
  · rfl
  · rfl

lemma Plain.base_eq_none {c : Char} (h : Plain c) : base c = none := by
  have hne (d : Char) (hd : ¬(d.isDigit ∨ d = '.' ∨ d = '-')) : c ≠ d := by
    rintro rfl
    exact hd h
  simp [base, hne 'x' (by decide), hne 'X' (by decide), hne 'o' (by decide), hne 'O' (by decide),
    hne 'b' (by decide), hne 'B' (by decide)]

lemma radix_eq_none {s : List Char} (h : ∀ c ∈ s, Plain c) : radix s = none := by
  unfold radix
  split
  · next c digits =>
    rw [(h c (by simp)).base_eq_none]
    rfl
  · rfl

lemma radix_cons_cons {c c' : Char} {s : List Char} (h : base c' = none) :
    radix (c :: c' :: s) = none := by
  unfold radix
  split
  · next heq =>
    obtain ⟨-, heq⟩ := List.cons.inj heq
    rw [← (List.cons.inj heq).1, h]
    rfl
  · rfl

lemma trim_eq_self {s : List Char} (h : ∀ c ∈ s, isSpace c = false) :
    (s.dropWhile isSpace).rdropWhile isSpace = s := by
  have hstart : s.dropWhile isSpace = s := by
    cases s with
    | nil => rfl
    | cons c s => simp [h c]
  rw [hstart, List.rdropWhile_eq_self_iff]
  intro hne
  simp [h _ (List.getLast_mem hne)]

lemma isUnsigned_point (n decimals : ℕ) : isUnsigned (point n decimals) = true := by
  have hdigits : ∀ s : List Char, (∀ c ∈ s, c.isDigit) → s.dropWhile Char.isDigit = [] := by
    intro s hs
    rw [List.dropWhile_eq_nil_iff]
    exact hs
  rw [isUnsigned, point]
  split_ifs
  · rw [hdigits _ isDigit_padded]
    simp [isExponent]
  · have hwhole : ∀ c ∈ (padded n decimals).take ((padded n decimals).length - decimals), c.isDigit :=
      fun c hc => isDigit_padded c (List.mem_of_mem_take hc)
    obtain ⟨-, hdrop⟩ := takeWhile_digits
      (t := '.' :: (padded n decimals).drop ((padded n decimals).length - decimals)) hwhole (by simp)
    rw [hdrop]
    simp only
    rw [hdigits _ fun c hc => isDigit_padded c (List.mem_of_mem_drop hc)]
    simp [isExponent]

lemma isDecimal_cons {c : Char} {s : List Char} (hc : c.isDigit) :
    isDecimal (c :: s) = isUnsigned (c :: s) := by
  unfold isDecimal
  split
  · simp_all
  · simp_all
  · rfl

lemma isDecimal_toFixed (x : ℚ) (decimals : ℕ) : isDecimal (toFixed x decimals) = true := by
  rw [toFixed]
  split_ifs
  · exact isUnsigned_point _ _
  · obtain ⟨c, s, hcons, hc⟩ := point_eq_cons (units x decimals) decimals
    have hunsigned := isUnsigned_point (units x decimals) decimals
    rw [hcons] at hunsigned ⊢
    rw [isDecimal_cons hc, hunsigned]

/-- **Round trip.** -/
theorem toNumber_toFixed (x : ℚ) (decimals : ℕ) :
    toNumber (toFixed x decimals) = some (.finite (rounded x decimals)) := by
  have hne : toFixed x decimals ≠ [] := by
    intro hnil
    have hread := parseFloat_toFixed x decimals
    rw [hnil] at hread
    cases hread
  rw [toNumber, trim_eq_self fun c hc => (plain_toFixed c hc).not_isSpace]
  simp only [if_neg hne, radix_eq_none plain_toFixed, isDecimal_toFixed, if_true, parseFloat_toFixed]

/-! ### What is written -/

lemma rounded_of_nonneg {x : ℚ} (h : 0 ≤ x) :
    rounded x decimals = ⌊x * 10 ^ decimals + 1 / 2⌋ / 10 ^ decimals := by
  have hfloor : 0 ≤ ⌊x * 10 ^ decimals + 1 / 2⌋ := Int.floor_nonneg.mpr (by positivity)
  have hcast : ((units x decimals : ℕ) : ℚ) = ⌊x * 10 ^ decimals + 1 / 2⌋ := by
    rw [units, ← Int.cast_natCast, Int.toNat_of_nonneg hfloor]
  rw [rounded, if_neg h.not_gt, hcast]

lemma rounded_nonneg {x : ℚ} (h : 0 ≤ x) : 0 ≤ rounded x decimals := by
  rw [rounded, if_neg h.not_gt]
  positivity

lemma units_natCast (a decimals : ℕ) : units ((a : ℚ) / 10 ^ decimals) decimals = a := by
  have hpow : (10 : ℚ) ^ decimals ≠ 0 := by positivity
  have hfloor : ⌊(a : ℚ) + 1 / 2⌋ = a := by
    rw [Int.floor_eq_iff]
    constructor <;> push_cast <;> linarith
  rw [units, div_mul_cancel₀ _ hpow, hfloor, Int.toNat_natCast]

lemma rounded_natCast (a decimals : ℕ) :
    rounded ((a : ℚ) / 10 ^ decimals) decimals = (a : ℚ) / 10 ^ decimals := by
  have hnonneg : ¬(a : ℚ) / 10 ^ decimals < 0 := not_lt.mpr (by positivity)
  rw [rounded, if_neg hnonneg, units_natCast]

/-- What has no more decimals is not rounded. -/
lemma rounded_intCast (k : ℤ) (decimals : ℕ) :
    rounded ((k : ℚ) / 10 ^ decimals) decimals = (k : ℚ) / 10 ^ decimals := by
  rcases le_or_gt 0 k with hnonneg | hneg
  · obtain ⟨a, rfl⟩ := Int.eq_ofNat_of_zero_le hnonneg
    exact rounded_natCast a decimals
  · obtain ⟨a, ha⟩ := Int.eq_ofNat_of_zero_le (neg_nonneg.mpr hneg.le)
    have hcast : (k : ℚ) = -(a : ℚ) := by
      rw [← Int.cast_natCast, ← ha, Int.cast_neg, neg_neg]
    have hlt : (k : ℚ) / 10 ^ decimals < 0 :=
      div_neg_of_neg_of_pos (Int.cast_lt_zero.mpr hneg) (by positivity)
    rw [rounded, if_pos hlt, hcast, neg_div, neg_neg, units_natCast]

lemma toFixed_natCast (a : ℕ) : toFixed (a : ℚ) 0 = Nat.toDigits 10 a := by
  have hunits := units_natCast a 0
  rw [pow_zero, div_one] at hunits
  have hlen : 0 + 1 - (Nat.toDigits 10 a).length = 0 := by
    have := Nat.length_toDigits_pos (b := 10) (n := a)
    omega
  rw [toFixed, if_neg (not_lt.mpr (Nat.cast_nonneg a)), hunits, point, if_pos rfl,
    padded, hlen]
  rfl

/-- A written natural number is read. -/
lemma toNumber_toString (a : ℕ) : toNumber (toString a).toList = some (.finite a) := by
  have hread := toNumber_toFixed (a : ℚ) 0
  have hrounded := rounded_natCast a 0
  rw [pow_zero, div_one] at hrounded
  rw [toFixed_natCast, hrounded] at hread
  rw [Nat.toString_eq_ofList_toDigits, String.toList_ofList, hread]

end Decimal
