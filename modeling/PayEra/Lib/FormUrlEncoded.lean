import PayEra.Lib.Hex

/-!
# Forms in URLs

The pairs of names and values of `application/x-www-form-urlencoded`: written as text, read back, and
looked up.
-/

namespace FormUrlEncoded

/-! ### Bytes as text -/

/-- The digits of an escaped byte. -/
def upperDigit (n : ℕ) : Char := if n < 10 then Char.ofNat (48 + n) else Char.ofNat (55 + n)

def escape (b : UInt8) : List Char := ['%', upperDigit (b.toNat / 16), upperDigit (b.toNat % 16)]

/-- The characters that stand for themselves. -/
def bare (c : Char) : Bool := c.isAlphanum || c = '*' || c = '-' || c = '.' || c = '_'

def encodeChar (c : Char) : List Char :=
  if bare c then [c] else if c = ' ' then ['+'] else (String.utf8EncodeChar c).flatMap escape

def encode (s : String) : List Char := s.toList.flatMap encodeChar

/-- The bytes that a name or a value stands for. -/
def decode : List Char → List UInt8
  | [] => []
  | '+' :: s => 32 :: decode s
  | '%' :: a :: b :: s =>
    match Hex.digit a, Hex.digit b with
    | some m, some n => UInt8.ofNat (16 * m + n) :: decode s
    | _, _ => 37 :: decode (a :: b :: s)
  | c :: s => String.utf8EncodeChar c ++ decode s

/-- What a decoder makes of bytes that are not UTF-8. -/
structure Repair where
  text : List UInt8 → String
  ne_empty (bytes : List UInt8) (h : bytes ≠ []) : text bytes ≠ ""

/-- Bytes read as UTF-8. -/
def Repair.read (repair : Repair) (bytes : List UInt8) : String :=
  (String.fromUTF8? bytes.toByteArray).getD (repair.text bytes)

/-! ### Pairs -/

def pair (p : String × String) : List Char := encode p.1 ++ '=' :: encode p.2

def serialize (ps : List (String × String)) : List Char := ['&'].intercalate (ps.map pair)

/-- A name and its value, which is empty without an `=`. -/
def split (s : List Char) : List Char × List Char :=
  (s.takeWhile (· ≠ '='), (s.dropWhile (· ≠ '=')).drop 1)

def parse (repair : Repair) (s : List Char) : List (String × String) :=
  ((s.splitOn '&').filter (· ≠ [])).map fun p =>
    (repair.read (decode (split p).1), repair.read (decode (split p).2))

/-- The value of the first pair with the name. -/
def get (ps : List (String × String)) (name : String) : Option String :=
  (ps.find? (·.1 = name)).map Prod.snd

/-- The first pair with the name gets the value and the others go, or there is a new pair. -/
def set (ps : List (String × String)) (name value : String) : List (String × String) :=
  match ps with
  | [] => [(name, value)]
  | p :: ps => if p.1 = name then (name, value) :: ps.filter (·.1 ≠ name) else p :: set ps name value

/-! ### Decoding what was encoded -/

lemma upperDigit_spec : ∀ n < 16, Hex.digit (upperDigit n) = some n ∧ (upperDigit n).isAlphanum := by
  decide

lemma decode_escape (b : UInt8) (s : List Char) : decode (escape b ++ s) = b :: decode s := by
  have hb := b.toNat_lt
  obtain ⟨hhigh, -⟩ := upperDigit_spec (b.toNat / 16) (by omega)
  obtain ⟨hlow, -⟩ := upperDigit_spec (b.toNat % 16) (by omega)
  have hbyte : 16 * (b.toNat / 16) + b.toNat % 16 = b.toNat := by omega
  simp [escape, decode, hhigh, hlow, hbyte]

lemma decode_escapes (bytes : List UInt8) (s : List Char) :
    decode (bytes.flatMap escape ++ s) = bytes ++ decode s := by
  induction bytes with
  | nil => rfl
  | cons b bytes ih => simp [decode_escape, ih]

lemma decode_cons {c : Char} (hplus : c ≠ '+') (hpercent : c ≠ '%') (s : List Char) :
    decode (c :: s) = String.utf8EncodeChar c ++ decode s := by
  rw [decode]
  · exact hplus
  · intro a b t hc
    exact absurd hc hpercent

lemma decode_encodeChar (c : Char) (s : List Char) :
    decode (encodeChar c ++ s) = String.utf8EncodeChar c ++ decode s := by
  unfold encodeChar
  split_ifs with hbare hspace
  · apply decode_cons
    · rintro rfl
      exact absurd hbare (by decide)
    · rintro rfl
      exact absurd hbare (by decide)
  · subst hspace
    rfl
  · exact decode_escapes _ _

lemma decode_encode (s : String) : decode (encode s) = s.toList.flatMap String.utf8EncodeChar := by
  unfold encode
  induction s.toList with
  | nil => rfl
  | cons c l ih => simp [decode_encodeChar, ih]

lemma Repair.read_utf8 (repair : Repair) (s : String) :
    repair.read (s.toList.flatMap String.utf8EncodeChar) = s := by
  have hbytes : (s.toList.flatMap String.utf8EncodeChar).toByteArray = s.toByteArray := by
    simpa [List.utf8Encode] using s.utf8Encode_toList
  rw [Repair.read, hbytes, String.fromUTF8?, dif_pos s.isValidUTF8]
  rfl

@[simp] lemma Repair.read_encode (repair : Repair) (s : String) :
    repair.read (decode (encode s)) = s := by
  rw [decode_encode, repair.read_utf8]

/-! ### What is written -/

/-- The characters of an encoded name or value. -/
def Wire (c : Char) : Prop := bare c ∨ c = '+' ∨ c = '%'

lemma wire_escape (b : UInt8) : ∀ c ∈ escape b, Wire c := by
  have hb := b.toNat_lt
  obtain ⟨-, hhigh⟩ := upperDigit_spec (b.toNat / 16) (by omega)
  obtain ⟨-, hlow⟩ := upperDigit_spec (b.toNat % 16) (by omega)
  intro c hc
  simp only [escape, List.mem_cons, List.not_mem_nil, or_false] at hc
  rcases hc with rfl | rfl | rfl
  · exact .inr (.inr rfl)
  · exact .inl (by simp [bare, hhigh])
  · exact .inl (by simp [bare, hlow])

lemma wire_encode (s : String) : ∀ c ∈ encode s, Wire c := by
  intro c hc
  obtain ⟨a, -, ha⟩ := List.mem_flatMap.mp hc
  unfold encodeChar at ha
  split_ifs at ha with hbare hspace
  · obtain rfl := List.mem_singleton.mp ha
    exact .inl hbare
  · obtain rfl := List.mem_singleton.mp ha
    exact .inr (.inl rfl)
  · obtain ⟨b, -, hb⟩ := List.mem_flatMap.mp ha
    exact wire_escape b c hb

/-- Nothing that separates names, values, pairs or the parts of a URL. -/
lemma Wire.ne {c c' : Char} (h : Wire c) (hc' : ¬Wire c') : c ≠ c' := by
  rintro rfl
  exact hc' h

instance (c : Char) : Decidable (Wire c) := by
  unfold Wire
  infer_instance

/-- What separates names, values and pairs, or is one of their characters. -/
def Text (c : Char) : Prop := Wire c ∨ c = '&' ∨ c = '='

instance (c : Char) : Decidable (Text c) := by
  unfold Text
  infer_instance

lemma wire_pair (p : String × String) : ∀ c ∈ pair p, Wire c ∨ c = '=' := by
  intro c hc
  rcases List.mem_append.mp hc with hc | hc
  · exact .inl (wire_encode p.1 c hc)
  · rcases List.mem_cons.mp hc with rfl | hc
    · exact .inr rfl
    · exact .inl (wire_encode p.2 c hc)

lemma text_serialize (ps : List (String × String)) : ∀ c ∈ serialize ps, Text c := by
  unfold serialize
  induction ps with
  | nil => simp
  | cons p ps ih =>
    have hpair : ∀ c ∈ pair p, Text c := fun c hc => (wire_pair p c hc).imp_right .inr
    cases ps with
    | nil => simpa using hpair
    | cons p' ps =>
      rw [List.map_cons, List.map_cons, List.intercalate_cons_cons, ← List.map_cons]
      intro c hc
      rcases List.mem_append.mp hc with hc | hc
      · rcases List.mem_append.mp hc with hc | hc
        · exact hpair c hc
        · exact .inr (.inl (List.mem_singleton.mp hc))
      · exact ih c hc

/-! ### The round trip -/

lemma split_pair (p : String × String) : split (pair p) = (encode p.1, encode p.2) := by
  have hname : ∀ c ∈ encode p.1, decide (c ≠ '=') = true := fun c hc =>
    decide_eq_true ((wire_encode p.1 c hc).ne (by decide))
  rw [split, pair, List.takeWhile_append_of_pos hname, List.dropWhile_append_of_pos hname]
  simp

lemma splitOn_serialize {ps : List (String × String)} (h : ps ≠ []) :
    (serialize ps).splitOn '&' = ps.map pair := by
  apply List.splitOn_intercalate
  · intro l hl hmem
    obtain ⟨p, -, rfl⟩ := List.mem_map.mp hl
    rcases wire_pair p _ hmem with hwire | heq
    · exact hwire.ne (by decide) rfl
    · exact absurd heq (by decide)
  · simpa using h

/-- **Round trip.** -/
theorem parse_serialize (repair : Repair) (ps : List (String × String)) :
    parse repair (serialize ps) = ps := by
  by_cases h : ps = []
  · subst h
    rfl
  · have hnil : ∀ p ∈ ps.map pair, p ≠ [] := by
      intro l hl
      obtain ⟨p, -, rfl⟩ := List.mem_map.mp hl
      simp [pair]
    rw [parse, splitOn_serialize h, List.filter_eq_self.mpr (by simpa using hnil), List.map_map]
    conv_rhs => rw [← List.map_id ps]
    refine List.map_congr_left fun p _ => ?_
    simp [split_pair]

end FormUrlEncoded
