import PayEra.Lib.Double
import PayEra.Lib.Paging

/-!
# Pagination

`apps/api/src/common`: the interceptor that describes the page of a list, and the utility that cuts it
out. The interceptor reads the query as it was sent, and the services read it as it was validated.
-/

namespace PayEra.Api.Pagination

open Decimal (Number)

/-! ### Queries -/

/-- A parameter of a query: a text, or the texts of a parameter that is repeated. -/
inductive QueryValue where
  | text (s : String)
  | texts (first second : String) (others : List String)

/-- `Number`, with `none` for `NaN`: several texts are joined with commas, which no number has. -/
def QueryValue.number : QueryValue → Option Number
  | .text s => (Decimal.toNumber s.toList).map Double.ofNumber
  | .texts _ _ _ => none

/-- The parameters that cut out a page. -/
structure Query where
  page : Option QueryValue
  limit : Option QueryValue
  skip : Option QueryValue
  take : Option QueryValue

/-- The same query for another page. -/
def Query.at (query : Query) (page : ℕ) : Query :=
  { query with page := some (.text (toString page)) }

structure PaginationDto where
  page : ℕ
  limit : ℕ
  page_pos : 1 ≤ page
  limit_pos : 1 ≤ limit
  limit_le : limit ≤ 100

/-- `@Type(() => Number) @IsInt() @Min(1)`: an array of numbers is not an integer. -/
def positiveInt (value : QueryValue) : Option ℕ :=
  match value.number with
  | some (.finite x) => if x.isInt ∧ 1 ≤ x then some x.num.toNat else none
  | _ => none

/-- `@IsOptional()`, with the default of the class. -/
def optionalInt (value : Option QueryValue) (fallback : ℕ) : Option ℕ :=
  match value with
  | none => some fallback
  | some value => positiveInt value

/-- What the validation makes of a query; it refuses the properties that are not those of the class. -/
def PaginationDto.validate (query : Query) : Option PaginationDto :=
  if query.skip.isSome ∨ query.take.isSome then none
  else
    match optionalInt query.page 1, optionalInt query.limit 25 with
    | some page, some limit =>
      if h : 1 ≤ page ∧ 1 ≤ limit ∧ limit ≤ 100 then some ⟨page, limit, h.1, h.2.1, h.2.2⟩ else none
    | _, _ => none

def toPagination (query : PaginationDto) : ℕ × ℕ := ((query.page - 1) * query.limit, query.limit)

/-! ### The database -/

/-- No two rows are the same, and JavaScript counts them exactly: a table of the database ends long
before. -/
structure Table (Row : Type) where
  rows : List Row
  nodup : rows.Nodup
  length_lt : rows.length < 2 ^ 53

/-- `findMany`, ordered by `createdAt`, the latest first, and `count` with the same `where`. -/
structure FindMany (Row : Type) where
  table : Table Row
  createdAt : Row → ℕ
  visible : Row → Bool
  skip : ℕ
  take : ℤ

section

variable {Row : Type}

def FindMany.matching (f : FindMany Row) : List Row := f.table.rows.filter f.visible

def FindMany.count (f : FindMany Row) : ℕ := f.matching.length

/-- Rows of the same moment come in any order. A negative `take` counts from the end, and so does
`skip` then. -/
structure FindMany.Returns (f : FindMany Row) (before items after : List Row) : Prop
    extends Paging.Cut f.createdAt f.matching before items after where
  skipped : (if 0 ≤ f.take then before else after).length = min f.skip f.count
  taken : items.length = min f.take.natAbs (f.count - f.skip)

/-! ### The interceptor -/

structure PaginatedResponse (Row : Type) where
  items : List Row
  total : ℕ

/-- A number of the metadata: the default, or what the query has. -/
inductive Given where
  | fallback (n : ℕ)
  | raw (value : QueryValue)

/-- `value ?? n`. -/
def given (value : Option QueryValue) (n : ℕ) : Given := (value.map .raw).getD (.fallback n)

def Given.number : Given → Option Number
  | .fallback n => some (.finite n)
  | .raw value => value.number

/-- A text with a minus, which tells apart the two zeros. -/
def Given.negative : Given → Bool
  | .raw (.text s) => (s.toList.dropWhile Decimal.isSpace).head? = some '-'
  | _ => false

/-- `a < b`, which is false with `NaN`. -/
def less : Option Number → Option Number → Bool
  | some (.finite a), some (.finite b) => decide (a < b)
  | some (.finite _), some (.infinite negative) => !negative
  | some (.infinite negative), some (.finite _) => negative
  | some (.infinite negative), some (.infinite negative') => negative && !negative'
  | _, _ => false

def ceil : Number → Number
  | .finite x => .finite ⌈x⌉
  | .infinite negative => .infinite negative

/-- `Math.ceil(total / limit)`. -/
def totalPages (total : ℕ) (limit : Given) : Option Number :=
  match limit.number with
  | none => none
  | some (.infinite _) => some (.finite 0)
  | some (.finite x) =>
    if x = 0 then if total = 0 then none else some (.infinite limit.negative)
    else some (ceil (Double.ofRat (total / x)))

structure Metadata where
  total : ℕ
  page : Given
  limit : Given
  totalPages : Option Number
  hasNextPage : Bool
  hasPreviousPage : Bool

/-- The response, with its `meta`. -/
structure Paginated (Row : Type) where
  data : List Row
  metadata : Metadata

/-- What the interceptor makes of `{ items, total }`. -/
def intercept (query : Query) (response : PaginatedResponse Row) : Paginated Row :=
  let page := given query.page 1
  let limit := given query.limit 25
  let totalPages := totalPages response.total limit
  { data := response.items
    metadata :=
      { total := response.total
        page
        limit
        totalPages
        hasNextPage := less page.number totalPages
        hasPreviousPage := less (some (.finite 1)) page.number } }

/-- A response to the query, between the rows before and after its own. -/
def Responds (f : FindMany Row) (query : Query) (before : List Row) (response : Paginated Row)
    (after : List Row) : Prop :=
  ∃ items, f.Returns before items after ∧ response = intercept query ⟨items, f.count⟩

/-- A page of an endpoint, and whether its response announces another. -/
def Follows (find : Query → Option (FindMany Row)) (query : Query) (n : ℕ) (items : List Row)
    (more : Bool) : Prop :=
  ∃ f before response after, find (query.at (n + 1)) = some f ∧
    Responds f (query.at (n + 1)) before response after ∧ response.data = items ∧
    response.metadata.hasNextPage = more

/-- The metadata is right, and following the pages from the first one gives every row once. -/
structure TruthfulMeta (find : Query → Option (FindMany Row)) (query : Query) (f : FindMany Row) :
    Prop where
  next : ∀ before response after, Responds f query before response after →
    (response.metadata.hasNextPage = true ↔ after ≠ [])
  previous : ∀ before response after, Responds f query before response after →
    (response.metadata.hasPreviousPage = true ↔ before ≠ [])
  complete : Paging.Complete f.matching (Paging.Walk (Follows find query) 0)

/-- The query of the services that cut out a page. -/
def findPage (table : Table Row) (createdAt : Row → ℕ) (visible : Row → Bool) (query : PaginationDto) :
    FindMany Row where
  table := table
  createdAt := createdAt
  visible := visible
  skip := (toPagination query).1
  take := (toPagination query).2

/-- An endpoint whose query is validated. -/
def paged (list : PaginationDto → FindMany Row) (query : Query) : Option (FindMany Row) :=
  (PaginationDto.validate query).map list

end

/-! ### What the metadata says -/

section

variable {Row : Type} {query : Query} {dto : PaginationDto}

/-- What is validated is the number of the text. -/
lemma number_of_positiveInt {value : QueryValue} {n : ℕ} (h : positiveInt value = some n) :
    value.number = some (.finite n) := by
  simp only [positiveInt] at h
  split at h
  · next x hx =>
    split_ifs at h with hint
    obtain rfl := Option.some.inj h
    have hnum : ((x.num.toNat : ℤ) : ℚ) = x := by
      rw [Int.toNat_of_nonneg (Rat.num_nonneg.mpr (zero_le_one.trans hint.2))]
      exact Rat.coe_int_num_of_den_eq_one (beq_iff_eq.mp hint.1)
    rw [hx, ← Int.cast_natCast, hnum]
  · cases h

lemma number_of_optionalInt {value : Option QueryValue} {fallback n : ℕ}
    (h : optionalInt value fallback = some n) : (given value fallback).number = some (.finite n) := by
  cases value with
  | none =>
    obtain rfl := Option.some.inj h
    rfl
  | some value => exact number_of_positiveInt h

/-- The interceptor has the numbers of the validated query. -/
lemma number_of_validate (h : PaginationDto.validate query = some dto) :
    (given query.page 1).number = some (.finite dto.page) ∧
      (given query.limit 25).number = some (.finite dto.limit) := by
  simp only [PaginationDto.validate] at h
  split_ifs at h
  split at h
  · next page limit hpage hlimit =>
    split_ifs at h
    obtain rfl := Option.some.inj h
    exact ⟨number_of_optionalInt hpage, number_of_optionalInt hlimit⟩
  · cases h

lemma less_finite {a b : ℚ} : less (some (.finite a)) (some (.finite b)) = true ↔ a < b :=
  decide_eq_true_iff

/-- There is a page after the page if and only if there are rows after its last one. -/
lemma hasNextPage_iff (h : PaginationDto.validate query = some dto) {response : PaginatedResponse Row}
    (htotal : response.total < 2 ^ 53) :
    (intercept query response).metadata.hasNextPage = true ↔ dto.page * dto.limit < response.total := by
  obtain ⟨hpage, hlimit⟩ := number_of_validate h
  have hpos : (0 : ℚ) < dto.limit := Nat.cast_pos.mpr dto.limit_pos
  have hpages : totalPages response.total (given query.limit 25) =
      some (.finite ⌈Double.round (response.total / dto.limit)⌉) := by
    simp only [totalPages, hlimit, hpos.ne', if_false]
    rw [Double.ofRat_div dto.limit_pos htotal, ceil]
  rw [intercept, hpages, hpage, less_finite, ← Int.cast_natCast dto.page, Int.cast_lt, Int.lt_ceil,
    Int.cast_natCast, Double.lt_round_div_iff dto.limit_pos (dto.limit_le.trans (by norm_num)) htotal]

lemma hasPreviousPage_iff (h : PaginationDto.validate query = some dto)
    (response : PaginatedResponse Row) :
    (intercept query response).metadata.hasPreviousPage = true ↔ 1 < dto.page := by
  rw [intercept, (number_of_validate h).1, less_finite]
  exact_mod_cast Iff.rfl

/-! ### Lists with pages -/

/-- A number is read exactly, up to a bound. -/
lemma number_toString {n : ℕ} (h : n ≤ 2 ^ 53) :
    (QueryValue.text (toString n)).number = some (.finite n) := by
  rw [QueryValue.number, Decimal.toNumber_toString, Option.map_some, Double.ofNumber,
    Double.ofRat_natCast h]

lemma positiveInt_toString {n : ℕ} (hpos : 1 ≤ n) (h : n ≤ 2 ^ 53) :
    positiveInt (.text (toString n)) = some n := by
  have hint : (n : ℚ).isInt = true := beq_iff_eq.mpr (Rat.den_natCast _)
  have hone : (1 : ℚ) ≤ n := Nat.one_le_cast.mpr hpos
  simp only [positiveInt, number_toString h]
  rw [if_pos ⟨hint, hone⟩]
  rfl

/-- The same query for another page is valid, with the same limit. -/
lemma validate_at (h : PaginationDto.validate query = some dto) {n : ℕ} (hn : n < 2 ^ 53) :
    PaginationDto.validate (query.at (n + 1)) =
      some ⟨n + 1, dto.limit, Nat.le_add_left 1 n, dto.limit_pos, dto.limit_le⟩ := by
  have hpage : positiveInt (.text (toString (n + 1))) = some (n + 1) :=
    positiveInt_toString (Nat.le_add_left 1 n) hn
  simp only [PaginationDto.validate] at h ⊢
  split_ifs at h with hlisted
  split at h
  · next page limit hp hl =>
    split_ifs at h with hbounds
    obtain rfl := Option.some.inj h
    have hskip : ¬((query.at (n + 1)).skip.isSome = true ∨ (query.at (n + 1)).take.isSome = true) :=
      hlisted
    have hlimit : optionalInt (query.at (n + 1)).limit 25 = some limit := hl
    have hnumber : optionalInt (query.at (n + 1)).page 1 = some (n + 1) := hpage
    rw [if_neg hskip, hnumber, hlimit]
    exact dif_pos ⟨Nat.le_add_left 1 n, hbounds.2⟩
  · cases h

lemma FindMany.count_lt (f : FindMany Row) : f.count < 2 ^ 53 :=
  (List.length_filter_le _ _).trans_lt f.table.length_lt

lemma FindMany.Returns.length_eq {f : FindMany Row} {before items after : List Row}
    (h : f.Returns before items after) :
    before.length + items.length + after.length = f.count := by
  rw [FindMany.count, ← h.perm.length_eq, List.length_append, List.length_append]

variable {table : Table Row} {createdAt : Row → ℕ} {visible : Row → Bool}

/-- The rows of a page are those of a page of its size. -/
lemma returns_iff {before items after : List Row} :
    (findPage table createdAt visible dto).Returns before items after ↔
      Paging.Page createdAt (table.rows.filter visible) dto.limit (dto.page - 1) before items after := by
  have htake : (0 : ℤ) ≤ (findPage table createdAt visible dto).take := Int.natCast_nonneg _
  constructor
  · intro h
    have hskipped := h.skipped
    rw [if_pos htake] at hskipped
    exact ⟨h.toCut, hskipped, h.taken⟩
  · intro h
    refine ⟨h.toCut, ?_, h.taken⟩
    rw [if_pos htake]
    exact h.skipped

/-- There are such rows, wherever they are counted from. -/
lemma exists_returns (f : FindMany Row) : ∃ before items after, f.Returns before items after := by
  obtain ⟨l, hperm, hl⟩ := Paging.exists_order f.createdAt f.matching
  have hlen : l.length = f.count := hperm.length_eq
  have hcut (first last : ℕ) (hle : first ≤ last) : Paging.Cut f.createdAt f.matching (l.take first)
      ((l.drop first).take (last - first)) (l.drop last) := by
    have hparts : l.take first ++ (l.drop first).take (last - first) ++ l.drop last = l := by
      have hlast : l.drop last = (l.drop first).drop (last - first) := by
        rw [List.drop_drop, Nat.add_sub_cancel' hle]
      rw [hlast, List.append_assoc, List.take_append_drop, List.take_append_drop]
    exact ⟨by rwa [hparts], by rwa [hparts]⟩
  by_cases htake : 0 ≤ f.take
  · refine ⟨_, _, _, hcut f.skip (f.skip + f.take.natAbs) (Nat.le_add_right _ _), ?_, ?_⟩
    · rw [if_pos htake, List.length_take, hlen]
    · rw [List.length_take, List.length_drop, hlen]
      omega
  · refine ⟨_, _, _, hcut (f.count - (f.skip + f.take.natAbs)) (f.count - f.skip) (by omega), ?_, ?_⟩
    · rw [if_neg htake, List.length_drop, hlen]
      omega
    · rw [List.length_take, List.length_drop, hlen]
      omega

/-- Where there are rows around a page. -/
lemma around_page {before items after : List Row}
    (h : (findPage table createdAt visible dto).Returns before items after) :
    (after ≠ [] ↔ dto.page * dto.limit < (findPage table createdAt visible dto).count) ∧
      (before ≠ [] ↔ 1 < dto.page ∧ (findPage table createdAt visible dto).count ≠ 0) := by
  have hlen := h.length_eq
  have hskipped : before.length =
      min ((dto.page - 1) * dto.limit) (findPage table createdAt visible dto).count :=
    (returns_iff.mp h).skipped
  have htaken : items.length = min dto.limit
      ((findPage table createdAt visible dto).count - (dto.page - 1) * dto.limit) := h.taken
  have hpage : dto.page * dto.limit = (dto.page - 1) * dto.limit + dto.limit := by
    rw [← Nat.succ_mul, Nat.succ_eq_add_one, Nat.sub_add_cancel dto.page_pos]
  have hfirst : 0 < (dto.page - 1) * dto.limit ↔ 1 < dto.page := by
    rw [Nat.mul_pos_iff_of_pos_right dto.limit_pos]
    omega
  rw [← List.length_pos_iff, ← List.length_pos_iff]
  constructor
  · omega
  · rw [← hfirst]
    omega

/-- The pages that follow are those of the rows. -/
lemma follows_paged (h : PaginationDto.validate query = some dto) {n : ℕ} (hn : n < 2 ^ 53)
    {items : List Row} {more : Bool} :
    Follows (paged (findPage table createdAt visible)) query n items more ↔
      Paging.answers createdAt (table.rows.filter visible) dto.limit n items more := by
  have hvalid := validate_at h hn
  have hfind : paged (findPage table createdAt visible) (query.at (n + 1)) = some (findPage table
      createdAt visible ⟨n + 1, dto.limit, Nat.le_add_left 1 n, dto.limit_pos, dto.limit_le⟩) := by
    rw [paged, hvalid, Option.map_some]
  constructor
  · rintro ⟨f, before, response, after, hfound, ⟨items', hreturns, rfl⟩, rfl, rfl⟩
    obtain rfl := Option.some.inj (hfind.symm.trans hfound)
    exact ⟨⟨before, after, returns_iff.mp hreturns⟩, hasNextPage_iff hvalid (FindMany.count_lt _)⟩
  · rintro ⟨⟨before, after, hpage⟩, hmore⟩
    refine ⟨_, before, _, after, hfind, ⟨items, returns_iff.mpr hpage, rfl⟩, rfl, ?_⟩
    rw [Bool.eq_iff_iff, hasNextPage_iff hvalid (FindMany.count_lt _), hmore]
    exact Iff.rfl

/-- There are too few rows for a page that is not read exactly. -/
lemma walk_paged (h : PaginationDto.validate query = some dto) :
    Paging.Walk (Follows (paged (findPage table createdAt visible)) query) 0 =
      Paging.Walk (Paging.answers createdAt (table.rows.filter visible) dto.limit) 0 := by
  have hlast (items : List Row) :
      ¬Paging.answers createdAt (table.rows.filter visible) dto.limit (2 ^ 53 - 1) items true := by
    rintro ⟨-, hmore⟩
    have hcount := (List.length_filter_le visible table.rows).trans_lt table.length_lt
    have hpages := Nat.le_mul_of_pos_right (2 ^ 53 - 1 + 1) dto.limit_pos
    exact ((hmore.mp rfl).trans hcount).not_ge hpages
  funext items
  apply propext
  constructor
  · intro hwalk
    refine hwalk.of_same (2 ^ 53 - 1) (fun n hn _ _ => (follows_paged h (by omega)).mp) ?_
      (Nat.zero_le _)
    exact fun items hitems => hlast items ((follows_paged h (by decide)).mp hitems)
  · intro hwalk
    exact hwalk.of_same (2 ^ 53 - 1) (fun n hn _ _ => (follows_paged h (by omega)).mpr) hlast
      (Nat.zero_le _)

/-- **The exact condition for lists with pages.** -/
lemma truthful_paged (h : PaginationDto.validate query = some dto) :
    TruthfulMeta (paged (findPage table createdAt visible)) query (findPage table createdAt visible dto) ↔
      ¬(1 < dto.page ∧ (findPage table createdAt visible dto).count = 0) ∧
        Paging.Together createdAt (findPage table createdAt visible dto).matching dto.limit := by
  have hcomplete : Paging.Complete (table.rows.filter visible)
      (Paging.Walk (Follows (paged (findPage table createdAt visible)) query) 0) ↔
        Paging.Together createdAt (table.rows.filter visible) dto.limit := by
    rw [walk_paged h]
    exact Paging.complete_iff dto.limit_pos (table.nodup.filter _)
  constructor
  · intro htruthful
    refine ⟨?_, hcomplete.mp htruthful.complete⟩
    rintro ⟨hpage, hcount⟩
    obtain ⟨before, items, after, hreturns⟩ := exists_returns (findPage table createdAt visible dto)
    have hprevious := htruthful.previous before _ after ⟨items, hreturns, rfl⟩
    rw [hasPreviousPage_iff h, (around_page hreturns).2] at hprevious
    exact (hprevious.mp hpage).2 hcount
  · rintro ⟨hempty, htogether⟩
    refine ⟨?_, ?_, hcomplete.mpr htogether⟩
    · rintro before _ after ⟨items, hreturns, rfl⟩
      rw [hasNextPage_iff h (FindMany.count_lt _), (around_page hreturns).1]
    · rintro before _ after ⟨items, hreturns, rfl⟩
      rw [hasPreviousPage_iff h, (around_page hreturns).2]
      exact ⟨fun hpage => ⟨hpage, fun hcount => hempty ⟨hpage, hcount⟩⟩, And.left⟩

/-! ### A list that is always the same -/

/-- The whole list is between the two ends. -/
def Whole (f : FindMany Row) : Prop := f.count = 0 ∨ f.skip = 0 ∧ f.count ≤ f.take.natAbs

section

variable {f : FindMany Row} {find : Query → Option (FindMany Row)} {before items after : List Row}

lemma FindMany.Returns.length_items (h : f.Returns before items after) :
    items.length = f.count ↔ Whole f := by
  have htaken := h.taken
  rw [Whole]
  omega

lemma FindMany.Returns.around_whole (h : f.Returns before items after) (hwhole : Whole f) :
    before = [] ∧ after = [] := by
  have hlen := h.length_eq
  rw [h.length_items.mpr hwhole] at hlen
  exact ⟨List.eq_nil_of_length_eq_zero (by omega), List.eq_nil_of_length_eq_zero (by omega)⟩

/-- The number of pages that the interceptor counts. -/
abbrev pages (f : FindMany Row) (query : Query) : Option Number :=
  totalPages f.count (given query.limit 25)

/-- The page is not the last of the pages, nor after it. -/
def Before : Number → Number → Prop
  | .finite page, .finite pages => (⌊page⌋ : ℚ) < pages
  | .finite _, .infinite negative => negative = false
  | .infinite negative, .finite _ => negative = true
  | .infinite negative, .infinite negative' => negative = true ∧ negative' = false

/-- Rows are left after so many pages of the limit. A query may have any numbers here: dividing by zero
gives an infinity of its sign, and by an infinity zero. -/
def Beyond (rows : ℕ) (page limit : Given) : Prop :=
  match page.number, limit.number with
  | some page, some (.finite size) =>
    if size = 0 then 0 < rows ∧ Before page (.infinite limit.negative)
    else Before page (Double.ofRat (rows / size))
  | some page, some (.infinite _) => Before page (.finite 0)
  | _, _ => False

lemma less_ceil_iff (page pages : Number) :
    less (some page) (some (ceil pages)) = true ↔ Before page pages := by
  cases page with
  | finite p =>
    cases pages with
    | finite q => rw [ceil, less_finite, ← Int.floor_lt, Int.lt_ceil, Before]
    | infinite negative => simp [ceil, less, Before]
  | infinite negative =>
    cases pages with
    | finite q => rfl
    | infinite negative' => simp [ceil, less, Before]

/-- A page is below the number of pages if and only if there are rows beyond it. -/
lemma less_totalPages_iff {rows : ℕ} {page limit : Given} :
    less page.number (totalPages rows limit) = true ↔ Beyond rows page limit := by
  rw [totalPages, Beyond]
  cases page.number with
  | none => cases limit.number <;> simp [less]
  | some page =>
    rcases limit.number with _ | size | _
    · cases page <;> simp [less]
    · show less _ (if size = 0 then if rows = 0 then _ else _ else _) = true ↔ if size = 0 then _ else _
      split_ifs with hsize hrows
      · exact iff_of_false (by cases page <;> simp [less]) fun h => h.1.ne' hrows
      · exact (less_ceil_iff page (.infinite limit.negative)).trans
          (and_iff_right (Nat.pos_of_ne_zero hrows)).symm
      · exact less_ceil_iff page _
    · have hzero := less_ceil_iff page (.finite 0)
      rw [ceil, Int.ceil_zero, Int.cast_zero] at hzero
      exact hzero

/-- Numbers that are positive integers count the rows of so many pages. -/
lemma beyond_fallback {rows page size : ℕ} (hsize : 0 < size) (hle : size ≤ 2 ^ 53)
    (hrows : rows < 2 ^ 53) : Beyond rows (.fallback page) (.fallback size) ↔ page * size < rows := by
  have hpos : (0 : ℚ) < size := Nat.cast_pos.mpr hsize
  simp only [Beyond, Given.number]
  rw [if_neg hpos.ne', Double.ofRat_div hsize hrows, Before, Int.floor_natCast, Int.cast_natCast,
    Double.lt_round_div_iff hsize hle hrows]

/-- The number of a page that is asked for. -/
abbrev asked (query : Query) (n : ℕ) : Option Number := (given (query.at (n + 1)).page 1).number

lemma asked_zero (query : Query) : asked query 0 = some (.finite 1) := by
  have hone := number_toString (n := 1) (by norm_num)
  rwa [Nat.cast_one] at hone

/-- The pages of an endpoint that takes no page. -/
lemma follows_fixed (hfind : ∀ n, find (query.at (n + 1)) = some f) {n : ℕ} {more : Bool} :
    Follows find query n items more ↔ (∃ before after, f.Returns before items after) ∧
      more = less (asked query n) (pages f query) := by
  have hnext (response : PaginatedResponse Row) (htotal : response.total = f.count) :
      (intercept (query.at (n + 1)) response).metadata.hasNextPage =
        less (asked query n) (pages f query) := by
    rw [intercept, htotal]
    rfl
  constructor
  · rintro ⟨f', before, response, after, hfound, ⟨items', hreturns, rfl⟩, rfl, rfl⟩
    obtain rfl := Option.some.inj ((hfind n).symm.trans hfound)
    exact ⟨⟨before, after, hreturns⟩, hnext _ rfl⟩
  · rintro ⟨⟨before, after, hreturns⟩, rfl⟩
    exact ⟨f, before, _, after, hfind n, ⟨items, hreturns, rfl⟩, rfl, hnext _ rfl⟩

/-- An empty list has no page after the first one. -/
lemma not_less_pages (hcount : f.count = 0) : less (some (.finite 1)) (pages f query) = false := by
  rw [pages, totalPages, hcount]
  split
  · rfl
  · rfl
  · next x hx =>
    split_ifs with hzero hempty
    · rfl
    · exact absurd rfl hempty
    · rw [Nat.cast_zero, zero_div, ← Nat.cast_zero, Double.ofRat_natCast (Nat.zero_le _), ceil,
        Nat.cast_zero, Int.ceil_zero]
      rfl

/-- The walk over one page again and again is complete only if it is over one page. -/
lemma complete_fixed (hfind : ∀ n, find (query.at (n + 1)) = some f) :
    Paging.Complete f.matching (Paging.Walk (Follows find query) 0) ↔
      Whole f ∧ less (some (.finite 1)) (pages f query) = false := by
  have hone := asked_zero query
  constructor
  · intro h
    obtain ⟨walked, hwalk⟩ := h.ends
    have hperm := h.once walked hwalk
    cases hwalk with
    | last hlast =>
      obtain ⟨⟨before, after, hreturns⟩, hmore⟩ := (follows_fixed hfind).mp hlast
      rw [hone] at hmore
      exact ⟨hreturns.length_items.mp hperm.length_eq, hmore.symm⟩
    | @next _ items rest hfirst hrest =>
      -- the next page can be the first one too
      obtain ⟨-, hmore⟩ := (follows_fixed hfind).mp hfirst
      obtain ⟨again, others, _, hsplit, hagain⟩ := hrest.first
      obtain ⟨⟨before, after, hreturns⟩, -⟩ := (follows_fixed hfind).mp hagain
      have htwice := h.once _ (.next ((follows_fixed hfind).mpr ⟨⟨before, after, hreturns⟩, hmore⟩) hrest)
      have hnodup := htwice.nodup_iff.mpr (f.table.nodup.filter _)
      rw [hsplit] at hnodup
      have hnil : again = [] := by
        refine List.eq_nil_iff_forall_not_mem.mpr fun a ha => ?_
        exact (List.nodup_append.mp hnodup).2.2 a ha a (List.mem_append_left _ ha) rfl
      have hempty : ∀ n page more, Follows find query n page more → page = [] := by
        intro n page more hpage
        obtain ⟨⟨before', after', hreturns'⟩, -⟩ := (follows_fixed hfind).mp hpage
        apply List.eq_nil_of_length_eq_zero
        rw [hreturns'.taken, ← hreturns.taken, hnil, List.length_nil]
      rw [hempty _ _ _ hfirst, hrest.eq_nil hempty, List.append_nil] at hperm
      have hcount : f.count = 0 := hperm.length_eq.symm
      rw [hone, not_less_pages hcount] at hmore
      cases hmore
  · rintro ⟨hwhole, hless⟩
    have hperm {before items after : List Row} (hreturns : f.Returns before items after) :
        items.Perm f.matching := by
      obtain ⟨rfl, rfl⟩ := hreturns.around_whole hwhole
      simpa using hreturns.perm
    constructor
    · obtain ⟨before, items, after, hreturns⟩ := exists_returns f
      refine ⟨items, .last ((follows_fixed hfind).mpr ⟨⟨before, after, hreturns⟩, ?_⟩)⟩
      rw [hone, hless]
    · intro items hwalk
      cases hwalk with
      | last hlast =>
        obtain ⟨⟨before, after, hreturns⟩, -⟩ := (follows_fixed hfind).mp hlast
        exact hperm hreturns
      | next hnext _ =>
        obtain ⟨-, hmore⟩ := (follows_fixed hfind).mp hnext
        rw [hone, hless] at hmore
        cases hmore

/-- **The exact condition for a list without pages.** -/
lemma truthful_fixed (hfind : ∀ n, find (query.at (n + 1)) = some f) :
    TruthfulMeta find query f ↔ Whole f ∧ less (some (.finite 1)) (given query.page 1).number = false ∧
      ¬Beyond f.count (.fallback 1) (given query.limit 25) ∧
      ¬Beyond f.count (given query.page 1) (given query.limit 25) := by
  have hnothing {before items after : List Row} (hwhole : Whole f) (hreturns : f.Returns before items after)
      (flag : Bool) : ((flag = true ↔ after ≠ []) ↔ flag = false) ∧
        ((flag = true ↔ before ≠ []) ↔ flag = false) := by
    obtain ⟨rfl, rfl⟩ := hreturns.around_whole hwhole
    simp
  have hone : (Given.fallback 1).number = some (.finite 1) := by simp [Given.number]
  rw [← less_totalPages_iff, ← less_totalPages_iff, hone, Bool.not_eq_true, Bool.not_eq_true]
  constructor
  · intro h
    obtain ⟨hwhole, hpages⟩ := (complete_fixed hfind).mp h.complete
    obtain ⟨before, items, after, hreturns⟩ := exists_returns f
    have hnext := h.next before _ after ⟨items, hreturns, rfl⟩
    have hprevious := h.previous before _ after ⟨items, hreturns, rfl⟩
    exact ⟨hwhole, (hnothing hwhole hreturns _).2.mp hprevious, hpages,
      (hnothing hwhole hreturns _).1.mp hnext⟩
  · rintro ⟨hwhole, hpage, hpages, hless⟩
    refine ⟨?_, ?_, (complete_fixed hfind).mpr ⟨hwhole, hpages⟩⟩
    · rintro before _ after ⟨items, hreturns, rfl⟩
      exact (hnothing hwhole hreturns _).1.mpr hless
    · rintro before _ after ⟨items, hreturns, rfl⟩
      exact (hnothing hwhole hreturns _).2.mpr hpage

end

end

end PayEra.Api.Pagination
