import Mathlib.Data.List.Basic
import Mathlib.Data.List.Perm.Basic
import Mathlib.Order.Lattice
import Mathlib.Tactic.Linarith

/-!
# Pages of a sorted list

Rows are sorted by a key that need not tell them apart, so different pages may be cut out of different
orders. Following the pages gives every row once, whatever the orders, if and only if all rows of one
key are on one page.
-/

namespace Paging

variable {α κ : Type} [LinearOrder κ] {key : α → κ} {l rows before items after : List α} {a b : α}
  {size page i n : ℕ}

/-- The greatest key comes first. -/
def Descending (key : α → κ) (l : List α) : Prop := l.Pairwise fun a b => key b ≤ key a

/-- The rows in one of their orders, cut in three. -/
structure Cut (key : α → κ) (rows before items after : List α) : Prop where
  perm : (before ++ items ++ after).Perm rows
  descending : Descending key (before ++ items ++ after)

/-- A page of the size, with so many pages before it. -/
structure Page (key : α → κ) (rows : List α) (size page : ℕ) (before items after : List α) : Prop
    extends Cut key rows before items after where
  skipped : before.length = min (page * size) rows.length
  taken : items.length = min size (rows.length - page * size)

/-- Following numbered answers while there are more. -/
inductive Walk (answers : ℕ → List α → Bool → Prop) : ℕ → List α → Prop
  | last {n : ℕ} {items : List α} (h : answers n items false) : Walk answers n items
  | next {n : ℕ} {items rest : List α} (h : answers n items true) (hrest : Walk answers (n + 1) rest) :
      Walk answers n (items ++ rest)

lemma Walk.first {answers : ℕ → List α → Bool → Prop} (h : Walk answers n items) :
    ∃ first rest more, items = first ++ rest ∧ answers n first more := by
  cases h with
  | last h => exact ⟨items, [], false, (List.append_nil items).symm, h⟩
  | @next _ first rest h _ => exact ⟨first, rest, true, rfl, h⟩

/-- A walk over empty answers. -/
lemma Walk.eq_nil {answers : ℕ → List α → Bool → Prop}
    (hnil : ∀ n items more, answers n items more → items = []) (h : Walk answers n items) :
    items = [] := by
  induction h with
  | last h => exact hnil _ _ _ h
  | next h _ ih => rw [hnil _ _ _ h, ih, List.append_nil]

/-- Where no answer is the last one of many, the later ones are not asked for. -/
lemma Walk.of_same {answers answers' : ℕ → List α → Bool → Prop} (last : ℕ)
    (hsame : ∀ n ≤ last, ∀ items more, answers n items more → answers' n items more)
    (hlast : ∀ items, ¬answers last items true) (h : Walk answers n items) (hn : n ≤ last) :
    Walk answers' n items := by
  induction h with
  | last h => exact .last (hsame _ hn _ _ h)
  | @next n items rest h _ ih =>
    have hne : n ≠ last := by
      rintro rfl
      exact hlast _ h
    exact .next (hsame n hn _ _ h) (ih (Nat.lt_of_le_of_ne hn hne))

/-- The walk ends, and however it ends it has given every row once. -/
structure Complete (rows : List α) (walk : List α → Prop) : Prop where
  ends : ∃ items, walk items
  once : ∀ items, walk items → items.Perm rows

/-- A page, and whether rows are left after it. -/
def answers (key : α → κ) (rows : List α) (size page : ℕ) (items : List α) (more : Bool) : Prop :=
  (∃ before after, Page key rows size page before items after) ∧
    (more = true ↔ (page + 1) * size < rows.length)

/-! ### Positions -/

section

variable (key rows)

/-- The number of rows with a greater key. -/
def above (a : α) : ℕ := rows.countP fun b => key a < key b

/-- The number of rows with a key that is not smaller. -/
def upTo (a : α) : ℕ := rows.countP fun b => key a ≤ key b

/-- All rows of one key are on one page. -/
def Together (size : ℕ) : Prop := ∀ a ∈ rows, above key rows a / size = (upTo key rows a - 1) / size

end

/-- In a sorted list what holds of the greater keys holds of a first part. -/
lemma lt_countP_iff {P : α → Bool} (hP : ∀ a b, key a ≤ key b → P a = true → P b = true)
    (hl : Descending key l) (h : l[i]? = some a) : P a = true ↔ i < l.countP P := by
  induction l generalizing i with
  | nil => cases h
  | cons b l ih =>
    obtain ⟨hfirst, hl⟩ := List.pairwise_cons.mp hl
    by_cases hb : P b = true
    · rw [List.countP_cons_of_pos hb]
      cases i with
      | zero =>
        obtain rfl := Option.some.inj h
        exact iff_of_true hb (Nat.succ_pos _)
      | succ i => exact (ih hl h).trans Nat.succ_lt_succ_iff.symm
    · have hnone : ∀ c ∈ b :: l, ¬P c = true := by
        rintro c hc hPc
        rcases List.mem_cons.mp hc with rfl | hc
        · exact hb hPc
        · exact hb (hP c b (hfirst c hc) hPc)
      have hzero : (b :: l).countP P = 0 := List.countP_eq_zero.mpr hnone
      rw [hzero]
      exact iff_of_false (hnone a (List.mem_of_getElem? h)) (Nat.not_lt_zero i)

/-- Where a row can be. -/
lemma position (hl : Descending key l) (h : l[i]? = some a) :
    above key l a ≤ i ∧ i < upTo key l a := by
  constructor
  · have hlt := lt_countP_iff (P := fun b => key a < key b)
      (fun b c hle hb => decide_eq_true ((of_decide_eq_true hb).trans_le hle)) hl h
    refine not_lt.mp fun hi => ?_
    exact lt_irrefl _ (of_decide_eq_true (hlt.mpr hi))
  · have hle := lt_countP_iff (P := fun b => key a ≤ key b)
      (fun b c hle hb => decide_eq_true ((of_decide_eq_true hb).trans hle)) hl h
    exact hle.mp (decide_eq_true le_rfl)

/-- Between the two there are rows of the same key. -/
lemma key_eq (hl : Descending key l) (h : l[i]? = some b) (habove : above key l a ≤ i)
    (hupTo : i < upTo key l a) : key b = key a := by
  have hlt := lt_countP_iff (P := fun b => key a < key b)
    (fun b c hle hb => decide_eq_true ((of_decide_eq_true hb).trans_le hle)) hl h
  have hle := lt_countP_iff (P := fun b => key a ≤ key b)
    (fun b c hle hb => decide_eq_true ((of_decide_eq_true hb).trans hle)) hl h
  refine le_antisymm (not_lt.mp fun hgt => ?_) (of_decide_eq_true (hle.mpr hupTo))
  exact habove.not_gt (hlt.mp (decide_eq_true hgt))

lemma above_perm (h : l.Perm rows) (a : α) : above key l a = above key rows a := h.countP_eq _

lemma upTo_perm (h : l.Perm rows) (a : α) : upTo key l a = upTo key rows a := h.countP_eq _

lemma above_lt (ha : a ∈ rows) : above key rows a < rows.length := by
  refine lt_of_le_of_ne List.countP_le_length fun heq => ?_
  exact lt_irrefl _ (of_decide_eq_true (List.countP_eq_length.mp heq a ha))

lemma upTo_le : upTo key rows a ≤ rows.length := List.countP_le_length

/-- If the rows of one key are on one page, this is the page of the position. -/
lemma Together.div_eq (h : Together key rows size) (hperm : l.Perm rows) (hl : Descending key l)
    (ha : l[i]? = some a) : i / size = above key rows a / size := by
  obtain ⟨habove, hupTo⟩ := position hl ha
  rw [above_perm hperm] at habove
  rw [upTo_perm hperm] at hupTo
  refine le_antisymm ?_ (Nat.div_le_div_right habove)
  rw [h a (hperm.mem_iff.mp (List.mem_of_getElem? ha))]
  exact Nat.div_le_div_right (Nat.le_sub_one_of_lt hupTo)

/-- An element of a part of a list has a position in this part. -/
lemma exists_position (before after : List α) (ha : a ∈ items) :
    ∃ i, before.length ≤ i ∧ i < before.length + items.length ∧
      (before ++ items ++ after)[i]? = some a := by
  obtain ⟨i, hi⟩ := List.mem_iff_getElem?.mp ha
  have hlt : i < items.length := (List.getElem?_eq_some_iff.mp hi).1
  refine ⟨before.length + i, Nat.le_add_right _ _, Nat.add_lt_add_left hlt _, ?_⟩
  rw [List.append_assoc, List.getElem?_append_right (Nat.le_add_right _ _), Nat.add_sub_cancel_left,
    List.getElem?_append_left hlt, hi]

/-! ### Enough -/

/-- What is on a page. -/
lemma Page.perm_filter (hsize : 0 < size) (h : Page key rows size page before items after)
    (htogether : Together key rows size) :
    items.Perm (rows.filter fun a => above key rows a / size = page) := by
  have hlen := h.perm.length_eq
  have hskipped := h.skipped
  have htaken := h.taken
  have hnext : (page + 1) * size = page * size + size := Nat.succ_mul page size
  simp only [List.length_append] at hlen
  have hdiv {i : ℕ} {a : α} (ha : (before ++ items ++ after)[i]? = some a) :
      above key rows a / size = i / size := (htogether.div_eq h.perm h.descending ha).symm
  have hbefore : ∀ a ∈ before, ¬decide (above key rows a / size = page) = true := by
    intro a ha hpage
    obtain ⟨i, -, hi, hget⟩ := exists_position [] (items ++ after) ha
    rw [List.nil_append, ← List.append_assoc] at hget
    rw [List.length_nil] at hi
    have hlt : i < size * page := by
      rw [Nat.mul_comm]
      omega
    exact (Nat.div_lt_of_lt_mul hlt).ne ((hdiv hget).symm.trans (of_decide_eq_true hpage))
  have hitems : ∀ a ∈ items, decide (above key rows a / size = page) = true := by
    intro a ha
    obtain ⟨i, hge, hi, hget⟩ := exists_position before after ha
    rw [hdiv hget]
    refine decide_eq_true (Nat.div_eq_of_lt_le ?_ ?_)
    · omega
    · omega
  have hafter : ∀ a ∈ after, ¬decide (above key rows a / size = page) = true := by
    intro a ha hpage
    obtain ⟨i, hge, hi, hget⟩ := exists_position (before ++ items) [] ha
    rw [List.append_nil] at hget
    rw [List.length_append] at hge hi
    have hle : (page + 1) * size ≤ i := by omega
    have hgt := (Nat.le_div_iff_mul_le hsize).mpr hle
    rw [← hdiv hget, of_decide_eq_true hpage] at hgt
    omega
  have hfilter := h.perm.filter fun a => above key rows a / size = page
  rwa [List.filter_append, List.filter_append, List.filter_eq_nil_iff.mpr hbefore,
    List.filter_eq_self.mpr hitems, List.filter_eq_nil_iff.mpr hafter, List.nil_append,
    List.append_nil] at hfilter

/-- What the walk gives from a page on. -/
lemma Walk.perm_filter (hsize : 0 < size) (htogether : Together key rows size)
    (h : Walk (answers key rows size) n items) :
    items.Perm (rows.filter fun a => n ≤ above key rows a / size) := by
  induction h with
  | @last n items h =>
    obtain ⟨⟨before, after, hpage⟩, hmore⟩ := h
    have hlast : rows.length ≤ (n + 1) * size := by simpa using hmore
    refine (hpage.perm_filter hsize htogether).trans (List.Perm.of_eq ?_)
    apply List.filter_congr
    intro a ha
    have hlt : above key rows a / size < n + 1 := by
      apply Nat.div_lt_of_lt_mul
      rw [Nat.mul_comm]
      exact (above_lt ha).trans_le hlast
    exact decide_eq_decide.mpr ⟨fun h => h.ge, fun h => by omega⟩
  | @next n items rest h _ ih =>
    obtain ⟨⟨before, after, hpage⟩, -⟩ := h
    have hsplit := List.filter_append_perm (fun a => above key rows a / size = n)
      (rows.filter fun a => n ≤ above key rows a / size)
    rw [List.filter_filter, List.filter_filter] at hsplit
    refine List.Perm.trans ?_ hsplit
    refine ((hpage.perm_filter hsize htogether).append ih).trans (List.Perm.of_eq ?_)
    congr 1
    · apply List.filter_congr
      intro a _
      rw [← Bool.decide_and]
      exact decide_eq_decide.mpr ⟨fun h => ⟨h, h.ge⟩, And.left⟩
    · apply List.filter_congr
      intro a _
      rw [← decide_not, ← Bool.decide_and]
      exact decide_eq_decide.mpr ⟨fun h => ⟨by omega, by omega⟩, fun h => by omega⟩

/-! ### Orders of the database -/

lemma exists_order (key : α → κ) (rows : List α) : ∃ l : List α, l.Perm rows ∧ Descending key l := by
  refine ⟨rows.mergeSort fun a b => decide (key b ≤ key a), List.mergeSort_perm _ _, ?_⟩
  have hsorted : (rows.mergeSort fun a b => decide (key b ≤ key a)).Pairwise
      fun a b => decide (key b ≤ key a) = true := List.pairwise_mergeSort
    (fun a b c hab hbc => decide_eq_true ((of_decide_eq_true hbc).trans (of_decide_eq_true hab)))
    (fun a b => by simpa using le_total (key b) (key a)) rows
  exact hsorted.imp of_decide_eq_true

/-- The page of one order. -/
lemma page_of_order (hperm : l.Perm rows) (hl : Descending key l) (size page : ℕ) :
    Page key rows size page (l.take (page * size)) ((l.drop (page * size)).take size)
      (l.drop (page * size + size)) := by
  have hparts : l.take (page * size) ++ (l.drop (page * size)).take size ++
      l.drop (page * size + size) = l := by
    rw [List.append_assoc, ← List.drop_drop, List.take_append_drop, List.take_append_drop]
  refine ⟨⟨by rwa [hparts], by rwa [hparts]⟩, ?_, ?_⟩
  · rw [List.length_take, hperm.length_eq]
  · rw [List.length_take, List.length_drop, hperm.length_eq]

/-- The pages of one order from a page on. -/
lemma walk_of_order (hsize : 0 < size) (hperm : l.Perm rows) (hl : Descending key l) (page : ℕ) :
    Walk (answers key rows size) page (l.drop (page * size)) := by
  by_cases hmore : (page + 1) * size < rows.length
  · have hparts : (l.drop (page * size)).take size ++ l.drop ((page + 1) * size) =
        l.drop (page * size) := by
      rw [Nat.succ_mul, ← List.drop_drop, List.take_append_drop]
    rw [← hparts]
    refine .next ⟨⟨_, _, page_of_order hperm hl size page⟩, iff_of_true rfl hmore⟩ ?_
    exact walk_of_order hsize hperm hl (page + 1)
  · have hall : (l.drop (page * size)).take size = l.drop (page * size) := by
      apply List.take_of_length_le
      rw [List.length_drop, hperm.length_eq]
      rw [Nat.succ_mul] at hmore
      omega
    rw [← hall]
    exact .last ⟨⟨_, _, page_of_order hperm hl size page⟩, iff_of_false Bool.false_ne_true hmore⟩
termination_by rows.length - page * size
decreasing_by
  rw [Nat.succ_mul] at *
  omega

/-- The pages of one order up to a page, and then those of another. -/
lemma walk_of_orders (hperm : l.Perm rows) (hl : Descending key l) (hpage : page * size < rows.length)
    (hrest : Walk (answers key rows size) page after) :
    Walk (answers key rows size) 0 (l.take (page * size) ++ after) := by
  induction page generalizing after with
  | zero => rwa [Nat.zero_mul, List.take_zero, List.nil_append]
  | succ page ih =>
    have hparts : l.take ((page + 1) * size) =
        l.take (page * size) ++ (l.drop (page * size)).take size := by
      rw [Nat.succ_mul, List.take_add]
    rw [hparts, List.append_assoc]
    apply ih
    · rw [Nat.succ_mul] at hpage
      omega
    · exact .next ⟨⟨_, _, page_of_order hperm hl size page⟩, iff_of_true rfl hpage⟩ hrest

/-- Two neighbours of one key change places. -/
lemma descending_swap {l₁ l₂ : List α} (h : Descending key (l₁ ++ a :: b :: l₂)) (heq : key a = key b) :
    Descending key (l₁ ++ b :: a :: l₂) := by
  have hmap (l : List α) : Descending key l ↔ (l.map key).Pairwise fun x y => y ≤ x := by
    rw [List.pairwise_map, Descending]
  rw [hmap] at h ⊢
  rwa [List.map_append, List.map_cons, List.map_cons, heq] at h ⊢

/-! ### Both -/

/-- Rows of one key on two pages can be given twice. -/
lemma together_of_complete (hsize : 0 < size) (hnodup : rows.Nodup)
    (h : ∀ items, Walk (answers key rows size) 0 items → items.Perm rows) :
    Together key rows size := by
  obtain ⟨l, hperm, hl⟩ := exists_order key rows
  intro a ha
  obtain ⟨i, hi⟩ := List.mem_iff_getElem?.mp (hperm.mem_iff.mpr ha)
  obtain ⟨habove, hupTo⟩ := position hl hi
  by_contra hne
  -- a page starts between two rows of the key
  have hlt : above key l a / size < (upTo key l a - 1) / size := by
    refine lt_of_le_of_ne (Nat.div_le_div_right (by omega)) ?_
    rwa [above_perm hperm, upTo_perm hperm]
  obtain ⟨j, hj⟩ : ∃ j, j = above key l a / size + 1 := ⟨_, rfl⟩
  have hstart : above key l a < j * size := by
    rw [hj]
    exact Nat.lt_mul_of_div_lt (Nat.lt_succ_self _) hsize
  have hend : j * size < upTo key l a := by
    have hle := (Nat.le_div_iff_mul_le hsize).mp (Nat.succ_le_of_lt hlt)
    rw [← Nat.succ_eq_add_one] at hj
    rw [← hj] at hle
    omega
  have hlen : j * size < l.length := hend.trans_le upTo_le
  obtain ⟨m, hm⟩ : ∃ m, j * size = m + 1 := Nat.exists_eq_add_one.mpr (by omega)
  rw [hm] at hstart hend hlen
  -- the last row before it and the first row after it change places
  have hx := List.getElem?_eq_getElem (Nat.lt_of_succ_lt hlen)
  have hy := List.getElem?_eq_getElem hlen
  have hparts : l.take m ++ l[m] :: l[m + 1] :: l.drop (m + 2) = l := by
    rw [← List.drop_eq_getElem_cons, ← List.drop_eq_getElem_cons, List.take_append_drop]
  have hkeyx : key l[m] = key a := key_eq hl hx (by omega) (by omega)
  have hkeyy : key l[m + 1] = key a := key_eq hl hy (by omega) hend
  have hswap : (l.take m ++ l[m + 1] :: l[m] :: l.drop (m + 2)).Perm rows := by
    refine List.Perm.trans ?_ hperm
    conv_rhs => rw [← hparts]
    exact List.Perm.append_left _ (List.Perm.swap _ _ _)
  have hother := descending_swap (by rwa [hparts]) (hkeyx.trans hkeyy.symm)
  have hrest := walk_of_order hsize hswap hother j
  have hgiven := h _ (walk_of_orders hperm hl (by rw [hm, ← hperm.length_eq]; exact hlen) hrest)
  -- so the first of them is given twice
  have hdrop : (l.take m ++ l[m + 1] :: l[m] :: l.drop (m + 2)).drop (m + 1) =
      l[m] :: l.drop (m + 2) := by
    rw [← List.singleton_append, ← List.append_assoc]
    apply List.drop_left'
    rw [List.length_append, List.length_take, List.length_singleton]
    omega
  have htake : l[m] ∈ l.take (m + 1) := by
    rw [List.take_succ_eq_append_getElem (Nat.lt_of_succ_lt hlen)]
    exact List.mem_append_right _ (List.mem_singleton_self _)
  rw [hm, hdrop] at hgiven
  have hdistinct := (List.nodup_append.mp (hgiven.nodup_iff.mpr hnodup)).2.2
  exact hdistinct _ htake _ (List.mem_cons_self ..) rfl

/-- **The exact condition.** -/
theorem complete_iff (hsize : 0 < size) (hnodup : rows.Nodup) :
    Complete rows (Walk (answers key rows size) 0) ↔ Together key rows size := by
  constructor
  · intro h
    exact together_of_complete hsize hnodup h.once
  · intro h
    obtain ⟨l, hperm, hl⟩ := exists_order key rows
    refine ⟨⟨_, walk_of_order hsize hperm hl 0⟩, fun items hwalk => ?_⟩
    have hfilter := hwalk.perm_filter hsize h
    rwa [List.filter_eq_self.mpr fun a _ => decide_eq_true (Nat.zero_le _)] at hfilter

end Paging
