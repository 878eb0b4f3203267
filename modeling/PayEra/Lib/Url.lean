import Mathlib.Data.List.DropRight
import PayEra.Lib.Ascii

/-!
# URLs

How the parser of URLs finds the query of a text: it cleans the text, takes the scheme, and checks
the authority. What it makes of the parts is left out, and so are relative URLs and files.
-/

namespace Url

/-- Which texts are hosts: domains and addresses where the scheme is special, opaque hosts
elsewhere. Letters are both. -/
structure Hosts where
  accepts : Bool → List Char → Bool
  letters (special : Bool) (host : List Char) (hne : host ≠ []) (h : ∀ c ∈ host, c.isAlpha) :
    accepts special host = true

/-! ### Cleaning -/

/-- A control character, or a space. -/
def blank (c : Char) : Bool := c.toNat ≤ 32

/-- A tab or the end of a line. -/
def broken (c : Char) : Bool := c = '\t' || c = '\n' || c = '\r'

/-- What follows the beginning of a text, without what the parser skips. -/
def cleanEnd (s : List Char) : List Char := (s.rdropWhile blank).filter fun c => !broken c

def clean (s : List Char) : List Char := cleanEnd (s.dropWhile blank)

/-! ### The authority -/

/-- The schemes whose URLs always have a host, and whose backslashes are slashes. -/
def special (scheme : List Char) : Bool :=
  [['h', 't', 't', 'p'], ['h', 't', 't', 'p', 's'], ['w', 's'], ['w', 's', 's'], ['f', 't', 'p']].contains
    scheme

/-- The end of an authority. -/
def ends (isSpecial : Bool) (c : Char) : Bool :=
  c = '/' || c = '?' || c = '#' || isSpecial && c = '\\'

/-- A host and its port, split at the first colon that is not in an address in brackets. -/
def hostPort (inBrackets : Bool) : List Char → List Char × Option (List Char)
  | [] => ([], none)
  | c :: s =>
    if c = ':' && !inBrackets then ([], some s)
    else
      let p := hostPort (if c = '[' then true else if c = ']' then false else inBrackets) s
      (c :: p.1, p.2)

def validPort (port : List Char) : Bool :=
  port.all Char.isDigit && Nat.ofDigitChars 10 port 0 ≤ 65535

/-- The credentials end at the last `@`. A host may be empty, but not before a port or after
credentials, and not where the scheme is special. -/
def validAuthority (hosts : Hosts) (isSpecial : Bool) (authority : List Char) : Bool :=
  let p := hostPort false (authority.rtakeWhile (· ≠ '@'))
  match p.2 with
  | some port => p.1 ≠ [] && hosts.accepts isSpecial p.1 && validPort port
  | none =>
    if p.1 = [] then !isSpecial && !authority.contains '@' else hosts.accepts isSpecial p.1

/-! ### The query -/

/-- What stands between the first `?` and the `#`. -/
def queryOf (s : List Char) : List Char :=
  ((s.takeWhile (· ≠ '#')).dropWhile (· ≠ '?')).drop 1

/-- What follows the slashes, if it begins with an authority. -/
def afterSlashes (hosts : Hosts) (isSpecial : Bool) (s : List Char) : Option (List Char) :=
  if validAuthority hosts isSpecial (s.takeWhile fun c => !ends isSpecial c) then some (queryOf s)
  else none

def validScheme : List Char → Bool
  | [] => false
  | c :: s => c.isAlpha && s.all fun c => c.isAlphanum || c = '+' || c = '-' || c = '.'

/-- The query of a text that is an absolute URL. -/
def query (hosts : Hosts) (text : List Char) : Option (List Char) :=
  let s := clean text
  let scheme := (s.takeWhile (· ≠ ':')).map Char.toLower
  let rest := (s.dropWhile (· ≠ ':')).drop 1
  if validScheme scheme && s.contains ':' then
    if special scheme then afterSlashes hosts true (rest.dropWhile fun c => c = '/' || c = '\\')
    else if ['/', '/'].isPrefixOf rest then afterSlashes hosts false (rest.drop 2)
    else some (queryOf rest)
  else none

/-! ### The generic syntax -/

/-- The parts of a URI with an authority, as they are written. -/
structure Uri where
  scheme : List Char
  authority : List Char
  path : List Char
  query : Option (List Char)

/-- No part of a URI before the query. -/
def delimits (c : Char) : Bool := c = '?' || c = '#'

def Uri.split (s : List Char) : Option Uri :=
  let scheme := s.takeWhile fun c => !(c = ':' || ends false c)
  match s.dropWhile fun c => !(c = ':' || ends false c) with
  | ':' :: '/' :: '/' :: t =>
    let authority := t.takeWhile fun c => !ends false c
    let rest := t.dropWhile fun c => !ends false c
    let path := rest.takeWhile fun c => !delimits c
    match rest.dropWhile fun c => !delimits c with
    | '?' :: t => some ⟨scheme, authority, path, some (t.takeWhile (· ≠ '#'))⟩
    | _ => some ⟨scheme, authority, path, none⟩
  | _ => none

/-! ### Texts without blanks -/

variable {hosts : Hosts} {isSpecial : Bool} {a b s scheme host : List Char}

lemma blank_of_broken {c : Char} (h : broken c = true) : blank c = true := by
  simp only [broken, Bool.or_eq_true, decide_eq_true_eq] at h
  rcases h with (rfl | rfl) | rfl <;> decide

lemma not_broken {c : Char} (h : blank c = false) : broken c = false := by
  by_contra hbroken
  rw [Bool.not_eq_false] at hbroken
  rw [blank_of_broken hbroken] at h
  cases h

lemma dropWhile_blank (h : ∀ c ∈ a, blank c = false) : a.dropWhile blank = a := by
  cases a with
  | nil => rfl
  | cons c s => simp [h c (List.mem_cons_self ..)]

/-- What follows characters that are not blank is cleaned alone. -/
lemma cleanEnd_append (h : ∀ c ∈ a, blank c = false) : cleanEnd (a ++ b) = a ++ cleanEnd b := by
  have hkept : a.filter (fun c => !broken c) = a := by
    rw [List.filter_eq_self]
    intro c hc
    rw [not_broken (h c hc), Bool.not_false]
  have hlast : a.reverse.dropWhile blank = a.reverse :=
    dropWhile_blank fun c hc => h c (List.mem_reverse.mp hc)
  have hdrop : (a ++ b).rdropWhile blank = a ++ b.rdropWhile blank := by
    rw [List.rdropWhile, List.rdropWhile, List.reverse_append, List.dropWhile_append, hlast]
    split_ifs with hempty
    · rw [List.isEmpty_iff] at hempty
      rw [hempty, List.reverse_reverse, List.reverse_nil, List.append_nil]
    · rw [List.reverse_append, List.reverse_reverse]
  rw [cleanEnd, hdrop, List.filter_append, hkept]
  rfl

lemma cleanEnd_eq_self (h : ∀ c ∈ a, blank c = false) : cleanEnd a = a := by
  have hclean := cleanEnd_append (b := []) h
  rw [List.append_nil] at hclean
  rw [hclean, show cleanEnd [] = [] from rfl, List.append_nil]

/-! ### Texts with a scheme -/

/-- The parser of a text with a scheme cleans and looks at what follows. -/
lemma query_scheme (hvalid : validScheme (scheme.map Char.toLower))
    (hblank : ∀ c ∈ scheme, blank c = false) (hcolon : ':' ∉ scheme) :
    query hosts (scheme ++ ':' :: s) =
      if special (scheme.map Char.toLower) then
        afterSlashes hosts true ((cleanEnd s).dropWhile fun c => c = '/' || c = '\\')
      else if ['/', '/'].isPrefixOf (cleanEnd s) then afterSlashes hosts false ((cleanEnd s).drop 2)
      else some (queryOf (cleanEnd s)) := by
  have hhead : ∀ c ∈ scheme ++ [':'], blank c = false := by
    intro c hc
    rcases List.mem_append.mp hc with hc | hc
    · exact hblank c hc
    · rw [List.mem_singleton.mp hc]
      rfl
  have hclean : clean (scheme ++ ':' :: s) = scheme ++ ':' :: cleanEnd s := by
    have hcons (t : List Char) : scheme ++ ':' :: t = (scheme ++ [':']) ++ t := by simp
    have hstart : (scheme ++ ':' :: s).dropWhile blank = scheme ++ ':' :: s := by
      cases hscheme : scheme with
      | nil => rfl
      | cons c t => simp [hblank c (by simp [hscheme])]
    rw [clean, hstart, hcons, cleanEnd_append hhead, ← hcons]
  have hbefore : ∀ c ∈ scheme, decide (c ≠ ':') = true := fun c hc =>
    decide_eq_true (ne_of_mem_of_not_mem hc hcolon)
  have htake : (scheme ++ ':' :: cleanEnd s).takeWhile (· ≠ ':') = scheme := by
    rw [List.takeWhile_append_of_pos hbefore]
    simp
  have hdrop : ((scheme ++ ':' :: cleanEnd s).dropWhile (· ≠ ':')).drop 1 = cleanEnd s := by
    rw [List.dropWhile_append_of_pos hbefore]
    simp
  have hcontains : (scheme ++ ':' :: cleanEnd s).contains ':' = true := by simp
  simp only [query, hclean, htake, hdrop, hvalid, hcontains, Bool.and_self, if_true]

lemma query_http : query hosts (['h', 't', 't', 'p'] ++ ':' :: s) =
    afterSlashes hosts true ((cleanEnd s).dropWhile fun c => c = '/' || c = '\\') := by
  have hblank : ∀ c ∈ ['h', 't', 't', 'p'], blank c = false := by simp [blank]
  rw [query_scheme (by decide) hblank (by decide), if_pos (by decide)]

/-! ### Hosts of letters -/

lemma blank_letter {c : Char} (h : c.isAlpha) : blank c = false := by
  rw [Ascii.isAlpha_iff, Ascii.isUpper_iff, Ascii.isLower_iff] at h
  simp only [blank, decide_eq_false_iff_not]
  omega

lemma ne_of_letter {c d : Char} (h : c.isAlpha) (hd : d.isAlpha = false) : c ≠ d := by
  rintro rfl
  rw [h] at hd
  cases hd

lemma ends_letter {c : Char} (h : c.isAlpha) : ends isSpecial c = false := by
  have hne (d : Char) (hd : d.isAlpha = false) : c ≠ d := ne_of_letter h hd
  simp [ends, hne '/' (by decide), hne '?' (by decide), hne '#' (by decide),
    hne '\\' (by decide)]

lemma hostPort_letters (h : ∀ c ∈ host, c.isAlpha) : hostPort false host = (host, none) := by
  induction host with
  | nil => rfl
  | cons c s ih =>
    have hc : c.isAlpha := h c (List.mem_cons_self ..)
    have hne (d : Char) (hd : d.isAlpha = false) : c ≠ d := ne_of_letter hc hd
    have hrest := ih fun c hc => h c (List.mem_cons_of_mem _ hc)
    simp [hostPort, hne ':' (by decide), hne '[' (by decide), hne ']' (by decide), hrest]

lemma validAuthority_letters (hne : host ≠ []) (h : ∀ c ∈ host, c.isAlpha) :
    validAuthority hosts isSpecial host = true := by
  have hat : host.rtakeWhile (· ≠ '@') = host := by
    rw [List.rtakeWhile_eq_self_iff]
    intro c hc
    exact decide_eq_true (ne_of_letter (h c hc) (by decide))
  simp only [validAuthority, hat, hostPort_letters h, if_neg hne]
  exact hosts.letters isSpecial host hne h

/-- Letters before a text are a part of its authority. -/
lemma afterSlashes_letters (h : ∀ c ∈ host, c.isAlpha) :
    afterSlashes hosts isSpecial (host ++ s) =
      if validAuthority hosts isSpecial (host ++ s.takeWhile fun c => !ends isSpecial c) then
        some (queryOf s)
      else none := by
  have hauthority : ∀ c ∈ host, (!ends isSpecial c) = true := by
    intro c hc
    rw [ends_letter (h c hc), Bool.not_false]
  have hfragment : ∀ c ∈ host, decide (c ≠ '#') = true := fun c hc =>
    decide_eq_true (ne_of_letter (h c hc) (by decide))
  have hquery : ∀ c ∈ host, decide (c ≠ '?') = true := fun c hc =>
    decide_eq_true (ne_of_letter (h c hc) (by decide))
  have hquerying : queryOf (host ++ s) = queryOf s := by
    rw [queryOf, List.takeWhile_append_of_pos hfragment, List.dropWhile_append_of_pos hquery, queryOf]
  rw [afterSlashes, List.takeWhile_append_of_pos hauthority, hquerying]

/-! ### Splitting -/

lemma takeWhile_not {p : Char → Bool} {c : Char} (h : ∀ d ∈ a, p d = false) (hc : p c = true) :
    (a ++ c :: s).takeWhile (fun d => !p d) = a ∧ (a ++ c :: s).dropWhile (fun d => !p d) = c :: s := by
  have ha : ∀ d ∈ a, (!p d) = true := by
    intro d hd
    rw [h d hd, Bool.not_false]
  rw [List.takeWhile_append_of_pos ha, List.dropWhile_append_of_pos ha]
  simp [hc]

/-- A text that is put together of parts without the ends of them. -/
lemma Uri.split_append {authority path t : List Char}
    (hscheme : ∀ c ∈ scheme, (c = ':' || ends false c) = false)
    (hauthority : ∀ c ∈ authority, ends false c = false) (hpath : path = [] ∨ path = ['/']) :
    Uri.split (scheme ++ ':' :: '/' :: '/' :: (authority ++ (path ++ '?' :: t))) =
      some ⟨scheme, authority, path, some (t.takeWhile (· ≠ '#'))⟩ := by
  obtain ⟨htake, hdrop⟩ :=
    takeWhile_not (s := '/' :: '/' :: (authority ++ (path ++ '?' :: t))) (c := ':') hscheme rfl
  have hpaths : ∀ c ∈ path, delimits c = false := by
    rcases hpath with rfl | rfl <;> simp [delimits]
  obtain ⟨htakes, hdrops⟩ := takeWhile_not (s := t) (c := '?') hpaths rfl
  have hauth : (authority ++ (path ++ '?' :: t)).takeWhile (fun c => !ends false c) = authority ∧
      (authority ++ (path ++ '?' :: t)).dropWhile (fun c => !ends false c) = path ++ '?' :: t := by
    rcases hpath with rfl | rfl
    · exact takeWhile_not hauthority rfl
    · exact takeWhile_not hauthority rfl
  simp only [Uri.split]
  rw [htake, hdrop]
  simp only [hauth.1, hauth.2, htakes, hdrops]

/-- The text is put together of the parts. -/
lemma Uri.eq_append {u : Uri} (h : Uri.split s = some u) {query : List Char}
    (hquery : u.query = some query) : ∃ t, query = t.takeWhile (· ≠ '#') ∧
      s = u.scheme ++ ':' :: '/' :: '/' :: (u.authority ++ (u.path ++ '?' :: t)) := by
  simp only [Uri.split] at h
  split at h
  · rename_i t ht
    have hs := List.takeWhile_append_dropWhile (p := fun c => !(c = ':' || ends false c)) (l := s)
    have hauth := List.takeWhile_append_dropWhile (p := fun c => !ends false c) (l := t)
    have hpath := List.takeWhile_append_dropWhile (p := fun c => !delimits c)
      (l := t.dropWhile fun c => !ends false c)
    split at h
    · rename_i t' ht'
      obtain rfl := Option.some.inj h
      refine ⟨t', (Option.some.inj hquery).symm, ?_⟩
      rw [ht'] at hpath
      rw [hpath, hauth, ← ht, hs]
    · obtain rfl := Option.some.inj h
      cases hquery
  · cases h

lemma queryOf_cons (h : '#' ∉ s) : queryOf ('?' :: s) = s := by
  have hkept : ∀ c ∈ s, decide (c ≠ '#') = true := fun c hc =>
    decide_eq_true (ne_of_mem_of_not_mem hc h)
  have htake : s.takeWhile (· ≠ '#') = s := List.takeWhile_eq_self_iff.mpr hkept
  simp only [queryOf, List.takeWhile_cons]
  simpa using htake

end Url
