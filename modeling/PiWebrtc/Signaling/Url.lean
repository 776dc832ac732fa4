import Mathlib.Data.List.Infix
import Mathlib.Data.List.TakeWhile
import PiWebrtc.Lib.Decimal

namespace PiWebrtc.Signaling

open Decimal

/-!
# Splitting urls

`ParseHttpUrl` and `ParseWsUrl` split an url into the host, the port and the target of a
request.  Both read the port with `std::stoi`, which skips blanks, takes a sign, stops at the
first character that is no digit and throws when there is no number or when it is too large;
the result is narrowed to 16 bits.  Only the second one catches what is thrown, and only for the
second one a query ends the authority.

* `stoi_ok_iff` — which texts `std::stoi` reads;
* `recomposes_iff` — what an url is made of, if it begins with a scheme;
* `parseUrl_iff` — for which urls the result is right.
-/

/-! ### The source -/

/-- What `std::stoi` throws. -/
inductive StoiError
  | invalidArgument
  | outOfRange
  deriving DecidableEq

/-- `std::isspace` of the C locale. -/
def isSpace (c : Char) : Bool := c ∈ [' ', '\t', '\n', '\x0b', '\x0c', '\r']

/-- `std::stoi`. -/
def stoi (s : List Char) : Except StoiError ℤ :=
  let s := s.dropWhile isSpace
  let negative := s.head? = some '-'
  let s := if negative ∨ s.head? = some '+' then s.tail else s
  let digits := s.takeWhile Char.isDigit
  if digits = [] then .error .invalidArgument
  else
    let n : ℤ := if negative then -value digits else value digits
    if -2 ^ 31 ≤ n ∧ n < 2 ^ 31 then .ok n else .error .outOfRange

/-- `HttpUrl` and `WsUrl`, which are alike. -/
structure Url where
  useTls : Bool := false
  host : List Char := []
  port : ℕ := 0
  target : List Char := ['/']
  deriving DecidableEq

/-- What stands between the scheme and the authority. -/
def schemeEnd : List Char := [':', '/', '/']

/-- The scheme, and what follows it: `url.find("://")`. -/
def splitScheme : List Char → Option (List Char × List Char)
  | [] => none
  | c :: s =>
    if schemeEnd.isPrefixOf (c :: s) then some ([], s.drop 2)
    else (splitScheme s).map fun r => (c :: r.1, r.2)

/-- The schemes of `ParseHttpUrl`: whether TLS is used, and the port if none is given. -/
def httpScheme (scheme : List Char) : Option (Bool × ℕ) :=
  let scheme := scheme.map Char.toLower
  if scheme = ['h', 't', 't', 'p'] then some (false, 80)
  else if scheme = ['h', 't', 't', 'p', 's'] then some (true, 443)
  else none

/-- The schemes of `ParseWsUrl`. -/
def wsScheme (scheme : List Char) : Option (Bool × ℕ) :=
  let scheme := scheme.map Char.toLower
  if scheme = ['w', 's'] then some (false, 80)
  else if scheme = ['w', 's', 's'] then some (true, 443)
  else none

/-- The host of an authority, and what follows it; `none` if a bracket is not closed. -/
def splitHost (authority : List Char) : Option (List Char × List Char) :=
  if authority.head? = some '[' then
    if ']' ∈ authority then
      some (authority.tail.takeWhile (· ≠ ']'), (authority.dropWhile (· ≠ ']')).tail)
    else none
  else some (authority.takeWhile (· ≠ ':'), authority.dropWhile (· ≠ ':'))

/-- The port, if a colon follows the host.  `none` is `return false`, for an empty host. -/
def readPort (out : Url) : List Char → Except StoiError (Option Url)
  | ':' :: port => do
    let n ← stoi port
    return if out.host ≠ [] then some { out with port := (n % 2 ^ 16).toNat } else none
  | _ => return if out.host ≠ [] then some out else none

/-- The end of both functions: the host and the port of an authority. -/
def readAuthority (authority : List Char) (out : Url) : Except StoiError (Option Url) :=
  match splitHost authority with
  | none => return none
  | some (host, tail) => readPort { out with host } tail

/-- `ParseHttpUrl`; `none` is `return false`. -/
def parseHttpUrl (url : List Char) : Except StoiError (Option Url) :=
  match splitScheme url with
  | none => return none
  | some (scheme, rest) =>
    match httpScheme scheme with
    | none => return none
    | some (useTls, port) =>
      let path := rest.dropWhile (· ≠ '/')
      readAuthority (rest.takeWhile (· ≠ '/'))
        { useTls, port, target := if path = [] then ['/'] else path }

/-- The end of an authority for `ParseWsUrl`. -/
def endsAuthority (c : Char) : Bool := c = '/' || c = '?'

/-- `ParseWsUrl`. -/
def parseWsUrl (url : List Char) : Except StoiError (Option Url) :=
  match splitScheme url with
  | none => return none
  | some (scheme, rest) =>
    match wsScheme scheme with
    | none => return none
    | some (useTls, port) =>
      let path := rest.dropWhile fun c => !endsAuthority c
      let target := if path = [] then ['/'] else path
      tryCatch
        (readAuthority (rest.takeWhile fun c => !endsAuthority c)
          { useTls, port, target := if target.head? = some '?' then '/' :: target else target })
        fun _ => return none

/-! ### What is asked for -/

/-- A port number as it is written. -/
def IsPort (text : List Char) : Prop := Digits text ∧ 1 ≤ value text ∧ value text ≤ 65535

/-- What follows a host: nothing, or a colon and the port. -/
def PortWritten (default port : ℕ) (text : List Char) : Prop :=
  text = [] ∧ port = default ∨ ∃ digits, text = ':' :: digits ∧ IsPort digits ∧ port = value digits

/-- The authority goes up to the first `/` or `?`. -/
def authorityOf (rest : List Char) : List Char := rest.takeWhile fun c => !endsAuthority c

/-- The path, with the query. -/
def pathOf (rest : List Char) : List Char := rest.dropWhile fun c => !endsAuthority c

/-- How a host is written: as it is, or as an IPv6 literal in brackets. -/
def HostWritten (host text : List Char) : Prop :=
  text = host ∧ host.head? ≠ some '[' ∧ ':' ∉ host ∨ text = '[' :: (host ++ [']']) ∧ ']' ∉ host

/-- The target of a request for a path. -/
def targetOf (path : List Char) : List Char := if path.head? = some '/' then path else '/' :: path

/-- The parts of an url. -/
structure Parts where
  scheme : List Char
  host : List Char
  port : List Char
  path : List Char

/-- The url. -/
def Parts.all (p : Parts) : List Char := p.scheme ++ (schemeEnd ++ (p.host ++ p.port ++ p.path))

/-- An url is what the scheme, the host, the port and the target are read from.  The authority
    goes up to the first `/` or `?`, and the rest is the target. -/
structure Recomposes (schemes : List Char → Option (Bool × ℕ)) (p : Parts) (u : Url) : Prop where
  scheme_written : ∃ default, schemes p.scheme = some (u.useTls, default) ∧
    PortWritten default u.port p.port
  host_written : HostWritten u.host p.host
  authority_ok : ∀ c ∈ p.host ++ p.port, endsAuthority c = false
  path_ok : ∀ c ∈ p.path.head?, endsAuthority c = true
  target_eq : u.target = targetOf p.path

/-- **The function is total and exact** on an url. -/
def Exact (schemes : List Char → Option (Bool × ℕ))
    (parse : List Char → Except StoiError (Option Url)) (url : List Char) : Prop :=
  ∃ result, parse url = .ok result ∧
    ∀ u ∈ result, ∃ p : Parts, p.all = url ∧ Recomposes schemes p u

/-- Two urls that differ in nothing but the name of the scheme, the first one of which is for
    `ParseHttpUrl` what the other one is for `ParseWsUrl`. -/
inductive UpToScheme : List Char → List Char → Prop
  | noScheme {url : List Char} (h : ¬ schemeEnd <:+: url) : UpToScheme url url
  | scheme {s s' : List Char} (hs : ¬ schemeEnd <:+: s) (hs' : ¬ schemeEnd <:+: s')
      (h : httpScheme s = wsScheme s') (rest : List Char) :
      UpToScheme (s ++ (schemeEnd ++ rest)) (s' ++ (schemeEnd ++ rest))

/-- A query follows the authority with no path between. -/
def QueryAfterAuthority (url : List Char) : Prop :=
  ∃ scheme authority query, ¬ schemeEnd <:+: scheme ∧
    (∀ c ∈ authority, endsAuthority c = false) ∧
    url = scheme ++ (schemeEnd ++ (authority ++ '?' :: query))

/-! ### When it is so -/

/-- What `std::stoi` reads: blanks, a sign and the digits of an `int`, whatever follows. -/
def Readable (text : List Char) : Prop :=
  ∃ blanks sign digits rest, text = blanks ++ (sign ++ (digits ++ rest)) ∧
    (∀ c ∈ blanks, isSpace c = true) ∧ (sign = [] ∨ sign = ['+'] ∨ sign = ['-']) ∧
    Digits digits ∧ digits ≠ [] ∧ (∀ c ∈ rest.head?, c.isDigit = false) ∧
    value digits < 2 ^ 31 + if sign = ['-'] then 1 else 0

/-- Nothing follows a host but a port. -/
def PlainTail (tail : List Char) : Prop := tail = [] ∨ ∃ port, tail = ':' :: port ∧ IsPort port

/-- The authority and the rest of an url with one of the schemes. -/
def HasRest (schemes : List Char → Option (Bool × ℕ)) (url rest : List Char) : Prop :=
  ∃ scheme, splitScheme url = some (scheme, rest) ∧ (schemes scheme).isSome

/-- `std::stoi` can read what follows the colon. -/
def HttpReadable (url : List Char) : Prop :=
  ∀ rest, HasRest httpScheme url rest → ∀ host port,
    splitHost (rest.takeWhile (· ≠ '/')) = some (host, ':' :: port) → Readable port

/-- Unless the host is empty, nothing but a port follows it, and there is no query before the
    path. -/
def HttpWritten (url : List Char) : Prop :=
  ∀ rest, HasRest httpScheme url rest → ∀ host tail,
    splitHost (rest.takeWhile (· ≠ '/')) = some (host, tail) → host ≠ [] →
      PlainTail tail ∧ '?' ∉ rest.takeWhile (· ≠ '/')

/-- Unless the host is empty, nothing but a port follows it, or else a colon and something
    that `std::stoi` cannot read. -/
def WsWritten (url : List Char) : Prop :=
  ∀ rest, HasRest wsScheme url rest → ∀ host tail,
    splitHost (authorityOf rest) = some (host, tail) → host ≠ [] →
      PlainTail tail ∨ ∃ port, tail = ':' :: port ∧ ¬ Readable port

/-! ### `std::stoi` -/

theorem takeWhile_append_head {p : Char → Bool} {x y : List Char} (hx : ∀ c ∈ x, p c = true)
    (hy : ∀ c ∈ y.head?, p c = false) : (x ++ y).takeWhile p = x := by
  rw [List.takeWhile_append_of_pos hx]
  cases y with
  | nil => rw [List.takeWhile_nil, List.append_nil]
  | cons c y => rw [List.takeWhile_cons_of_neg (by rw [hy c rfl]; decide), List.append_nil]

theorem dropWhile_append_head {p : Char → Bool} {x y : List Char} (hx : ∀ c ∈ x, p c = true)
    (hy : ∀ c ∈ y.head?, p c = false) : (x ++ y).dropWhile p = y := by
  rw [List.dropWhile_append_of_pos hx]
  cases y with
  | nil => rfl
  | cons c y => rw [List.dropWhile_cons_of_neg (by rw [hy c rfl]; decide)]

theorem head?_dropWhile {p : Char → Bool} {s : List Char} :
    ∀ c ∈ (s.dropWhile p).head?, p c = false := by
  intro c hc
  have hhead := List.head?_dropWhile_not p s
  rw [show (s.dropWhile p).head? = some c from hc] at hhead
  exact hhead

/-- A digit is neither a blank nor a sign. -/
theorem not_space_of_digit {c : Char} (h : c.isDigit = true) :
    isSpace c = false ∧ c ≠ '-' ∧ c ≠ '+' := by
  refine ⟨?_, by rintro rfl; exact absurd h (by decide), by rintro rfl; exact absurd h (by decide)⟩
  have hc := digit_bounds h
  rw [isSpace, decide_eq_false_iff_not, List.mem_cons, List.mem_cons, List.mem_cons, List.mem_cons,
    List.mem_cons, List.mem_singleton]
  rintro (rfl | rfl | rfl | rfl | rfl | rfl) <;> exact absurd h (by decide)

section Stoi

variable {blanks sign digits rest : List Char}

/-- What stands behind the blanks does not begin with one. -/
theorem head_not_space (hsign : sign = [] ∨ sign = ['+'] ∨ sign = ['-']) (hd : Digits digits)
    (hne : digits ≠ []) : ∀ c ∈ (sign ++ (digits ++ rest)).head?, isSpace c = false := by
  obtain ⟨d, ds, rfl⟩ := List.exists_cons_of_ne_nil hne
  rintro c hc
  rcases hsign with rfl | rfl | rfl
  all_goals obtain rfl := Option.some.inj hc
  · exact (not_space_of_digit (hd d List.mem_cons_self)).1
  · rfl
  · rfl

/-- **What `std::stoi` does with a number.** -/
theorem stoi_number (hb : ∀ c ∈ blanks, isSpace c = true)
    (hsign : sign = [] ∨ sign = ['+'] ∨ sign = ['-']) (hd : Digits digits) (hne : digits ≠ [])
    (hrest : ∀ c ∈ rest.head?, c.isDigit = false) :
    stoi (blanks ++ (sign ++ (digits ++ rest))) =
      if value digits < 2 ^ 31 + if sign = ['-'] then 1 else 0 then
        .ok (if sign = ['-'] then -value digits else value digits)
      else .error .outOfRange := by
  have hdigits : (digits ++ rest).takeWhile Char.isDigit = digits := takeWhile_append_head hd hrest
  have hhead : (digits ++ rest).head? ≠ some '-' ∧ (digits ++ rest).head? ≠ some '+' := by
    obtain ⟨d, ds, rfl⟩ := List.exists_cons_of_ne_nil hne
    have hdig := (not_space_of_digit (hd d List.mem_cons_self)).2
    exact ⟨fun h => hdig.1 (Option.some.inj h), fun h => hdig.2 (Option.some.inj h)⟩
  rw [stoi, dropWhile_append_head hb (head_not_space hsign hd hne)]
  rcases hsign with rfl | rfl | rfl
  · simp only [List.nil_append, hhead, or_self, if_false, hdigits, hne, List.nil_eq,
      reduceCtorEq, Nat.add_zero]
    exact if_congr (by omega) rfl rfl
  · simp only [List.singleton_append, List.head?_cons, Option.some.injEq, List.tail_cons, hdigits,
      hne, List.cons.injEq, and_true, if_false, if_true, or_true, Char.reduceEq, Nat.add_zero]
    exact if_congr (by omega) rfl rfl
  · simp only [List.singleton_append, List.head?_cons, List.tail_cons, hdigits, hne, if_false,
      if_true, true_or]
    exact if_congr (by omega) rfl rfl

end Stoi

/-- The sign, and what `std::stoi` takes the digits from. -/
theorem exists_sign (text : List Char) : ∃ sign s, text.dropWhile isSpace = sign ++ s ∧
    (sign = [] ∨ sign = ['+'] ∨ sign = ['-']) ∧
    (s.takeWhile Char.isDigit = [] → stoi text = .error .invalidArgument) := by
  rw [stoi]
  by_cases hneg : (text.dropWhile isSpace).head? = some '-'
  · obtain ⟨s, hs⟩ := List.head?_eq_some_iff.mp hneg
    refine ⟨['-'], s, hs, .inr (.inr rfl), fun hnil => ?_⟩
    simp only [hs, List.head?_cons, true_or, if_true, List.tail_cons, hnil]
  by_cases hpos : (text.dropWhile isSpace).head? = some '+'
  · obtain ⟨s, hs⟩ := List.head?_eq_some_iff.mp hpos
    refine ⟨['+'], s, hs, .inr (.inl rfl), fun hnil => ?_⟩
    simp only [hs, List.head?_cons, or_true, if_true, List.tail_cons, hnil]
  · refine ⟨[], _, rfl, .inl rfl, fun hnil => ?_⟩
    simp only [hneg, hpos, or_self, if_false, hnil, if_true]

/-- **`std::stoi` reads what is readable.** -/
theorem stoi_ok_iff (text : List Char) : (∃ n, stoi text = .ok n) ↔ Readable text := by
  constructor
  · rintro ⟨n, hn⟩
    obtain ⟨sign, s, hs, hsign, hnil⟩ := exists_sign text
    have hne : s.takeWhile Char.isDigit ≠ [] := fun h => by
      rw [hnil h] at hn
      exact absurd hn nofun
    have hd : Digits (s.takeWhile Char.isDigit) := fun c hc => List.mem_takeWhile_imp hc
    have htext : text = text.takeWhile isSpace ++
        (sign ++ (s.takeWhile Char.isDigit ++ s.dropWhile Char.isDigit)) := by
      rw [List.takeWhile_append_dropWhile, ← hs, List.takeWhile_append_dropWhile]
    have hb : ∀ c ∈ text.takeWhile isSpace, isSpace c = true := fun c hc =>
      List.mem_takeWhile_imp hc
    refine ⟨_, sign, _, _, htext, hb, hsign, hd, hne, head?_dropWhile, ?_⟩
    by_contra hlt
    rw [htext, stoi_number hb hsign hd hne head?_dropWhile, if_neg hlt] at hn
    exact absurd hn nofun
  · rintro ⟨blanks, sign, digits, rest, rfl, hb, hsign, hd, hne, hrest, hlt⟩
    rw [stoi_number hb hsign hd hne hrest, if_pos hlt]
    exact ⟨_, rfl⟩

theorem stoi_of_isPort {text : List Char} (h : IsPort text) : stoi text = .ok (value text) := by
  have hne : text ≠ [] := by
    rintro rfl
    exact absurd h.2.1 (by decide)
  have hnumber := @stoi_number [] [] text [] nofun (.inl rfl) h.1 hne nofun
  rw [List.nil_append, List.nil_append, List.append_nil] at hnumber
  rw [hnumber, if_pos (by have := h.2.2; omega), if_neg (List.cons_ne_nil _ _).symm]

/-! ### The parts of an url -/

/-- The end of a scheme is not found half inside of it. -/
theorem schemeEnd_isPrefix {k rest : List Char} (hne : k ≠ [])
    (h : schemeEnd <+: k ++ (schemeEnd ++ rest)) : schemeEnd <+: k := by
  match k with
  | [c] =>
    obtain ⟨t, ht⟩ := h
    exact absurd (List.cons.inj (List.cons.inj ht).2).1 (by decide)
  | [c, d] =>
    obtain ⟨t, ht⟩ := h
    exact absurd (List.cons.inj (List.cons.inj (List.cons.inj ht).2).2).1 (by decide)
  | c :: d :: e :: k =>
    refine List.prefix_of_prefix_length_le h (List.prefix_append _ _) ?_
    exact Nat.le_add_left 3 k.length

/-- **The scheme of an url** goes up to the first `://`. -/
theorem splitScheme_eq_some_iff {url scheme rest : List Char} :
    splitScheme url = some (scheme, rest) ↔
      url = scheme ++ (schemeEnd ++ rest) ∧ ¬ schemeEnd <:+: scheme := by
  induction url generalizing scheme with
  | nil =>
    refine iff_of_false nofun fun h => ?_
    exact absurd h.1.symm (List.append_ne_nil_of_right_ne_nil _ (List.cons_ne_nil _ _))
  | cons c url ih =>
    rw [splitScheme]
    split
    · next hpre =>
      obtain ⟨t, ht⟩ := List.isPrefixOf_iff_prefix.mp hpre
      obtain ⟨rfl, rfl⟩ := List.cons.inj ht
      constructor
      · intro h
        obtain ⟨rfl, rfl⟩ := Prod.mk.inj (Option.some.inj h)
        exact ⟨rfl, by decide⟩
      · rintro ⟨heq, hsep⟩
        rcases eq_or_ne scheme [] with rfl | hne
        · rw [List.append_cancel_left (show schemeEnd ++ t = schemeEnd ++ rest from heq)]
          rfl
        · exact absurd (schemeEnd_isPrefix hne ⟨t, heq⟩).isInfix hsep
    · next hpre =>
      rw [List.isPrefixOf_iff_prefix] at hpre
      constructor
      · intro h
        obtain ⟨⟨s, r⟩, hs, heq⟩ := Option.map_eq_some_iff.mp h
        obtain ⟨rfl, rfl⟩ := Prod.mk.inj heq
        obtain ⟨rfl, hsep⟩ := ih.mp hs
        refine ⟨rfl, fun h => ?_⟩
        rcases List.infix_cons_iff.mp h with h | h
        · exact hpre (h.trans (List.prefix_append (c :: s) _))
        · exact hsep h
      · rintro ⟨heq, hsep⟩
        cases scheme with
        | nil => exact absurd (heq ▸ List.prefix_append _ _) hpre
        | cons d s =>
          obtain ⟨rfl, rfl⟩ := List.cons.inj heq
          rw [ih.mpr ⟨rfl, fun h => hsep (List.infix_cons_iff.mpr (.inr h))⟩]
          rfl

theorem splitScheme_eq_none {url : List Char} (h : ¬ schemeEnd <:+: url) :
    splitScheme url = none := by
  rw [Option.eq_none_iff_forall_ne_some]
  intro r hr
  obtain ⟨rfl, -⟩ := splitScheme_eq_some_iff.mp hr
  exact h ⟨r.1, r.2, List.append_assoc _ _ _⟩

/-- A scheme has no colon in it. -/
theorem not_infix_of_map_toLower {s k : List Char} (h : s.map Char.toLower = k) (hk : ':' ∉ k) :
    ¬ schemeEnd <:+: s := by
  intro hsep
  refine hk (h ▸ ?_)
  exact List.mem_map_of_mem (f := Char.toLower) (hsep.mem (a := ':') List.mem_cons_self)

theorem not_infix_of_httpScheme {s : List Char} (h : (httpScheme s).isSome) :
    ¬ schemeEnd <:+: s := by
  rw [httpScheme] at h
  split_ifs at h with h1 h2
  · exact not_infix_of_map_toLower h1 (by decide)
  · exact not_infix_of_map_toLower h2 (by decide)
  · exact absurd h Bool.false_ne_true

theorem not_infix_of_wsScheme {s : List Char} (h : (wsScheme s).isSome) :
    ¬ schemeEnd <:+: s := by
  rw [wsScheme] at h
  split_ifs at h with h1 h2
  · exact not_infix_of_map_toLower h1 (by decide)
  · exact not_infix_of_map_toLower h2 (by decide)
  · exact absurd h Bool.false_ne_true

theorem exists_dropWhile_ne {c : Char} {s : List Char} (h : c ∈ s) :
    ∃ t, s.dropWhile (· ≠ c) = c :: t := by
  cases hdrop : s.dropWhile (· ≠ c) with
  | nil => exact absurd rfl (of_decide_eq_true (List.dropWhile_eq_nil_iff.mp hdrop c h))
  | cons d t =>
    have hd := head?_dropWhile (p := (· ≠ c)) (s := s) d (by rw [hdrop]; rfl)
    rw [not_ne_iff.mp (of_decide_eq_false hd)]
    exact ⟨t, rfl⟩

/-- **The host of an authority**, and what follows it. -/
theorem exists_hostText {authority host tail : List Char}
    (h : splitHost authority = some (host, tail)) :
    ∃ text, HostWritten host text ∧ authority = text ++ tail := by
  rw [splitHost] at h
  split_ifs at h with hbracket hclosed
  · obtain ⟨rest, rfl⟩ := List.head?_eq_some_iff.mp hbracket
    have hmem : ']' ∈ rest := (List.mem_cons.mp hclosed).resolve_left (by decide)
    obtain ⟨t, ht⟩ := exists_dropWhile_ne hmem
    obtain ⟨rfl, rfl⟩ := Prod.mk.inj (Option.some.inj h)
    rw [List.tail_cons, List.dropWhile_cons_of_pos (by decide), ht]
    refine ⟨_, .inr ⟨rfl, fun hmem => ?_⟩, ?_⟩
    · have hc := List.mem_takeWhile_imp hmem
      exact absurd rfl (of_decide_eq_true hc)
    · have hrest := List.takeWhile_append_dropWhile (p := (· ≠ ']')) (l := rest)
      rw [ht] at hrest
      rw [List.cons_append, List.append_assoc]
      exact congrArg _ hrest.symm
  · obtain ⟨rfl, rfl⟩ := Prod.mk.inj (Option.some.inj h)
    refine ⟨_, .inl ⟨rfl, fun hhead => ?_, fun hmem => ?_⟩,
      List.takeWhile_append_dropWhile.symm⟩
    · obtain ⟨s, hs⟩ := List.head?_eq_some_iff.mp hhead
      rw [← List.takeWhile_append_dropWhile (p := (· ≠ ':')) (l := authority), hs] at hbracket
      exact hbracket rfl
    · have hc := List.mem_takeWhile_imp hmem
      exact absurd rfl (of_decide_eq_true hc)

/-- It is the only one. -/
theorem HostWritten.tail_eq {host text text' tail tail' : List Char} (h : HostWritten host text)
    (h' : HostWritten host text') (hne : host ≠ []) (heq : text ++ tail = text' ++ tail') :
    tail = tail' := by
  obtain ⟨d, ds, rfl⟩ := List.exists_cons_of_ne_nil hne
  rcases h with ⟨rfl, hhead, -⟩ | ⟨rfl, -⟩
  all_goals rcases h' with ⟨rfl, hhead', -⟩ | ⟨rfl, -⟩
  · exact List.append_cancel_left heq
  · exact absurd (congrArg some (List.cons.inj heq).1) hhead
  · exact absurd (congrArg some (List.cons.inj heq).1.symm) hhead'
  · exact List.append_cancel_left heq

/-- A host that is written gives itself back. -/
theorem splitHost_append {host text tail : List Char} (h : HostWritten host text)
    (hne : host ≠ []) (htail : tail = [] ∨ ∃ port, tail = ':' :: port) :
    splitHost (text ++ tail) = some (host, tail) := by
  rcases h with ⟨rfl, hhead, hcolon⟩ | ⟨rfl, hclose⟩
  · have hhead' : (text ++ tail).head? ≠ some '[' := by
      obtain ⟨c, cs, rfl⟩ := List.exists_cons_of_ne_nil hne
      exact hhead
    have hall : ∀ c ∈ text, decide (c ≠ ':') = true :=
      fun c hc => decide_eq_true fun h => hcolon (h ▸ hc)
    have hstop : ∀ c ∈ tail.head?, decide (c ≠ ':') = false := by
      rcases htail with rfl | ⟨port, rfl⟩
      · rintro _ ⟨⟩
      · rintro _ ⟨⟩
        rfl
    rw [splitHost, if_neg hhead', takeWhile_append_head hall hstop,
      dropWhile_append_head hall hstop]
  · have hall : ∀ c ∈ host, decide (c ≠ ']') = true :=
      fun c hc => decide_eq_true fun h => hclose (h ▸ hc)
    have hstop : ∀ c ∈ (']' :: tail).head?, decide (c ≠ ']') = false := by
      rintro _ ⟨⟩
      rfl
    have htext : '[' :: (host ++ [']']) ++ tail = '[' :: (host ++ (']' :: tail)) := by
      rw [List.cons_append, List.append_assoc, List.singleton_append]
    rw [htext, splitHost, if_pos (List.head?_cons ..),
      if_pos (List.mem_cons_of_mem _ (List.mem_append_right _ (List.mem_cons_self ..))),
      List.tail_cons, takeWhile_append_head hall hstop,
      List.dropWhile_cons_of_pos (by decide), dropWhile_append_head hall hstop, List.tail_cons]

section Rest

variable {rest : List Char}

theorem authorityOf_append_pathOf (rest : List Char) : authorityOf rest ++ pathOf rest = rest :=
  List.takeWhile_append_dropWhile

theorem authorityOf_ok : ∀ c ∈ authorityOf rest, endsAuthority c = false := by
  intro c hc
  have hc := List.mem_takeWhile_imp hc
  rwa [Bool.not_eq_true'] at hc

theorem pathOf_ok : ∀ c ∈ (pathOf rest).head?, endsAuthority c = true := by
  intro c hc
  have hc := head?_dropWhile c hc
  rwa [Bool.not_eq_false'] at hc

theorem authorityOf_append {authority path : List Char}
    (ha : ∀ c ∈ authority, endsAuthority c = false)
    (hp : ∀ c ∈ path.head?, endsAuthority c = true) : authorityOf (authority ++ path) = authority :=
  takeWhile_append_head (fun c hc => by rw [ha c hc]; rfl) fun c hc => by rw [hp c hc]; rfl

theorem pathOf_append {authority path : List Char}
    (ha : ∀ c ∈ authority, endsAuthority c = false)
    (hp : ∀ c ∈ path.head?, endsAuthority c = true) : pathOf (authority ++ path) = path :=
  dropWhile_append_head (fun c hc => by rw [ha c hc]; rfl) fun c hc => by rw [hp c hc]; rfl

theorem endsAuthority_iff {c : Char} : endsAuthority c = true ↔ c = '/' ∨ c = '?' := by
  rw [endsAuthority, Bool.or_eq_true, decide_eq_true_eq, decide_eq_true_eq]

/-- A query before the first slash ends the authority. -/
theorem exists_query (h : '?' ∈ rest.takeWhile (· ≠ '/')) : ∃ q, pathOf rest = '?' :: q := by
  have hok : ∀ c ∈ authorityOf rest, endsAuthority c = false := authorityOf_ok
  have hnot : '?' ∉ authorityOf rest := fun hmem => absurd (hok _ hmem) (by decide)
  have hslash : ∀ c ∈ authorityOf rest, decide (c ≠ '/') = true := fun c hc => by
    rw [decide_eq_true_eq]
    rintro rfl
    exact absurd (hok _ hc) (by decide)
  rw [← authorityOf_append_pathOf rest, List.takeWhile_append_of_pos hslash, List.mem_append] at h
  have hmem := h.resolve_left hnot
  cases hpath : pathOf rest with
  | nil =>
    rw [hpath] at hmem
    exact absurd hmem List.not_mem_nil
  | cons c q =>
    rcases endsAuthority_iff.mp (pathOf_ok c (by rw [hpath]; rfl)) with rfl | rfl
    · rw [hpath] at hmem
      exact absurd hmem List.not_mem_nil
    · exact ⟨q, rfl⟩

/-- The target of `ParseHttpUrl`. -/
def httpTarget (rest : List Char) : List Char :=
  if rest.dropWhile (· ≠ '/') = [] then ['/'] else rest.dropWhile (· ≠ '/')

/-- There is no query in it that stands before the first slash. -/
theorem httpTarget_ne (h : '?' ∈ rest.takeWhile (· ≠ '/')) :
    httpTarget rest ≠ targetOf (pathOf rest) := by
  obtain ⟨q, hq⟩ := exists_query h
  intro heq
  have hlen : (httpTarget rest).length ≤ q.length + 1 := by
    have hsplit : rest.dropWhile (· ≠ '/') = q.dropWhile (· ≠ '/') := by
      rw [← authorityOf_append_pathOf rest, hq, List.dropWhile_append_of_pos,
        List.dropWhile_cons_of_pos (by decide)]
      intro c hc
      rw [decide_eq_true_eq]
      rintro rfl
      exact absurd (authorityOf_ok _ hc) (by decide)
    rw [httpTarget, hsplit]
    split
    · exact Nat.le_add_left 1 q.length
    · exact (List.length_dropWhile_le _ q).trans (Nat.le_succ _)
  rw [heq, hq] at hlen
  exact absurd hlen (Nat.lt_irrefl _)

/-- Where there is no query before the first slash, both functions split an url alike. -/
theorem http_rest (h : '?' ∉ rest.takeWhile (· ≠ '/')) :
    rest.takeWhile (· ≠ '/') = authorityOf rest ∧ httpTarget rest = targetOf (pathOf rest) := by
  have hok : ∀ c ∈ rest.takeWhile (· ≠ '/'), endsAuthority c = false := by
    intro c hc
    rw [← Bool.not_eq_true, endsAuthority_iff]
    rintro (rfl | rfl)
    · have hslash := List.mem_takeWhile_imp hc
      exact absurd rfl (of_decide_eq_true hslash)
    · exact h hc
  have hhead : ∀ c ∈ (rest.dropWhile (· ≠ '/')).head?, c = '/' := fun c hc =>
    not_ne_iff.mp (of_decide_eq_false (head?_dropWhile c hc))
  have hpath : ∀ c ∈ (rest.dropWhile (· ≠ '/')).head?, endsAuthority c = true := fun c hc =>
    endsAuthority_iff.mpr (.inl (hhead c hc))
  have hrest := List.takeWhile_append_dropWhile (p := (· ≠ '/')) (l := rest)
  have hauthority := authorityOf_append hok hpath
  have hpathOf := pathOf_append hok hpath
  rw [hrest] at hauthority hpathOf
  refine ⟨hauthority.symm, ?_⟩
  rw [httpTarget, hpathOf, targetOf]
  cases hdrop : rest.dropWhile (· ≠ '/') with
  | nil => rfl
  | cons c path =>
    rw [hhead c (by rw [hdrop]; rfl)]
    rfl

end Rest

theorem PortWritten.plainTail {default n : ℕ} {tail : List Char} (h : PortWritten default n tail) :
    PlainTail tail :=
  h.imp And.left fun ⟨digits, heq, hport, _⟩ => ⟨digits, heq, hport⟩

/-- What becomes of an authority with a host. -/
theorem readAuthority_cases {authority host tail : List Char}
    (h : splitHost authority = some (host, tail)) (out : Url) :
    (∃ port, tail = ':' :: port ∧ ¬ Readable port) ∧
      (∃ e, readAuthority authority out = .error e) ∨
    (∀ port, tail = ':' :: port → Readable port) ∧
      ∃ n, (PlainTail tail → PortWritten out.port n tail) ∧ readAuthority authority out =
        .ok (if host ≠ [] then some { out with host, port := n } else none) := by
  rw [readAuthority, h]
  by_cases hcolon : ∃ port, tail = ':' :: port
  · obtain ⟨port, rfl⟩ := hcolon
    cases hport : stoi port with
    | error e =>
      refine .inl ⟨⟨port, rfl, fun hread => ?_⟩, e, ?_⟩
      · obtain ⟨n, hn⟩ := (stoi_ok_iff port).mpr hread
        exact absurd (hport.symm.trans hn) nofun
      · show stoi port >>= _ = _
        rw [hport]
        rfl
    | ok n =>
      refine .inr ⟨fun port' heq => ?_, (n % 2 ^ 16).toNat, fun hplain => ?_, ?_⟩
      · obtain rfl := (List.cons.inj heq).2
        exact (stoi_ok_iff _).mp ⟨n, hport⟩
      · obtain ⟨port', heq, hport'⟩ := hplain.resolve_left (List.cons_ne_nil _ _)
        obtain rfl := (List.cons.inj heq).2
        have hvalue := (stoi_of_isPort hport').symm.trans hport
        obtain rfl : (value port : ℤ) = n := Except.ok.inj hvalue
        refine .inr ⟨port, rfl, hport', ?_⟩
        have hlt := hport'.2.2
        omega
      · show stoi port >>= _ = _
        rw [hport]
        rfl
  · refine .inr ⟨fun port heq => absurd ⟨port, heq⟩ hcolon, out.port, fun hplain => ?_, ?_⟩
    · exact .inl ⟨hplain.resolve_right fun ⟨port, heq, _⟩ => hcolon ⟨port, heq⟩, rfl⟩
    · show readPort { out with host } tail = _
      rw [readPort.eq_def]
      split
      · exact absurd ⟨_, rfl⟩ hcolon
      · rfl

section Schemes

variable {schemes : List Char → Option (Bool × ℕ)} {url scheme rest : List Char} {useTls : Bool}
  {default : ℕ}

theorem hasRest_iff (hsplit : splitScheme url = some (scheme, rest))
    (hscheme : schemes scheme = some (useTls, default)) (rest' : List Char) :
    HasRest schemes url rest' ↔ rest' = rest := by
  constructor
  · rintro ⟨scheme', hsplit', -⟩
    exact (Prod.mk.inj (Option.some.inj (hsplit.symm.trans hsplit'))).2.symm
  · rintro rfl
    exact ⟨scheme, hsplit, by rw [hscheme]; rfl⟩

/-- What an url is made of, if it begins with a scheme. -/
theorem recomposes_iff (hschemes : ∀ s, (schemes s).isSome → ¬ schemeEnd <:+: s)
    (hsplit : splitScheme url = some (scheme, rest))
    (hscheme : schemes scheme = some (useTls, default)) (u : Url) :
    (∃ p : Parts, p.all = url ∧ Recomposes schemes p u) ↔
      u.useTls = useTls ∧ u.target = targetOf (pathOf rest) ∧ ∃ host port,
        HostWritten u.host host ∧ host ++ port = authorityOf rest ∧
          PortWritten default u.port port := by
  constructor
  · rintro ⟨p, rfl, h⟩
    obtain ⟨default', hscheme', hport⟩ := h.scheme_written
    have hsep := hschemes p.scheme (by rw [hscheme']; rfl)
    have hsplit' : splitScheme p.all = some (p.scheme, p.host ++ p.port ++ p.path) :=
      splitScheme_eq_some_iff.mpr ⟨rfl, hsep⟩
    obtain ⟨rfl, rfl⟩ := Prod.mk.inj (Option.some.inj (hsplit.symm.trans hsplit'))
    obtain ⟨rfl, rfl⟩ := Prod.mk.inj (Option.some.inj (hscheme.symm.trans hscheme'))
    refine ⟨rfl, ?_, p.host, p.port, h.host_written, ?_, hport⟩
    · rw [pathOf_append h.authority_ok h.path_ok]
      exact h.target_eq
    · exact (authorityOf_append h.authority_ok h.path_ok).symm
  · rintro ⟨rfl, htarget, host, port, hhost, heq, hport⟩
    refine ⟨⟨scheme, host, port, pathOf rest⟩, ?_, ⟨default, hscheme, hport⟩, hhost, ?_, pathOf_ok,
      htarget⟩
    · rw [Parts.all, heq, authorityOf_append_pathOf]
      exact (splitScheme_eq_some_iff.mp hsplit).1.symm
    · rw [heq]
      exact authorityOf_ok

/-- With the host of the authority and the right target it is all about the port. -/
theorem recomposes_iff_port (hschemes : ∀ s, (schemes s).isSome → ¬ schemeEnd <:+: s)
    (hsplit : splitScheme url = some (scheme, rest))
    (hscheme : schemes scheme = some (useTls, default)) {host tail : List Char}
    (hhost : splitHost (authorityOf rest) = some (host, tail)) (hne : host ≠ []) (n : ℕ) :
    (∃ p : Parts, p.all = url ∧
      Recomposes schemes p ⟨useTls, host, n, targetOf (pathOf rest)⟩) ↔
      PortWritten default n tail := by
  obtain ⟨text, htext, heq⟩ := exists_hostText hhost
  rw [recomposes_iff hschemes hsplit hscheme]
  constructor
  · rintro ⟨-, -, text', port, htext', heq', hport⟩
    rw [htext.tail_eq htext' hne (heq.symm.trans heq'.symm)]
    exact hport
  · exact fun hport => ⟨rfl, rfl, text, tail, htext, heq.symm, hport⟩

end Schemes

/-! ### Both functions -/

section Functions

variable {url scheme rest : List Char} {useTls : Bool} {default : ℕ}

theorem hasRest_cases (schemes : List Char → Option (Bool × ℕ)) (url : List Char) :
    (∀ rest, ¬ HasRest schemes url rest) ∨ ∃ scheme rest useTls default,
      splitScheme url = some (scheme, rest) ∧ schemes scheme = some (useTls, default) := by
  by_cases h : ∃ rest, HasRest schemes url rest
  · obtain ⟨rest, scheme, hsplit, hsome⟩ := h
    obtain ⟨r, hr⟩ := Option.isSome_iff_exists.mp hsome
    exact .inr ⟨scheme, rest, r.1, r.2, hsplit, hr⟩
  · exact .inl (not_exists.mp h)

theorem parseHttpUrl_of_not (h : ∀ rest, ¬ HasRest httpScheme url rest) :
    parseHttpUrl url = .ok none := by
  rw [parseHttpUrl]
  split
  · rfl
  · next scheme rest hsplit =>
    split
    · rfl
    · next hscheme => exact absurd ⟨scheme, hsplit, by rw [hscheme]; rfl⟩ (h rest)

theorem parseWsUrl_of_not (h : ∀ rest, ¬ HasRest wsScheme url rest) :
    parseWsUrl url = .ok none := by
  rw [parseWsUrl]
  split
  · rfl
  · next scheme rest hsplit =>
    split
    · rfl
    · next hscheme => exact absurd ⟨scheme, hsplit, by rw [hscheme]; rfl⟩ (h rest)

theorem parseHttpUrl_eq (hsplit : splitScheme url = some (scheme, rest))
    (hscheme : httpScheme scheme = some (useTls, default)) :
    parseHttpUrl url = readAuthority (rest.takeWhile (· ≠ '/'))
      ⟨useTls, [], default, httpTarget rest⟩ := by
  rw [parseHttpUrl, hsplit]
  show (match httpScheme scheme with | none => _ | some (useTls, port) => _) = _
  rw [hscheme]
  rfl

/-- The target of `ParseWsUrl`. -/
theorem wsTarget_eq {path : List Char} (hpath : ∀ c ∈ path.head?, endsAuthority c = true) :
    (let target := if path = [] then ['/'] else path
     if target.head? = some '?' then '/' :: target else target) = targetOf path := by
  cases path with
  | nil => rfl
  | cons c path => rcases endsAuthority_iff.mp (hpath c rfl) with rfl | rfl <;> rfl

theorem parseWsUrl_eq (hsplit : splitScheme url = some (scheme, rest))
    (hscheme : wsScheme scheme = some (useTls, default)) :
    parseWsUrl url = tryCatch (readAuthority (authorityOf rest)
      ⟨useTls, [], default, targetOf (pathOf rest)⟩) fun _ => .ok none := by
  rw [parseWsUrl, hsplit]
  show (match wsScheme scheme with | none => _ | some (useTls, port) => _) = _
  rw [hscheme, ← wsTarget_eq pathOf_ok]
  rfl

/-- Where something is returned, it is right if its url can be put together from it. -/
theorem exact_of_ok {schemes : List Char → Option (Bool × ℕ)}
    {parse : List Char → Except StoiError (Option Url)} {host : List Char} {u : Url}
    (hok : parse url = .ok (if host ≠ [] then some u else none)) :
    Exact schemes parse url ↔
      (host ≠ [] → ∃ p : Parts, p.all = url ∧ Recomposes schemes p u) := by
  rw [Exact, hok]
  constructor
  · rintro ⟨result, heq, hall⟩ hne
    rw [if_pos hne] at heq
    exact hall u (Except.ok.inj heq ▸ rfl)
  · intro h
    refine ⟨_, rfl, fun v hv => ?_⟩
    split_ifs at hv with hne
    · obtain rfl := Option.some.inj hv
      exact h hne
    · exact absurd hv nofun

/-- **When `ParseHttpUrl` is total and exact.** -/
theorem exact_http_iff (url : List Char) :
    Exact httpScheme parseHttpUrl url ↔ HttpReadable url ∧ HttpWritten url := by
  rcases hasRest_cases httpScheme url with hnot | ⟨scheme, rest, useTls, default, hsplit, hscheme⟩
  · refine iff_of_true ⟨none, parseHttpUrl_of_not hnot, nofun⟩ ⟨?_, ?_⟩
    · exact fun rest h => absurd h (hnot rest)
    · exact fun rest h => absurd h (hnot rest)
  rw [HttpReadable, HttpWritten]
  simp only [hasRest_iff hsplit hscheme, forall_eq]
  have hparse := parseHttpUrl_eq hsplit hscheme
  cases hhost : splitHost (rest.takeWhile (· ≠ '/')) with
  | none =>
    rw [readAuthority, hhost] at hparse
    exact iff_of_true ⟨none, hparse, nofun⟩ ⟨nofun, nofun⟩
  | some r =>
    obtain ⟨host, tail⟩ := r
    rcases readAuthority_cases hhost ⟨useTls, [], default, httpTarget rest⟩ with
      ⟨⟨port, rfl, hread⟩, e, he⟩ | ⟨hread, n, hport, hok⟩
    · -- what is thrown is not caught
      refine iff_of_false (fun h => ?_) fun h => hread (h.1 host port rfl)
      obtain ⟨result, hresult, -⟩ := h
      rw [hparse, he] at hresult
      exact absurd hresult nofun
    · rw [exact_of_ok (hparse.trans hok)]
      constructor
      · intro h
        refine ⟨fun host' port heq => hread port (Prod.mk.inj (Option.some.inj heq)).2, ?_⟩
        intro host' tail' heq hne
        obtain ⟨rfl, rfl⟩ := Prod.mk.inj (Option.some.inj heq)
        have hrec := h hne
        have hquery : '?' ∉ rest.takeWhile (· ≠ '/') := fun hmem => by
          obtain ⟨-, htarget, -⟩ := (recomposes_iff (fun _ => not_infix_of_httpScheme) hsplit
            hscheme _).mp hrec
          exact httpTarget_ne hmem htarget
        obtain ⟨hauthority, htarget⟩ := http_rest hquery
        rw [hauthority] at hhost
        rw [htarget] at hrec
        exact ⟨((recomposes_iff_port (fun _ => not_infix_of_httpScheme) hsplit hscheme hhost hne
          n).mp hrec).plainTail, hquery⟩
      · rintro ⟨-, h⟩ hne
        obtain ⟨hplain, hquery⟩ := h host tail rfl hne
        obtain ⟨hauthority, htarget⟩ := http_rest hquery
        rw [hauthority] at hhost
        rw [htarget]
        exact (recomposes_iff_port (fun _ => not_infix_of_httpScheme) hsplit hscheme hhost hne
          n).mpr (hport hplain)

/-- **When `ParseWsUrl` is total and exact.** -/
theorem exact_ws_iff (url : List Char) : Exact wsScheme parseWsUrl url ↔ WsWritten url := by
  rcases hasRest_cases wsScheme url with hnot | ⟨scheme, rest, useTls, default, hsplit, hscheme⟩
  · exact iff_of_true ⟨none, parseWsUrl_of_not hnot, nofun⟩ fun rest h => absurd h (hnot rest)
  rw [WsWritten]
  simp only [hasRest_iff hsplit hscheme, forall_eq]
  have hparse := parseWsUrl_eq hsplit hscheme
  cases hhost : splitHost (authorityOf rest) with
  | none =>
    rw [readAuthority, hhost] at hparse
    exact iff_of_true ⟨none, hparse, nofun⟩ nofun
  | some r =>
    obtain ⟨host, tail⟩ := r
    rcases readAuthority_cases hhost ⟨useTls, [], default, targetOf (pathOf rest)⟩ with
      ⟨⟨port, rfl, hread⟩, e, he⟩ | ⟨hread, n, hport, hok⟩
    · rw [he] at hparse
      refine iff_of_true ⟨none, hparse, nofun⟩ fun host' tail' heq _ => ?_
      obtain ⟨rfl, rfl⟩ := Prod.mk.inj (Option.some.inj heq)
      exact .inr ⟨port, rfl, hread⟩
    · rw [hok] at hparse
      have hport_iff := recomposes_iff_port (fun _ => not_infix_of_wsScheme) hsplit hscheme hhost
      rw [exact_of_ok hparse]
      constructor
      · intro h host' tail' heq hne
        obtain ⟨rfl, rfl⟩ := Prod.mk.inj (Option.some.inj heq)
        exact .inl ((hport_iff hne n).mp (h hne)).plainTail
      · intro h hne
        refine (hport_iff hne n).mpr (hport ((h host tail rfl hne).resolve_right ?_))
        rintro ⟨port, heq, hnot⟩
        exact hnot (hread port heq)

/-- Without a query behind the authority there is none before the first slash. -/
theorem not_mem_of_not_query (hsplit : splitScheme url = some (scheme, rest))
    (hquery : ¬ QueryAfterAuthority url) : '?' ∉ rest.takeWhile (· ≠ '/') := by
  intro hmem
  obtain ⟨q, hq⟩ := exists_query hmem
  obtain ⟨rfl, hsep⟩ := splitScheme_eq_some_iff.mp hsplit
  refine hquery ⟨scheme, authorityOf rest, q, hsep, authorityOf_ok, ?_⟩
  rw [← hq, authorityOf_append_pathOf]

theorem not_query_of_pathOf (hsplit : splitScheme url = some (scheme, rest))
    (hpath : (pathOf rest).head? ≠ some '?') : ¬ QueryAfterAuthority url := by
  rintro ⟨scheme', authority, query, hsep, hok, rfl⟩
  have hsplit' := splitScheme_eq_some_iff.mpr
    ⟨(rfl : scheme' ++ (schemeEnd ++ (authority ++ '?' :: query)) = _), hsep⟩
  obtain ⟨rfl, rfl⟩ := Prod.mk.inj (Option.some.inj (hsplit.symm.trans hsplit'))
  rw [pathOf_append hok (by rintro c hc; obtain rfl := Option.some.inj hc; rfl)] at hpath
  exact hpath rfl

/-- **When both functions agree.** -/
theorem agree_iff {url' : List Char} (h : UpToScheme url url')
    (hquery : ¬ QueryAfterAuthority url) :
    parseHttpUrl url = parseWsUrl url' ↔ HttpReadable url := by
  have hsame : (∀ rest, ¬ HasRest httpScheme url rest) → (∀ rest, ¬ HasRest wsScheme url' rest) →
      (parseHttpUrl url = parseWsUrl url' ↔ HttpReadable url) := fun hnot hnot' =>
    iff_of_true ((parseHttpUrl_of_not hnot).trans (parseWsUrl_of_not hnot').symm)
      fun rest hrest => absurd hrest (hnot rest)
  cases h with
  | noScheme hsep =>
    have hnone := splitScheme_eq_none hsep
    refine hsame ?_ ?_
    all_goals
      rintro rest ⟨scheme, hsplit, -⟩
      exact absurd (hnone.symm.trans hsplit) nofun
  | @scheme s s' hs hs' heq rest =>
    have hsplit := splitScheme_eq_some_iff.mpr ⟨(rfl : s ++ (schemeEnd ++ rest) = _), hs⟩
    have hsplit' := splitScheme_eq_some_iff.mpr ⟨(rfl : s' ++ (schemeEnd ++ rest) = _), hs'⟩
    cases hscheme : httpScheme s with
    | none =>
      rw [hscheme] at heq
      refine hsame ?_ ?_
      · rintro rest' ⟨scheme, h, hsome⟩
        obtain ⟨rfl, -⟩ := Prod.mk.inj (Option.some.inj (hsplit.symm.trans h))
        rw [hscheme] at hsome
        exact absurd hsome Bool.false_ne_true
      · rintro rest' ⟨scheme, h, hsome⟩
        obtain ⟨rfl, -⟩ := Prod.mk.inj (Option.some.inj (hsplit'.symm.trans h))
        rw [← heq] at hsome
        exact absurd hsome Bool.false_ne_true
    | some r =>
      obtain ⟨useTls, default⟩ := r
      obtain ⟨hauthority, htarget⟩ := http_rest (not_mem_of_not_query hsplit hquery)
      rw [parseHttpUrl_eq hsplit hscheme, parseWsUrl_eq hsplit' (heq.symm.trans hscheme),
        HttpReadable, hauthority, htarget]
      simp only [hasRest_iff hsplit hscheme, forall_eq, hauthority]
      cases hhost : splitHost (authorityOf rest) with
      | none =>
        rw [readAuthority, hhost]
        exact iff_of_true rfl nofun
      | some r =>
        obtain ⟨host, tail⟩ := r
        rcases readAuthority_cases hhost ⟨useTls, [], default, targetOf (pathOf rest)⟩ with
          ⟨⟨port, rfl, hread⟩, e, he⟩ | ⟨hread, n, -, hok⟩
        · rw [he]
          exact iff_of_false nofun fun h => hread (h host port rfl)
        · rw [hok]
          refine iff_of_true rfl fun host' port heq => ?_
          exact hread port (Prod.mk.inj (Option.some.inj heq)).2

/-- **For which urls the result is right.** -/
theorem parseUrl_iff (url : List Char) :
    (Exact httpScheme parseHttpUrl url ↔ HttpReadable url ∧ HttpWritten url) ∧
    (Exact wsScheme parseWsUrl url ↔ WsWritten url) ∧
    ∀ url', UpToScheme url url' → ¬ QueryAfterAuthority url →
      (parseHttpUrl url = parseWsUrl url' ↔ HttpReadable url) :=
  ⟨exact_http_iff url, exact_ws_iff url, fun _ h hquery => agree_iff h hquery⟩

end Functions

/-- An empty port makes `ParseHttpUrl` throw, and a number that is too large for a port is taken
    by `ParseWsUrl` for the port 80. -/
theorem not_exact_ports : ¬ Exact httpScheme parseHttpUrl "http://h:/".toList ∧
    ¬ Exact wsScheme parseWsUrl "ws://h:65616/".toList := by
  rw [exact_http_iff, exact_ws_iff]
  refine ⟨fun h => ?_, fun h => ?_⟩
  · have hread := h.1 "h:/".toList ⟨"http".toList, rfl, rfl⟩ ['h'] [] rfl
    obtain ⟨n, hn⟩ := (stoi_ok_iff []).mpr hread
    exact absurd hn nofun
  · have hwritten := h "h:65616/".toList ⟨"ws".toList, rfl, rfl⟩ ['h'] ":65616".toList rfl
      (List.cons_ne_nil _ _)
    rcases hwritten with (hnil | ⟨port, heq, hport⟩) | ⟨port, heq, hread⟩
    · exact absurd hnil (by decide)
    · obtain rfl := (List.cons.inj heq).2
      exact absurd hport.2.2 (by decide)
    · obtain rfl := (List.cons.inj heq).2
      exact hread ((stoi_ok_iff _).mp ⟨65616, rfl⟩)

/-- An IPv6 literal with a port. -/
theorem parseUrl_iff_ipv6 :
    parseHttpUrl "http://[::1]:8080/x?y".toList = parseWsUrl "WS://[::1]:8080/x?y".toList := by
  have hscheme : UpToScheme ("http".toList ++ (schemeEnd ++ "[::1]:8080/x?y".toList))
      ("WS".toList ++ (schemeEnd ++ "[::1]:8080/x?y".toList)) :=
    .scheme (by decide) (by decide) (by decide) _
  have hsplit : splitScheme "http://[::1]:8080/x?y".toList =
      some ("http".toList, "[::1]:8080/x?y".toList) := by decide
  refine ((parseUrl_iff _).2.2 _ hscheme (not_query_of_pathOf hsplit (by decide))).mpr ?_
  intro rest hrest host port heq
  rw [(hasRest_iff hsplit (rfl : httpScheme _ = _) rest).mp hrest] at heq
  obtain ⟨-, hport⟩ := Prod.mk.inj (Option.some.inj heq)
  rw [← (List.cons.inj hport).2]
  exact (stoi_ok_iff _).mp ⟨8080, rfl⟩

end PiWebrtc.Signaling
