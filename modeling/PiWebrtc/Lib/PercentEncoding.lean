import Mathlib.Data.List.TakeWhile
import Mathlib.Tactic.Common

/-!
# Percent encoding and queries

In a query the bytes of a value stand for themselves if they are unreserved, and every other
one is written as a percent sign and two hexadecimal digits.  The parameters are separated by
ampersands, and in each of them the key ends at the first equals sign.

* `percentDecode_encode` — decoding gives every value back.
* `readQuery_writeQuery` — so does a query, for keys of unreserved bytes.
* `QueryText.writeQuery` — a query is written with unreserved bytes, separators and escapes.
-/

namespace PercentEncoding

/-! ### Bytes -/

/-- A letter or a decimal digit. -/
def isAlphaNum (c : UInt8) : Bool :=
  ('0'.toUInt8 ≤ c && c ≤ '9'.toUInt8) || ('A'.toUInt8 ≤ c && c ≤ 'Z'.toUInt8) ||
    ('a'.toUInt8 ≤ c && c ≤ 'z'.toUInt8)

/-- The bytes that stand for themselves. -/
def isUnreserved (c : UInt8) : Bool :=
  isAlphaNum c || c = '-'.toUInt8 || c = '_'.toUInt8 || c = '.'.toUInt8 || c = '~'.toUInt8

/-- A hexadecimal digit in upper case. -/
def isHexDigit (c : UInt8) : Bool :=
  ('0'.toUInt8 ≤ c && c ≤ '9'.toUInt8) || ('A'.toUInt8 ≤ c && c ≤ 'F'.toUInt8)

/-- The hexadecimal digit `d`. -/
def hexDigit (d : ℕ) : UInt8 :=
  if d < 10 then .ofNat ('0'.toNat + d) else .ofNat ('A'.toNat + (d - 10))

/-- The value of a hexadecimal digit, in either case. -/
def hexValue (c : UInt8) : Option ℕ :=
  if '0'.toUInt8 ≤ c ∧ c ≤ '9'.toUInt8 then some (c.toNat - '0'.toNat)
  else if 'A'.toUInt8 ≤ c ∧ c ≤ 'F'.toUInt8 then some (c.toNat - 'A'.toNat + 10)
  else if 'a'.toUInt8 ≤ c ∧ c ≤ 'f'.toUInt8 then some (c.toNat - 'a'.toNat + 10)
  else none

theorem hexDigit_spec {d : ℕ} (hd : d < 16) :
    hexValue (hexDigit d) = some d ∧ isHexDigit (hexDigit d) = true ∧
      isUnreserved (hexDigit d) = true := by
  have hall : ∀ d : Fin 16, hexValue (hexDigit d) = some d.val ∧
      isHexDigit (hexDigit d) = true ∧ isUnreserved (hexDigit d) = true := by decide
  exact hall ⟨d, hd⟩

/-! ### Values -/

/-- A byte as it is written in a value. -/
def encodeByte (c : UInt8) : List UInt8 :=
  if isUnreserved c then [c] else ['%'.toUInt8, hexDigit (c.toNat / 16), hexDigit (c.toNat % 16)]

/-- A value as it is written. -/
def encode (value : List UInt8) : List UInt8 := value.flatMap encodeByte

/-- A value as it is read. -/
def percentDecode : List UInt8 → Option (List UInt8)
  | [] => some []
  | c :: rest =>
    if c = '%'.toUInt8 then
      match rest with
      | hi :: lo :: rest =>
        (hexValue hi).bind fun h => (hexValue lo).bind fun l =>
          (percentDecode rest).map (.ofNat (h * 16 + l) :: ·)
      | _ => none
    else (percentDecode rest).map (c :: ·)

/-- One byte is read back. -/
theorem percentDecode_encodeByte (c : UInt8) (rest : List UInt8) :
    percentDecode (encodeByte c ++ rest) = (percentDecode rest).map (c :: ·) := by
  by_cases hc : isUnreserved c = true
  · have hne : c ≠ '%'.toUInt8 := by
      rintro rfl
      exact absurd hc (by decide)
    rw [encodeByte, if_pos hc, List.singleton_append, percentDecode.eq_def]
    exact if_neg hne
  · have hbyte : c.toNat < 256 := c.toNat_lt
    have hhi := (hexDigit_spec (d := c.toNat / 16) (by omega)).1
    have hlo := (hexDigit_spec (d := c.toNat % 16) (by omega)).1
    have hvalue : UInt8.ofNat (c.toNat / 16 * 16 + c.toNat % 16) = c := by
      rw [Nat.div_add_mod']
      exact UInt8.ofNat_toNat
    rw [encodeByte, if_neg hc, List.cons_append, percentDecode.eq_def]
    simp only [if_true, List.cons_append, List.nil_append, hhi, hlo, Option.bind_some, hvalue]

/-- **Values.** Whatever the bytes are, they are read back. -/
theorem percentDecode_encode (value : List UInt8) : percentDecode (encode value) = some value := by
  induction value with
  | nil => rfl
  | cons c value ih =>
    rw [encode, List.flatMap_cons, percentDecode_encodeByte]
    exact congrArg (Option.map (c :: ·)) ih

/-- No separator is among the bytes that are written. -/
theorem of_mem_encode {value : List UInt8} {x : UInt8} (hx : x ∈ encode value) :
    isUnreserved x = true ∨ x = '%'.toUInt8 := by
  obtain ⟨c, -, hx⟩ := List.mem_flatMap.mp hx
  unfold encodeByte at hx
  split_ifs at hx with hc
  · rw [List.mem_singleton.mp hx]
    exact .inl hc
  · have hbyte : c.toNat < 256 := c.toNat_lt
    rcases List.mem_cons.mp hx with rfl | hx
    · exact .inr rfl
    · rcases List.mem_cons.mp hx with rfl | hx
      · exact .inl (hexDigit_spec (by omega)).2.2
      · rw [List.mem_singleton.mp hx]
        exact .inl (hexDigit_spec (by omega)).2.2

/-! ### Queries -/

/-- A parameter as it is written. -/
def writePair (p : List UInt8 × List UInt8) : List UInt8 := p.1 ++ '='.toUInt8 :: encode p.2

/-- The parameters as they are written. -/
def writeQuery (params : List (List UInt8 × List UInt8)) : List UInt8 :=
  ['&'.toUInt8].intercalate (params.map writePair)

theorem writeQuery_cons (p : List UInt8 × List UInt8) (params : List (List UInt8 × List UInt8)) :
    writeQuery (p :: params) =
      writePair p ++ params.flatMap fun q => '&'.toUInt8 :: writePair q := by
  induction params generalizing p with
  | nil =>
    rw [writeQuery, List.map_singleton, List.intercalate_singleton]
    exact (List.append_nil _).symm
  | cons q params ih =>
    rw [List.flatMap_cons, List.cons_append, ← ih q]
    rfl

/-- A parameter as it is read: the key ends at the first equals sign. -/
def readPair (piece : List UInt8) : Option (List UInt8 × List UInt8) :=
  match piece.dropWhile (· ≠ '='.toUInt8) with
  | [] => none
  | _ :: value => (percentDecode value).map (piece.takeWhile (· ≠ '='.toUInt8), ·)

/-- The parameters as they are read. -/
def readQuery (query : List UInt8) : Option (List (List UInt8 × List UInt8)) :=
  (query.splitOn '&'.toUInt8).mapM readPair

/-- A key that is written as it is. -/
def PlainKey (key : List UInt8) : Prop := ∀ c ∈ key, isUnreserved c = true

instance (key : List UInt8) : Decidable (PlainKey key) := List.decidableBAll _ key

theorem readPair_writePair {p : List UInt8 × List UInt8} (hkey : PlainKey p.1) :
    readPair (writePair p) = some p := by
  have hne : ∀ c ∈ p.1, decide (c ≠ '='.toUInt8) = true := by
    rintro c hc
    refine decide_eq_true ?_
    rintro rfl
    exact absurd (hkey _ hc) (by decide)
  rw [readPair, writePair, List.dropWhile_append_of_pos hne, List.takeWhile_append_of_pos hne,
    List.dropWhile_cons_of_neg (by decide), List.takeWhile_cons_of_neg (by decide)]
  dsimp only
  rw [percentDecode_encode, List.append_nil]
  rfl

theorem notMem_writePair {p : List UInt8 × List UInt8} (hkey : PlainKey p.1) :
    '&'.toUInt8 ∉ writePair p := by
  intro hmem
  rcases List.mem_append.mp hmem with hmem | hmem
  · exact absurd (hkey _ hmem) (by decide)
  · rcases List.mem_cons.mp hmem with heq | hmem
    · exact absurd heq (by decide)
    · rcases of_mem_encode hmem with hun | heq
      · exact absurd hun (by decide)
      · exact absurd heq (by decide)

theorem mapM_readPair {params : List (List UInt8 × List UInt8)}
    (hkeys : ∀ p ∈ params, PlainKey p.1) : (params.map writePair).mapM readPair = some params := by
  induction params with
  | nil => rfl
  | cons p params ih =>
    rw [List.map_cons, List.mapM_cons, readPair_writePair (hkeys p List.mem_cons_self),
      ih fun q hq => hkeys q (List.mem_cons_of_mem p hq)]
    rfl

/-- **Round trip of queries.** The parameters are read back, in order. -/
theorem readQuery_writeQuery {params : List (List UInt8 × List UInt8)} (hne : params ≠ [])
    (hkeys : ∀ p ∈ params, PlainKey p.1) : readQuery (writeQuery params) = some params := by
  rw [readQuery, writeQuery, List.splitOn_intercalate]
  · exact mapM_readPair hkeys
  · intro piece hpiece
    obtain ⟨p, hp, rfl⟩ := List.mem_map.mp hpiece
    exact notMem_writePair (hkeys p hp)
  · exact fun h => hne (List.map_eq_nil_iff.mp h)

/-! ### The text of a query -/

/-- Nothing but unreserved bytes, separators, and escapes of two digits in upper case. -/
inductive QueryText : List UInt8 → Prop
  | nil : QueryText []
  | unreserved {c rest} (hc : isUnreserved c = true) (hrest : QueryText rest) :
      QueryText (c :: rest)
  | separator {c rest} (hc : c = '?'.toUInt8 ∨ c = '&'.toUInt8 ∨ c = '='.toUInt8)
      (hrest : QueryText rest) : QueryText (c :: rest)
  | escape {hi lo rest} (hhi : isHexDigit hi = true) (hlo : isHexDigit lo = true)
      (hrest : QueryText rest) : QueryText ('%'.toUInt8 :: hi :: lo :: rest)

namespace QueryText

theorem append {l l' : List UInt8} (h : QueryText l) (h' : QueryText l') : QueryText (l ++ l') := by
  induction h with
  | nil => exact h'
  | unreserved hc _ ih => exact .unreserved hc ih
  | separator hc _ ih => exact .separator hc ih
  | escape hhi hlo _ ih => exact .escape hhi hlo ih

theorem of_plainKey {key : List UInt8} (h : PlainKey key) : QueryText key := by
  induction key with
  | nil => exact .nil
  | cons c key ih =>
    exact .unreserved (h c List.mem_cons_self) (ih fun x hx => h x (List.mem_cons_of_mem c hx))

theorem encodeByte (c : UInt8) : QueryText (PercentEncoding.encodeByte c) := by
  unfold PercentEncoding.encodeByte
  split_ifs with hc
  · exact .unreserved hc .nil
  · have hbyte : c.toNat < 256 := c.toNat_lt
    exact .escape (hexDigit_spec (by omega)).2.1 (hexDigit_spec (by omega)).2.1 .nil

theorem encode (value : List UInt8) : QueryText (PercentEncoding.encode value) := by
  induction value with
  | nil => exact .nil
  | cons c value ih => exact (encodeByte c).append ih

theorem writePair {p : List UInt8 × List UInt8} (hkey : PlainKey p.1) :
    QueryText (PercentEncoding.writePair p) :=
  (of_plainKey hkey).append (.separator (.inr (.inr rfl)) (encode p.2))

/-- What a query is written with. -/
theorem writeQuery {params : List (List UInt8 × List UInt8)}
    (hkeys : ∀ p ∈ params, PlainKey p.1) : QueryText (PercentEncoding.writeQuery params) := by
  induction params with
  | nil => exact .nil
  | cons p params ih =>
    have hp := writePair (hkeys p List.mem_cons_self)
    have hrest := ih fun q hq => hkeys q (List.mem_cons_of_mem p hq)
    cases params with
    | nil => exact (writeQuery_cons p []).symm ▸ hp.append .nil
    | cons q params => exact hp.append (.separator (.inr (.inl rfl)) hrest)

end QueryText

end PercentEncoding
