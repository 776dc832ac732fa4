import PiWebrtc.Lib.PercentEncoding
import PiWebrtc.Lib.SortedMap
import PiWebrtc.Lib.TextStream
import Mathlib.Data.List.Lex

namespace PiWebrtc.Signaling

open PercentEncoding

/-!
# The targets of the LiveKit service

The service connects to a path with the key, the room and the user as its parameters.
`UrlEncode` writes a value into one stream, byte by byte: it is hexadecimal and filled with
zeros from the start, in upper case from the first escape on, and of width two only between
the percent sign and the number behind it.
-/

/-- Bytes in the order of their values, as `std::string` compares them. -/
local instance byteOrder : LinearOrder UInt8 where
  le_refl := UInt8.le_refl
  le_trans := fun _ _ _ => UInt8.le_trans
  le_antisymm := fun _ _ => UInt8.le_antisymm
  le_total := UInt8.le_total
  lt_iff_le_not_ge := fun a b => by
    rw [UInt8.lt_iff_toNat_lt, UInt8.le_iff_toNat_le, UInt8.le_iff_toNat_le]
    omega
  toDecidableLE := inferInstance
  toDecidableLT := inferInstance
  toDecidableEq := inferInstance

/-- The bytes of a literal. -/
def bytes (s : String) : List UInt8 := s.toList.map Char.toUInt8

/-! ### Values -/

/-- One step of the loop in `UrlEncode`. -/
def urlEncodeChar (escaped : TextStream) (c : UInt8) : TextStream :=
  if isAlphaNum c || c = '-'.toUInt8 || c = '_'.toUInt8 || c = '.'.toUInt8 || c = '~'.toUInt8 then
    escaped.insert [c]
  else (((escaped.insert ['%'.toUInt8]).setWidth 2).setUppercase).insertNat c.toNat

/-- `UrlEncode`. -/
def urlEncode (value : List UInt8) : List UInt8 :=
  let escaped : TextStream := {}
  (value.foldl urlEncodeChar ((escaped.setFill '0'.toUInt8).setBase 16)).text

/-- The format between two bytes. -/
structure Escaping (escaped : TextStream) : Prop where
  base : escaped.base = 16
  fill : escaped.fill = '0'.toUInt8
  width : escaped.width = 0

theorem digit_of_uppercase {s : TextStream} (hupper : s.uppercase = true) {d : ℕ} (hd : d < 16) :
    s.digit d.digitChar = hexDigit d := by
  have hall : ∀ d : Fin 16, d.val.digitChar.toUpper.toUInt8 = hexDigit d := by decide
  rw [TextStream.digit, if_pos hupper]
  exact hall ⟨d, hd⟩

/-- An escape. -/
theorem text_insertNat_escape {s : TextStream} {c : UInt8} (hbase : s.base = 16)
    (hupper : s.uppercase = true) (hfill : s.fill = '0'.toUInt8) (hwidth : s.width = 2) :
    (s.insertNat c.toNat).text =
      s.text ++ [hexDigit (c.toNat / 16), hexDigit (c.toNat % 16)] := by
  have hbyte : c.toNat < 256 := c.toNat_lt
  have hdigit : s.digit (Nat.digitChar 0) = hexDigit 0 := digit_of_uppercase hupper (by decide)
  have hzero : s.fill = s.digit '0' := hfill.trans hdigit.symm
  rw [TextStream.text_insertNat_pair (by omega) (by rw [hbase]; exact hbyte) hzero hwidth, hbase,
    digit_of_uppercase hupper (by omega), digit_of_uppercase hupper (by omega)]

/-- One byte of a value. -/
theorem urlEncodeChar_spec {escaped : TextStream} (h : Escaping escaped) (c : UInt8) :
    Escaping (urlEncodeChar escaped c) ∧
      (urlEncodeChar escaped c).text = escaped.text ++ encodeByte c := by
  unfold urlEncodeChar encodeByte isUnreserved
  split_ifs with hc
  · exact ⟨⟨h.base, h.fill, rfl⟩, TextStream.text_insert h.width⟩
  · refine ⟨⟨h.base, h.fill, rfl⟩, ?_⟩
    rw [text_insertNat_escape]
    · show (escaped.insert ['%'.toUInt8]).text ++ _ = _
      rw [TextStream.text_insert h.width, List.append_assoc]
      rfl
    · exact h.base
    · rfl
    · exact h.fill
    · rfl

theorem text_foldl_urlEncodeChar {escaped : TextStream} (h : Escaping escaped)
    (value : List UInt8) :
    (value.foldl urlEncodeChar escaped).text = escaped.text ++ encode value := by
  induction value generalizing escaped with
  | nil => exact (List.append_nil _).symm
  | cons c value ih =>
    obtain ⟨hnext, htext⟩ := urlEncodeChar_spec h c
    rw [List.foldl_cons, ih hnext, htext, List.append_assoc]
    rfl

/-- `UrlEncode` is percent encoding. -/
theorem urlEncode_eq_encode (value : List UInt8) : urlEncode value = encode value :=
  text_foldl_urlEncodeChar ⟨rfl, rfl, rfl⟩ value

/-! ### Targets -/

/-- One step of the loop in `BuildWebSocketTarget`. -/
def writeParam (loop : TextStream × Bool) (param : List UInt8 × List UInt8) : TextStream × Bool :=
  let (target, first) := loop
  let target := if first then target else target.insert (bytes "&")
  (((target.insert param.1).insert (bytes "=")).insert (urlEncode param.2), false)

/-- `BuildWebSocketTarget`. -/
def buildWebSocketTarget (basePath : List UInt8) (params : SortedMap (List UInt8) (List UInt8)) :
    List UInt8 :=
  let target : TextStream := ({} : TextStream).insert basePath
  if params.entries = [] then target.text
  else (params.entries.foldl writeParam (target.insert (bytes "?"), true)).1.text

theorem text_writeParam {s : TextStream} (hwidth : s.width = 0) (first : Bool)
    (p : List UInt8 × List UInt8) :
    (writeParam (s, first) p).1.text =
      s.text ++ if first then writePair p else '&'.toUInt8 :: writePair p := by
  unfold writeParam
  dsimp only
  rw [TextStream.text_insert (by rfl), TextStream.text_insert (by rfl), urlEncode_eq_encode]
  cases first with
  | true =>
    rw [if_pos rfl, if_pos rfl, TextStream.text_insert hwidth, writePair, List.append_assoc,
      List.append_assoc]
    rfl
  | false =>
    rw [if_neg Bool.false_ne_true, if_neg Bool.false_ne_true, TextStream.text_insert (by rfl),
      TextStream.text_insert hwidth, writePair, List.append_assoc, List.append_assoc,
      List.append_assoc]
    rfl

/-- The parameters behind the first one. -/
theorem text_foldl_writeParam {s : TextStream} (hwidth : s.width = 0)
    (params : List (List UInt8 × List UInt8)) :
    (params.foldl writeParam (s, false)).1.text =
      s.text ++ params.flatMap fun p => '&'.toUInt8 :: writePair p := by
  induction params generalizing s with
  | nil => exact (List.append_nil _).symm
  | cons p params ih =>
    have hp := text_writeParam hwidth false p
    rw [List.foldl_cons, List.flatMap_cons, ← List.append_assoc]
    exact (ih rfl).trans (congrArg (· ++ _) hp)

/-- What is behind the path of a target: the query, unless there are no parameters. -/
def targetQuery (params : List (List UInt8 × List UInt8)) : List UInt8 :=
  if params = [] then [] else '?'.toUInt8 :: writeQuery params

theorem buildWebSocketTarget_eq (basePath : List UInt8)
    (params : SortedMap (List UInt8) (List UInt8)) :
    buildWebSocketTarget basePath params = basePath ++ targetQuery params.entries := by
  have hpath : (({} : TextStream).insert basePath).text = basePath := TextStream.text_insert rfl
  rw [buildWebSocketTarget, targetQuery]
  cases params.entries with
  | nil =>
    rw [if_pos rfl, if_pos rfl, List.append_nil]
    exact hpath
  | cons p rest =>
    have hp := text_writeParam (s := (({} : TextStream).insert basePath).insert (bytes "?")) rfl
      true p
    rw [if_neg (List.cons_ne_nil p rest), if_neg (List.cons_ne_nil p rest), List.foldl_cons,
      writeQuery_cons]
    refine (text_foldl_writeParam rfl rest).trans ?_
    rw [← List.cons_append, ← List.append_assoc]
    refine congrArg (· ++ _) (hp.trans ?_)
    rw [TextStream.text_insert (by rfl), hpath, List.append_assoc]
    rfl

/-- The parameters that are read behind the path of a target. -/
def readTarget (text : List UInt8) : Option (List (List UInt8 × List UInt8)) :=
  match text with
  | [] => some []
  | c :: query => if c = '?'.toUInt8 then readQuery query else none

theorem readTarget_targetQuery {params : List (List UInt8 × List UInt8)}
    (hkeys : ∀ p ∈ params, PlainKey p.1) : readTarget (targetQuery params) = some params := by
  rw [targetQuery]
  split_ifs with hne
  · rw [hne]
    rfl
  · exact readQuery_writeQuery hne hkeys

theorem queryText_targetQuery {params : List (List UInt8 × List UInt8)}
    (hkeys : ∀ p ∈ params, PlainKey p.1) : QueryText (targetQuery params) := by
  rw [targetQuery]
  split_ifs with hne
  · exact .nil
  · exact .separator (.inl rfl) (QueryText.writeQuery hkeys)

/-- **Targets.** Behind the path there are unreserved bytes, separators and escapes in upper case,
    from which exactly the parameters are read, whatever their values are. -/
theorem target_decodes (basePath : List UInt8) (params : SortedMap (List UInt8) (List UInt8))
    (hkeys : ∀ key ∈ params.keys, PlainKey key) :
    ∃ text, buildWebSocketTarget basePath params = basePath ++ text ∧
      readTarget text = some params.entries ∧ QueryText text := by
  have hplain : ∀ p ∈ params.entries, PlainKey p.1 := fun p hp =>
    hkeys p.1 (List.mem_map_of_mem hp)
  exact ⟨targetQuery params.entries, buildWebSocketTarget_eq basePath params,
    readTarget_targetQuery hplain, queryText_targetQuery hplain⟩

/-- A value with separators in it, and one that is no text. -/
theorem target_decodes_room :
    ∃ text, buildWebSocketTarget (bytes "/rtc") ((SortedMap.empty.insert (bytes "roomId")
        (bytes "a&userId=b")).insert (bytes "apiKey") [0x00, 0xFF]) = bytes "/rtc" ++ text ∧
      readTarget text =
        some [(bytes "apiKey", [0x00, 0xFF]), (bytes "roomId", bytes "a&userId=b")] ∧
      QueryText text :=
  target_decodes (bytes "/rtc") ((SortedMap.empty.insert (bytes "roomId")
    (bytes "a&userId=b")).insert (bytes "apiKey") [0x00, 0xFF]) (by decide)

/-! ### The handshake -/

/-- The parameters of `OnHandshake`. -/
def handshakeParams (livekitKey livekitRoom uid : List UInt8) (enableIpc : Bool) :
    SortedMap (List UInt8) (List UInt8) :=
  (((SortedMap.empty.insert (bytes "apiKey") livekitKey).insert (bytes "roomId")
    livekitRoom).insert (bytes "userId") uid).insert (bytes "canSubscribe")
    (if enableIpc then bytes "1" else bytes "0")

theorem entries_handshakeParams (livekitKey livekitRoom uid : List UInt8) (enableIpc : Bool) :
    (handshakeParams livekitKey livekitRoom uid enableIpc).entries =
      [(bytes "apiKey", livekitKey),
        (bytes "canSubscribe", if enableIpc then bytes "1" else bytes "0"),
        (bytes "roomId", livekitRoom), (bytes "userId", uid)] := rfl

/-- No key, room or user adds a parameter to the handshake or changes another one. -/
theorem readTarget_handshake (livekitKey livekitRoom uid : List UInt8) (enableIpc : Bool) :
    ∃ text, buildWebSocketTarget (bytes "/rtc")
        (handshakeParams livekitKey livekitRoom uid enableIpc) = bytes "/rtc" ++ text ∧
      readTarget text = some [(bytes "apiKey", livekitKey),
        (bytes "canSubscribe", if enableIpc then bytes "1" else bytes "0"),
        (bytes "roomId", livekitRoom), (bytes "userId", uid)] := by
  rw [buildWebSocketTarget_eq, entries_handshakeParams]
  refine ⟨_, rfl, readTarget_targetQuery fun p hp => ?_⟩
  have hkey : p.1 ∈ [bytes "apiKey", bytes "canSubscribe", bytes "roomId", bytes "userId"] :=
    List.mem_map_of_mem (f := Prod.fst) hp
  revert hkey
  generalize p.1 = key
  revert key
  decide

end PiWebrtc.Signaling
