import PiWebrtc.Signaling.Url

namespace PiWebrtc.Parser

open Decimal Signaling

/-!
# The url of a LiveKit server

`ParseWsUrl` takes the url from the command line apart, once, and ends the program with a reason
if something is wrong with it.  It is stricter than its namesakes in the HTTP and the WebSocket
client: no path, nothing behind an IPv6 literal but a port, and of a port only its digits.

`livekitUrl_iff` says which urls are accepted, and what for: `url` is accepted with the result
`u` if and only if `u` is written as `url`.
-/

/-- What `--livekit-url` comes to; the port is zero if the url has none. -/
structure LivekitUrl where
  useTls : Bool
  host : List Char
  port : ℕ
  deriving DecidableEq

/-- Whether TLS is used. -/
def livekitScheme (scheme : List Char) : Option Bool :=
  let scheme := scheme.map Char.toLower
  if scheme = ['w', 's'] ∨ scheme = ['h', 't', 't', 'p'] then some false
  else if scheme = ['w', 's', 's'] ∨ scheme = ['h', 't', 't', 'p', 's'] then some true
  else none

/-- The host is checked, and then the port. -/
def livekitPort (useTls : Bool) (host port : List Char) : Except String LivekitUrl :=
  if host = [] then .error "the host is empty"
  else if port = [] then .ok ⟨useTls, host, 0⟩
  else if ¬ port.all Char.isDigit then
    .error ("\"" ++ String.ofList port ++ "\" is not a valid port number")
  else
    -- so that `std::stoul` does not throw
    let n := if 5 < port.length then 0 else value port
    if n = 0 ∨ 65535 < n then
      .error ("port " ++ String.ofList port ++ " is out of range (1-65535)")
    else .ok ⟨useTls, host, n⟩

/-- The host and the port of an authority. -/
def livekitAuthority (useTls : Bool) (authority : List Char) : Except String LivekitUrl :=
  match splitHost authority with
  | none => .error "unterminated IPv6 literal, expected a closing \"]\""
  | some (host, []) => livekitPort useTls host []
  | some (host, ':' :: port) => livekitPort useTls host port
  | some _ => .error "unexpected characters after the IPv6 literal"

/-- `Parser::ParseWsUrl`, with the reason for which the program ends. -/
def parseWsUrl (url : List Char) : Except String LivekitUrl :=
  match splitScheme url with
  | none => .error "missing scheme, expected ws://, wss://, http:// or https://"
  | some (scheme, rest) =>
    match livekitScheme scheme with
    | none =>
      .error ("unsupported scheme \"" ++ String.ofList (scheme.map Char.toLower) ++
        "\", expected ws, wss, http or https")
    | some useTls =>
      let path := rest.dropWhile (· ≠ '/')
      if path ≠ [] ∧ path ≠ ['/'] then
        .error ("a path is not supported, drop \"" ++ String.ofList path ++ "\"")
      else livekitAuthority useTls (rest.takeWhile (· ≠ '/'))

/-! ### How an url is written -/

/-- What follows the host: nothing, a colon, or a colon and up to five digits. -/
def LivekitPortWritten (port : ℕ) (text : List Char) : Prop :=
  text = [] ∧ port = 0 ∨ text = [':'] ∧ port = 0 ∨
    ∃ digits, text = ':' :: digits ∧ IsPort digits ∧ digits.length ≤ 5 ∧ port = value digits

/-- `u` is written as `url`: one of the schemes in any case of letters, a host that is not empty,
    perhaps a port, and perhaps a slash. -/
def LivekitUrl.Written (u : LivekitUrl) (url : List Char) : Prop :=
  ∃ scheme host port slash, url = scheme ++ (schemeEnd ++ (host ++ port ++ slash)) ∧
    livekitScheme scheme = some u.useTls ∧ HostWritten u.host host ∧ u.host ≠ [] ∧ '/' ∉ host ∧
    LivekitPortWritten u.port port ∧ (slash = [] ∨ slash = ['/'])

/-! ### The parts -/

theorem not_infix_of_livekitScheme {scheme : List Char} {useTls : Bool}
    (h : livekitScheme scheme = some useTls) : ¬ schemeEnd <:+: scheme := by
  rw [livekitScheme] at h
  split_ifs at h with hplain htls
  · rcases hplain with hplain | hplain
    · exact not_infix_of_map_toLower hplain (by decide)
    · exact not_infix_of_map_toLower hplain (by decide)
  · rcases htls with htls | htls
    · exact not_infix_of_map_toLower htls (by decide)
    · exact not_infix_of_map_toLower htls (by decide)

section Parts

variable {useTls : Bool} {host port tail : List Char} {u : LivekitUrl}

theorem livekitPort_eq_ok_iff : livekitPort useTls host port = .ok u ↔
    u.useTls = useTls ∧ u.host = host ∧ host ≠ [] ∧
      (port = [] ∧ u.port = 0 ∨ IsPort port ∧ port.length ≤ 5 ∧ u.port = value port) := by
  obtain ⟨uTls, uHost, uPort⟩ := u
  rw [livekitPort]
  by_cases hhost : host = []
  · rw [if_pos hhost]
    exact iff_of_false (by rintro ⟨⟩) fun h => h.2.2.1 hhost
  rw [if_neg hhost]
  by_cases hempty : port = []
  · rw [if_pos hempty, Except.ok.injEq, LivekitUrl.mk.injEq]
    constructor
    · rintro ⟨rfl, rfl, rfl⟩
      exact ⟨rfl, rfl, hhost, .inl ⟨hempty, rfl⟩⟩
    · rintro ⟨htls, hsame, -, ⟨-, hzero⟩ | ⟨hport, -⟩⟩
      · exact ⟨htls.symm, hsame.symm, hzero.symm⟩
      · rw [hempty] at hport
        exact absurd hport.2.1 (by decide)
  rw [if_neg hempty]
  by_cases hdigits : port.all Char.isDigit
  · rw [if_neg (not_not.mpr hdigits)]
    have hd : Digits port := List.all_eq_true.mp hdigits
    by_cases hlong : 5 < port.length
    · rw [if_pos hlong, if_pos (.inl rfl)]
      refine iff_of_false (by rintro ⟨⟩) ?_
      rintro ⟨-, -, -, ⟨hnil, -⟩ | ⟨-, hshort, -⟩⟩
      · exact hempty hnil
      · exact absurd hlong (Nat.not_lt_of_le hshort)
    · rw [if_neg hlong]
      by_cases hrange : value port = 0 ∨ 65535 < value port
      · rw [if_pos hrange]
        refine iff_of_false (by rintro ⟨⟩) ?_
        rintro ⟨-, -, -, ⟨hnil, -⟩ | ⟨hport, -⟩⟩
        · exact hempty hnil
        · have hlow := hport.2.1
          have hhigh := hport.2.2
          omega
      · rw [if_neg hrange, Except.ok.injEq, LivekitUrl.mk.injEq]
        obtain ⟨hzero, hhigh⟩ := not_or.mp hrange
        constructor
        · rintro ⟨rfl, rfl, rfl⟩
          refine ⟨rfl, rfl, hhost, .inr ⟨⟨hd, ?_, ?_⟩, Nat.le_of_not_lt hlong, rfl⟩⟩
          · exact Nat.one_le_iff_ne_zero.mpr hzero
          · exact Nat.le_of_not_lt hhigh
        · rintro ⟨htls, hsame, -, ⟨hnil, -⟩ | ⟨-, -, hvalue⟩⟩
          · exact absurd hnil hempty
          · exact ⟨htls.symm, hsame.symm, hvalue.symm⟩
  · rw [if_pos hdigits]
    refine iff_of_false (by rintro ⟨⟩) ?_
    rintro ⟨-, -, -, ⟨hnil, -⟩ | ⟨hport, -⟩⟩
    · exact hempty hnil
    · exact hdigits (List.all_eq_true.mpr hport.1)

/-- What stands between the host and the slash. -/
theorem livekitPortWritten_iff {n : ℕ} : LivekitPortWritten n tail ↔
    tail = [] ∧ n = 0 ∨
      ∃ port, tail = ':' :: port ∧
        (port = [] ∧ n = 0 ∨ IsPort port ∧ port.length ≤ 5 ∧ n = value port) := by
  refine or_congr_right ⟨?_, ?_⟩
  · rintro (⟨rfl, hzero⟩ | ⟨port, rfl, hport⟩)
    · exact ⟨[], rfl, .inl ⟨rfl, hzero⟩⟩
    · exact ⟨port, rfl, .inr hport⟩
  · rintro ⟨port, rfl, ⟨rfl, hzero⟩ | hport⟩
    · exact .inl ⟨rfl, hzero⟩
    · exact .inr ⟨port, rfl, hport⟩

theorem LivekitPortWritten.slash_not_mem {n : ℕ} (h : LivekitPortWritten n tail) : '/' ∉ tail := by
  rcases h with ⟨rfl, -⟩ | ⟨rfl, -⟩ | ⟨digits, rfl, hport, -⟩
  · exact List.not_mem_nil
  · decide
  · intro hmem
    rcases List.mem_cons.mp hmem with hcolon | hmem
    · exact absurd hcolon (by decide)
    · exact absurd (hport.1 '/' hmem) (by decide)

theorem livekitAuthority_eq_ok_iff {authority : List Char} :
    livekitAuthority useTls authority = .ok u ↔ u.useTls = useTls ∧ ∃ tail,
      splitHost authority = some (u.host, tail) ∧ u.host ≠ [] ∧
        LivekitPortWritten u.port tail := by
  rw [livekitAuthority]
  simp only [livekitPortWritten_iff]
  split
  case h_1 hnone =>
    refine iff_of_false (by rintro ⟨⟩) ?_
    rintro ⟨-, tail, hsome, -⟩
    exact nomatch hnone.symm.trans hsome
  case h_2 host hsome =>
    rw [livekitPort_eq_ok_iff, hsome]
    constructor
    · rintro ⟨htls, rfl, hne, ⟨-, hzero⟩ | ⟨hport, -⟩⟩
      · exact ⟨htls, [], rfl, hne, .inl ⟨rfl, hzero⟩⟩
      · exact absurd hport.2.1 (by decide)
    · rintro ⟨htls, tail, heq, hne, htail⟩
      obtain ⟨rfl, rfl⟩ := Prod.mk.inj (Option.some.inj heq)
      rcases htail with ⟨-, hzero⟩ | ⟨port, hcons, -⟩
      · exact ⟨htls, rfl, hne, .inl ⟨rfl, hzero⟩⟩
      · cases hcons
  case h_3 host port hsome =>
    rw [livekitPort_eq_ok_iff, hsome]
    constructor
    · rintro ⟨htls, rfl, hne, hport⟩
      exact ⟨htls, _, rfl, hne, .inr ⟨port, rfl, hport⟩⟩
    · rintro ⟨htls, tail, heq, hne, htail⟩
      obtain ⟨rfl, rfl⟩ := Prod.mk.inj (Option.some.inj heq)
      rcases htail with ⟨hnil, -⟩ | ⟨port', hcons, hport⟩
      · cases hnil
      · obtain rfl := (List.cons.inj hcons).2
        exact ⟨htls, rfl, hne, hport⟩
  case h_4 _ found hne hcolon hsome =>
    refine iff_of_false (by rintro ⟨⟩) ?_
    rintro ⟨-, tail', heq, -, htail⟩
    rw [hsome, Option.some.injEq] at heq
    rcases htail with ⟨rfl, -⟩ | ⟨port, rfl, -⟩
    · exact hne _ heq
    · exact hcolon _ _ heq

end Parts

/-- **Which urls are accepted.** `ParseWsUrl` accepts an url with the result `u` if and only if
    `u` is written so. -/
theorem livekitUrl_iff (url : List Char) (u : LivekitUrl) :
    parseWsUrl url = .ok u ↔ u.Written url := by
  constructor
  · intro h
    rw [parseWsUrl] at h
    split at h
    case h_1 => cases h
    case h_2 scheme rest hsplit =>
      split at h
      case h_1 => cases h
      case h_2 useTls hscheme =>
        dsimp only at h
        split at h
        case isTrue => cases h
        case isFalse hpath =>
          obtain ⟨rfl, tail, hhost, hne, hport⟩ := livekitAuthority_eq_ok_iff.mp h
          obtain ⟨text, hwritten, hauthority⟩ := exists_hostText hhost
          refine ⟨scheme, text, tail, rest.dropWhile (· ≠ '/'), ?_, hscheme, hwritten, hne, ?_,
            hport, ?_⟩
          · rw [← hauthority, List.takeWhile_append_dropWhile]
            exact (splitScheme_eq_some_iff.mp hsplit).1
          · intro hmem
            have hin : '/' ∈ rest.takeWhile (· ≠ '/') :=
              hauthority ▸ List.mem_append_left _ hmem
            have hc := List.mem_takeWhile_imp hin
            exact absurd rfl (of_decide_eq_true hc)
          · by_cases hempty : rest.dropWhile (· ≠ '/') = []
            · exact .inl hempty
            · exact .inr (not_not.mp fun hlong => hpath ⟨hempty, hlong⟩)
  · rintro ⟨scheme, text, tail, slash, rfl, hscheme, hwritten, hne, hslash, hport, hend⟩
    have hsplit := splitScheme_eq_some_iff.mpr
      ⟨(rfl : scheme ++ (schemeEnd ++ (text ++ tail ++ slash)) = _),
        not_infix_of_livekitScheme hscheme⟩
    have hall : ∀ c ∈ text ++ tail, decide (c ≠ '/') = true := by
      intro c hc
      refine decide_eq_true ?_
      rintro rfl
      rcases List.mem_append.mp hc with hc | hc
      · exact hslash hc
      · exact hport.slash_not_mem hc
    have hstop : ∀ c ∈ slash.head?, decide (c ≠ '/') = false := by
      rcases hend with rfl | rfl
      · rintro _ ⟨⟩
      · rintro _ ⟨⟩
        rfl
    have htail : tail = [] ∨ ∃ port, tail = ':' :: port := by
      rcases hport with ⟨rfl, -⟩ | ⟨rfl, -⟩ | ⟨digits, rfl, -⟩
      · exact .inl rfl
      · exact .inr ⟨[], rfl⟩
      · exact .inr ⟨digits, rfl⟩
    rw [parseWsUrl, hsplit]
    dsimp only
    rw [hscheme]
    dsimp only
    rw [takeWhile_append_head hall hstop, dropWhile_append_head hall hstop, if_neg]
    · exact livekitAuthority_eq_ok_iff.mpr
        ⟨rfl, tail, splitHost_append hwritten hne htail, hne, hport⟩
    · rintro ⟨hempty, hlong⟩
      exact hend.elim hempty hlong

example : parseWsUrl "WSS://[::1]:7880/".toList = .ok ⟨true, "::1".toList, 7880⟩ := by decide

end PiWebrtc.Parser
