import PiWebrtc.Signaling.MqttService

namespace PiWebrtc.Signaling

/-!
# PATCH requests of WHEP sessions

A viewer sends its ICE candidates, or restarts ICE, with a PATCH of its session.  The
request is checked by its headers; a restart is answered with the ICE lines of the local
description that the peer produces, and with the entity tag of the new ICE session.

Header fields that every response carries are left out.
-/

/-! ### Texts -/

/-- `MediaTypeOf`: the media type without its parameters, in lower case. -/
def mediaTypeOf (value : String) : String :=
  let isBlank := fun c => c = ' ' || c = '\t'
  let type := (value.toList.takeWhile fun c => c ≠ ';').dropWhile isBlank
  .ofList ((type.reverse.dropWhile isBlank).reverse.map Char.toLower)

/-- The first match of `a=ice-ufrag:([^\r\n]+)`. -/
def iceUfragOf : List Char → Option (List Char)
  | [] => none
  | c :: cs =>
    let value := ((c :: cs).drop 12).takeWhile fun x => x ≠ '\r' && x ≠ '\n'
    if "a=ice-ufrag:".toList.isPrefixOf (c :: cs) ∧ value ≠ [] then some value
    else iceUfragOf cs

/-- `EntityTagOf`: the ICE username fragment names the ICE session. -/
def entityTagOf (sdp : String) : String :=
  match iceUfragOf sdp.toList with
  | none => ""
  | some ufrag => "\"" ++ .ofList ufrag ++ "\""

/-- A line without the `\r` at its end. -/
def stripReturn (line : List Char) : List Char :=
  if line.getLast? = some '\r' then line.dropLast else line

/-- `std::getline` until the text ends; `line` is what was read of a line, backwards. -/
def linesFrom : List Char → List Char → List (List Char)
  | [], line => if line = [] then [] else [stripReturn line.reverse]
  | c :: cs, line =>
    if c = '\n' then stripReturn line.reverse :: linesFrom cs [] else linesFrom cs (c :: line)

/-- `SdpLinesOf`. -/
def sdpLinesOf (sdp : String) : List String := (linesFrom sdp.toList []).map .ofList

/-- `kSessionLines`. -/
def sessionLines : List String := ["a=ice-lite", "a=ice-options:", "a=group:BUNDLE"]

/-- `kMediaLines`. -/
def mediaLines : List String :=
  ["a=mid:", "a=ice-ufrag:", "a=ice-pwd:", "a=ice-options:", "a=candidate:", "a=end-of-candidates"]

/-- The loop of `IceFragmentOf`: it ends at the second m-section. -/
def iceFragmentFrom (inMedia : Bool) : List String → String
  | [] => ""
  | line :: lines =>
    if startsWith line "m=" then
      if inMedia then "" else line ++ "\r\n" ++ iceFragmentFrom true lines
    else if (if inMedia then mediaLines else sessionLines).any (startsWith line ·) then
      line ++ "\r\n" ++ iceFragmentFrom inMedia lines
    else iceFragmentFrom inMedia lines

/-- `IceFragmentOf`. -/
def iceFragmentOf (sdp : String) : String := iceFragmentFrom false (sdpLinesOf sdp)

/-- `IceCandidates`; each candidate with its mid. -/
structure IceCandidates where
  iceUfrag : String := ""
  icePwd : String := ""
  candidates : List (String × String) := []
  deriving DecidableEq, Repr

/-- `substr(n)`. -/
def dropChars (s : String) (n : ℕ) : String := .ofList (s.toList.drop n)

/-- The loop of `ParseCandidates`; `mid` is the last one that was read. -/
def parseCandidatesFrom (mid : String) (result : IceCandidates) : List String → IceCandidates
  | [] => result
  | line :: lines =>
    if startsWith line "a=mid:" then parseCandidatesFrom (dropChars line 6) result lines
    else if startsWith line "a=candidate:" then
      parseCandidatesFrom mid
        { result with candidates := result.candidates ++ [(mid, dropChars line 2)] } lines
    else if startsWith line "a=ice-ufrag:" then
      parseCandidatesFrom mid { result with iceUfrag := dropChars line 12 } lines
    else if startsWith line "a=ice-pwd:" then
      parseCandidatesFrom mid { result with icePwd := dropChars line 10 } lines
    else parseCandidatesFrom mid result lines

/-- `ParseCandidates`. -/
def parseCandidates (sdp : String) : IceCandidates := parseCandidatesFrom "" {} (sdpLinesOf sdp)

/-! ### Responses -/

/-- A response. -/
structure WhepResponse where
  status : ℕ
  contentType : Option String := none
  etag : Option String := none
  body : String := ""
  deriving DecidableEq, Repr

/-- `RespondError`. -/
def respondError (status : ℕ) (message : String) : WhepResponse where
  status := status
  contentType := some "text/plain"
  body := message

/-- `RespondIceRestarted`. -/
def respondIceRestarted (sdp : String) : WhepResponse where
  status := 200
  contentType := some "application/trickle-ice-sdpfrag"
  etag := if entityTagOf sdp = "" then none else some (entityTagOf sdp)
  body := iceFragmentOf sdp

/-- A PATCH request: two of its header fields, and its body. -/
structure PatchRequest where
  contentType : String
  ifMatch : Option String
  body : String
  deriving DecidableEq, Repr

/-- What a PATCH leads to. -/
inductive PatchAction where
  | respond (response : WhepResponse)
  /-- ICE is restarted. -/
  | restart (group : IceCandidates)
  /-- The candidates are given to the peer. -/
  | trickle (group : IceCandidates)
  deriving DecidableEq, Repr

/-- The checks of `HandlePatchRequest`; `localSdp` is the peer's local description. -/
def checkPatch (req : PatchRequest) (localSdp : String) : PatchAction :=
  if mediaTypeOf req.contentType = "application/sdp" then
    .respond (respondError 422 "This session sent no counter-offer, so it expects no SDP answer.")
  else if mediaTypeOf req.contentType ≠ "application/trickle-ice-sdpfrag" then
    .respond (respondError 415
      "ICE updates must be sent with Content-Type `application/trickle-ice-sdpfrag`.")
  else
    match req.ifMatch with
    | none =>
      .respond (respondError 428
        "PATCH requires an If-Match header with the session's ETag, or `*` to restart ICE.")
    | some tag =>
      if tag = "*" then .restart (parseCandidates req.body)
      else if tag ≠ entityTagOf localSdp then
        .respond (respondError 412 "If-Match does not name this session's current ICE session.")
      else .trickle (parseCandidates req.body)

end PiWebrtc.Signaling
