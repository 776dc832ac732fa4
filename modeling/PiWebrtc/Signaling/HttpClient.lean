import PiWebrtc.Lib.Machine
import PiWebrtc.Signaling.Url

namespace PiWebrtc.Signaling

open Transition Decimal

/-!
# The HTTP client

`HttpClient::Send` makes one request on a connection of its own: resolve the name, connect, with
an https url also the TLS handshake, write the request, and read the response.  Each operation
completes with an error or without one, and the caller's function is called at the end.

* `oneCallback` — from when the url was parsed the function is called once in every run, and not
  while something is outstanding; the request of an https url is not written before the handshake
  has succeeded; and from when the name was resolved it takes two timeouts at most.
* `hostHeader_iff` — the Host field names the host and the port of the url exactly if the host
  is not an IPv6 address.

The stream's timer, once set, completes the outstanding operation with an error when it expires.
The header fields but the Host are left out, and so is how the response is read.
-/

/-- `HttpClient::Response`. -/
structure ClientResponse where
  ok : Bool := false
  status : ℕ := 0
  body : String := ""
  deriving DecidableEq, Repr

/-- An asynchronous operation of a session. -/
inductive SessionOp where
  | resolve
  | connect
  | tlsHandshake
  | write
  | read
  deriving DecidableEq, Repr

/-- How it completes. -/
inductive SessionOutcome where
  | failed (message : String)
  | ok
  /-- `connect` succeeds, but the name for the handshake cannot be set. -/
  | noServerName
  | response (status : ℕ) (body : String)
  deriving DecidableEq, Repr

/-- A session: the outstanding operation and the time when the stream's timer expires; and, as
    history, the operations that were started, when the name was resolved, whether the
    handshake has succeeded, and the calls of the caller's function. -/
structure ClientSession where
  url : Url
  timeoutSec : ℕ
  now : ℕ := 0
  operation : Option SessionOp := some .resolve
  expiry : Option ℕ := none
  completed : Bool := false
  started : List SessionOp := [.resolve]
  resolvedAt : Option ℕ := none
  secured : Bool := false
  responses : List ClientResponse := []
  deriving DecidableEq

namespace ClientSession

/-- An operation is started. -/
def start (s : ClientSession) (op : SessionOp) : ClientSession :=
  { s with operation := some op, started := s.started ++ [op] }

/-- `expires_after`. -/
def expiresAfter (s : ClientSession) : ClientSession :=
  { s with expiry := some (s.now + s.timeoutSec) }

/-- `Finish`, with `Shutdown`. -/
def finish (s : ClientSession) (ok : Bool) (status : ℕ) (body : String) : ClientSession :=
  if s.completed then s
  else { s with
    completed := true
    operation := none
    expiry := none
    responses := s.responses ++ [⟨ok, status, body⟩] }

/-- A failure before there is a response. -/
def fail (s : ClientSession) (reason : String) : ClientSession := s.finish false 0 reason

/-- `Write`. -/
def write (s : ClientSession) : ClientSession := s.expiresAfter.start .write

/-- `OnResolve`. -/
def onResolve (s : ClientSession) : SessionOutcome → ClientSession
  | .failed message =>
    s.fail ("Failed to resolve " ++ String.ofList s.url.host ++ ": " ++ message)
  | _ => { s with resolvedAt := some s.now }.expiresAfter.start .connect

/-- `OnConnect`. -/
def onConnect (s : ClientSession) : SessionOutcome → ClientSession
  | .failed message =>
    s.fail ("Failed to connect to " ++ String.ofList s.url.host ++ ": " ++ message)
  | outcome =>
    if s.url.useTls then
      if outcome = .noServerName then s.fail "Failed to set SNI hostname"
      else s.start .tlsHandshake
    else s.write

/-- `OnTlsHandshake`. -/
def onTlsHandshake (s : ClientSession) : SessionOutcome → ClientSession
  | .failed message =>
    s.fail ("Failed to tls handshake with " ++ String.ofList s.url.host ++ ": " ++ message)
  | _ => { s with secured := true }.write

/-- The handler of `async_write`, with `Read`. -/
def onWrite (s : ClientSession) : SessionOutcome → ClientSession
  | .failed message => s.fail ("Failed to send request: " ++ message)
  | _ => s.start .read

/-- `OnRead`. -/
def onRead (s : ClientSession) : SessionOutcome → ClientSession
  | .failed message => s.fail ("Failed to read response: " ++ message)
  | .response status body => s.finish (200 ≤ status ∧ status < 300) status body
  | _ => s

/-- The handler of an operation. -/
def handle (s : ClientSession) : SessionOp → SessionOutcome → ClientSession
  | .resolve => s.onResolve
  | .connect => s.onConnect
  | .tlsHandshake => s.onTlsHandshake
  | .write => s.onWrite
  | .read => s.onRead

end ClientSession

/-- The outstanding operation completes. -/
structure Completion where
  time : ℕ
  outcome : SessionOutcome
  deriving DecidableEq, Repr

/-- An operation can complete in this way: only `read` with a response. -/
def SessionOp.Completes : SessionOp → SessionOutcome → Prop
  | .read, .failed _ | .read, .response _ _ => True
  | .read, _ => False
  | .connect, .response _ _ => False
  | .connect, _ => True
  | _, .failed _ | _, .ok => True
  | _, _ => False

instance : DecidableRel SessionOp.Completes := fun op outcome => by
  unfold SessionOp.Completes
  split <;> infer_instance

/-- The outstanding operation completes, at the latest when the timer expires. -/
def sessionStep (s : ClientSession) (a : Completion) : Option ClientSession :=
  match s.operation with
  | none => none
  | some op =>
    if op.Completes a.outcome ∧ s.now ≤ a.time ∧ ∀ expiry ∈ s.expiry, a.time ≤ expiry then
      some ({ s with now := a.time, operation := none }.handle op a.outcome)
    else none

/-- `Send` with an url that was parsed, after `Start`. -/
def httpClient (url : Url) (timeoutSec : ℕ) : Machine ClientSession Completion where
  init := { url := url, timeoutSec := timeoutSec }
  step := sessionStep

/-! ### What a caller can rely on -/

/-- The operations of a session, one after the other. -/
def script (useTls : Bool) : List SessionOp :=
  [.resolve, .connect] ++ (if useTls then [.tlsHandshake] else []) ++ [.write, .read]

/-- The caller's function is called once, when nothing is outstanding, with success exactly for a
    2xx status; operations come in order, of which `write` is protected if it has to be; and once
    the name was resolved, everything is over within two timeouts, the second of which begins
    with `write`. -/
structure OneCallback (url : Url) (timeoutSec : ℕ) (s : ClientSession) : Prop where
  once : s.responses.length = if s.operation.isSome then 0 else 1
  ok : ∀ r ∈ s.responses, r.ok = true ↔ 200 ≤ r.status ∧ r.status < 300
  read : ∀ r ∈ s.responses, r.status ≠ 0 → .read ∈ s.started
  inOrder : s.started <+: script url.useTls
  secured : url.useTls → .write ∈ s.started → s.secured
  inTime : ∀ t ∈ s.resolvedAt, s.now ≤ t + 2 * timeoutSec ∧
    (s.operation.isSome → ∃ e ∈ s.expiry, e ≤ t + 2 * timeoutSec)

/-- The script up to an operation. -/
def scriptUpTo (useTls : Bool) : SessionOp → List SessionOp
  | .resolve => [.resolve]
  | .connect => [.resolve, .connect]
  | .tlsHandshake => [.resolve, .connect, .tlsHandshake]
  | .write => [.resolve, .connect] ++ (if useTls then [.tlsHandshake] else []) ++ [.write]
  | .read => script useTls

/-- The number of timeouts within which an operation completes. -/
def SessionOp.patience : SessionOp → ℕ
  | .resolve => 0
  | .connect | .tlsHandshake => 1
  | .write | .read => 2

/-- `op` is the last operation that was started. -/
structure LastStarted (url : Url) (timeoutSec : ℕ) (op : SessionOp) (s : ClientSession) :
    Prop where
  url_eq : s.url = url
  timeout_eq : s.timeoutSec = timeoutSec
  started : s.started = scriptUpTo url.useTls op
  tls : op = .tlsHandshake → url.useTls
  secured : url.useTls → op = .write ∨ op = .read → s.secured

/-- The session waits for `op` or handles its completion. -/
structure Handling (url : Url) (timeoutSec : ℕ) (op : SessionOp) (s : ClientSession) : Prop
    extends LastStarted url timeoutSec op s where
  responses : s.responses = []
  completed : s.completed = false
  expiry : op = .resolve ∧ s.resolvedAt = none ∧ s.expiry = none ∨
    ∃ t e, s.resolvedAt = some t ∧ s.expiry = some e ∧ s.now ≤ e ∧
      e ≤ t + op.patience * timeoutSec

/-- The caller's function was called. -/
structure Answered (url : Url) (timeoutSec : ℕ) (op : SessionOp) (s : ClientSession) : Prop
    extends LastStarted url timeoutSec op s where
  operation : s.operation = none
  response : ∃ r, s.responses = [r] ∧ (r.ok = true ↔ 200 ≤ r.status ∧ r.status < 300) ∧
    (r.status ≠ 0 → op = .read)
  inTime : ∀ t ∈ s.resolvedAt, s.now ≤ t + 2 * timeoutSec

/-- The invariant. -/
def SessionRuns (url : Url) (timeoutSec : ℕ) (s : ClientSession) : Prop :=
  ∃ op, s.operation = some op ∧ Handling url timeoutSec op s ∨ Answered url timeoutSec op s

section Steps

variable {url : Url} {timeoutSec : ℕ} {op : SessionOp} {s s' : ClientSession}

theorem scriptUpTo_isPrefix (useTls : Bool) (htls : op = .tlsHandshake → useTls) :
    scriptUpTo useTls op <+: script useTls := by
  cases op with
  | tlsHandshake =>
    rw [htls rfl]
    exact ⟨[.write, .read], rfl⟩
  | resolve => exact ⟨_, rfl⟩
  | connect => exact ⟨(if useTls then [.tlsHandshake] else []) ++ [.write, .read], rfl⟩
  | write => exact ⟨[.read], List.append_assoc ..⟩
  | read => exact List.prefix_rfl

theorem mem_scriptUpTo_write {useTls : Bool} (h : .write ∈ scriptUpTo useTls op) :
    op = .write ∨ op = .read := by
  cases op with
  | resolve | connect | tlsHandshake => exact absurd h (by cases useTls <;> decide)
  | write => exact .inl rfl
  | read => exact .inr rfl

theorem SessionOp.patience_le (op : SessionOp) : op.patience ≤ 2 := by
  cases op <;> decide

theorem Handling.now_le (h : Handling url timeoutSec op s) :
    ∀ t ∈ s.resolvedAt, s.now ≤ t + 2 * timeoutSec := by
  rcases h.expiry with ⟨-, hnone, -⟩ | ⟨t, e, ht, -, hnow, hle⟩
  · rw [hnone]
    rintro _ ⟨⟩
  · rw [ht]
    rintro _ ⟨⟩
    refine hnow.trans (hle.trans (Nat.add_le_add_left ?_ t))
    exact Nat.mul_le_mul_right _ op.patience_le

/-- `Finish` calls the caller's function. -/
theorem Handling.finish (h : Handling url timeoutSec op s) {ok : Bool} {status : ℕ}
    (body : String) (hok : ok = true ↔ 200 ≤ status ∧ status < 300)
    (hread : status ≠ 0 → op = .read) :
    Answered url timeoutSec op (s.finish ok status body) := by
  rw [ClientSession.finish, h.completed, if_neg Bool.false_ne_true]
  refine ⟨⟨h.url_eq, h.timeout_eq, h.started, h.tls, h.secured⟩, rfl, ?_, h.now_le⟩
  exact ⟨_, congrArg (· ++ [_]) h.responses, hok, hread⟩

theorem Handling.fail (h : Handling url timeoutSec op s) (reason : String) :
    Answered url timeoutSec op (s.fail reason) :=
  h.finish reason (by decide) fun h => absurd rfl h

/-- The next operation goes on under the same timer. -/
theorem Handling.start (h : Handling url timeoutSec op s) {next : SessionOp}
    (hstarted : scriptUpTo url.useTls next = scriptUpTo url.useTls op ++ [next])
    (htls : next = .tlsHandshake → url.useTls)
    (hsecured : url.useTls → next = .write ∨ next = .read → s.secured)
    (hresolve : op ≠ .resolve) (hpatience : op.patience ≤ next.patience) :
    Handling url timeoutSec next (s.start next) := by
  refine ⟨⟨h.url_eq, h.timeout_eq, ?_, htls, hsecured⟩, h.responses, h.completed, ?_⟩
  · rw [hstarted, ← h.started]
    rfl
  · rcases h.expiry with ⟨hop, -⟩ | ⟨t, e, ht, he, hnow, hle⟩
    · exact absurd hop hresolve
    · refine .inr ⟨t, e, ht, he, hnow, hle.trans (Nat.add_le_add_left ?_ t)⟩
      exact Nat.mul_le_mul_right _ hpatience

/-- `Write` sets the timer anew. -/
theorem Handling.write (h : Handling url timeoutSec op s)
    (hstarted : scriptUpTo url.useTls .write = scriptUpTo url.useTls op ++ [.write])
    (hsecured : url.useTls → s.secured) (hpatience : op.patience = 1) :
    Handling url timeoutSec .write s.write := by
  refine ⟨⟨h.url_eq, h.timeout_eq, ?_, by rintro ⟨⟩, fun htls _ => hsecured htls⟩, h.responses,
    h.completed, ?_⟩
  · rw [hstarted, ← h.started]
    rfl
  · rcases h.expiry with ⟨rfl, -⟩ | ⟨t, e, ht, -, hnow, hle⟩
    · exact absurd hpatience (by decide)
    · refine .inr ⟨t, _, ht, rfl, Nat.le_add_right _ _, ?_⟩
      show s.now + s.timeoutSec ≤ t + 2 * timeoutSec
      rw [hpatience, Nat.one_mul] at hle
      rw [h.timeout_eq]
      omega

/-! #### The handlers -/

theorem Handling.onResolve (h : Handling url timeoutSec .resolve s) (outcome : SessionOutcome) :
    Handling url timeoutSec .connect (s.onResolve outcome) ∧
        (s.onResolve outcome).operation = some .connect ∨
      Answered url timeoutSec .resolve (s.onResolve outcome) := by
  have hstart : Handling url timeoutSec .connect
      ({ s with resolvedAt := some s.now }.expiresAfter.start .connect) := by
    refine ⟨⟨h.url_eq, h.timeout_eq, congrArg (· ++ [_]) h.started, by rintro ⟨⟩, ?_⟩,
      h.responses, h.completed, .inr ⟨s.now, _, rfl, rfl, Nat.le_add_right _ _, ?_⟩⟩
    · rintro - (hop | hop) <;> cases hop
    · show s.now + s.timeoutSec ≤ s.now + 1 * timeoutSec
      rw [h.timeout_eq, Nat.one_mul]
  cases outcome with
  | failed message => exact .inr (h.fail _)
  | ok => exact .inl ⟨hstart, rfl⟩
  | noServerName => exact .inl ⟨hstart, rfl⟩
  | response status body => exact .inl ⟨hstart, rfl⟩

theorem Handling.onConnect (h : Handling url timeoutSec .connect s) (outcome : SessionOutcome) :
    SessionRuns url timeoutSec (s.onConnect outcome) := by
  have hrest : SessionRuns url timeoutSec
      (if s.url.useTls then
        if outcome = .noServerName then s.fail "Failed to set SNI hostname"
        else s.start .tlsHandshake
      else s.write) := by
    rw [h.url_eq]
    split
    case isTrue htls =>
      split
      case isTrue => exact ⟨.connect, .inr (h.fail _)⟩
      case isFalse =>
        refine ⟨.tlsHandshake, .inl ⟨rfl, h.start rfl (fun _ => htls) ?_ (by rintro ⟨⟩) le_rfl⟩⟩
        rintro - (hop | hop) <;> cases hop
    case isFalse hplain =>
      refine ⟨.write, .inl ⟨rfl, h.write ?_ (fun htls => absurd htls hplain) rfl⟩⟩
      rw [eq_false_of_ne_true hplain]
      rfl
  cases outcome with
  | failed message => exact ⟨.connect, .inr (h.fail _)⟩
  | ok | noServerName | response status body => exact hrest

theorem Handling.onTlsHandshake (h : Handling url timeoutSec .tlsHandshake s)
    (outcome : SessionOutcome) : SessionRuns url timeoutSec (s.onTlsHandshake outcome) := by
  have hwrite : SessionRuns url timeoutSec { s with secured := true }.write := by
    have hsecured : Handling url timeoutSec .tlsHandshake { s with secured := true } :=
      ⟨⟨h.url_eq, h.timeout_eq, h.started, h.tls, fun _ _ => rfl⟩, h.responses, h.completed,
        h.expiry⟩
    refine ⟨.write, .inl ⟨rfl, hsecured.write ?_ (fun _ => rfl) rfl⟩⟩
    rw [h.tls rfl]
    rfl
  cases outcome with
  | failed message => exact ⟨.tlsHandshake, .inr (h.fail _)⟩
  | ok | noServerName | response status body => exact hwrite

theorem Handling.onWrite (h : Handling url timeoutSec .write s) (outcome : SessionOutcome) :
    SessionRuns url timeoutSec (s.onWrite outcome) := by
  have hread : SessionRuns url timeoutSec (s.start .read) := by
    refine ⟨.read, .inl ⟨rfl, h.start ?_ (by rintro ⟨⟩) ?_ (by rintro ⟨⟩) le_rfl⟩⟩
    · rw [scriptUpTo, scriptUpTo, script, List.append_assoc _ [SessionOp.write]]
      rfl
    · exact fun htls _ => h.secured htls (.inl rfl)
  cases outcome with
  | failed message => exact ⟨.write, .inr (h.fail _)⟩
  | ok | noServerName | response status body => exact hread

theorem Handling.onRead (h : Handling url timeoutSec .read s) {outcome : SessionOutcome}
    (hcompletes : SessionOp.read.Completes outcome) :
    SessionRuns url timeoutSec (s.onRead outcome) := by
  cases outcome with
  | failed message => exact ⟨.read, .inr (h.fail _)⟩
  | response status body =>
    exact ⟨.read, .inr (h.finish body decide_eq_true_iff fun _ => rfl)⟩
  | ok | noServerName => exact absurd hcompletes id

theorem SessionRuns.step (h : SessionRuns url timeoutSec s) {a : Completion}
    (hs : sessionStep s a = some s') : SessionRuns url timeoutSec s' := by
  obtain ⟨op, ⟨hop, h⟩ | h⟩ := h
  · rw [sessionStep, hop] at hs
    obtain ⟨⟨hcompletes, hnow, hexpiry⟩, hs⟩ := Option.ite_none_right_eq_some.mp hs
    obtain rfl := Option.some.inj hs
    have hnext : Handling url timeoutSec op { s with now := a.time, operation := none } := by
      refine ⟨⟨h.url_eq, h.timeout_eq, h.started, h.tls, h.secured⟩, h.responses, h.completed, ?_⟩
      refine h.expiry.imp_right ?_
      rintro ⟨t, e, ht, he, -, hle⟩
      exact ⟨t, e, ht, he, hexpiry e he, hle⟩
    cases op with
    | resolve =>
      rcases hnext.onResolve a.outcome with ⟨hconnect, hop⟩ | hanswered
      · exact ⟨.connect, .inl ⟨hop, hconnect⟩⟩
      · exact ⟨.resolve, .inr hanswered⟩
    | connect => exact hnext.onConnect a.outcome
    | tlsHandshake => exact hnext.onTlsHandshake a.outcome
    | write => exact hnext.onWrite a.outcome
    | read => exact hnext.onRead hcompletes
  · rw [sessionStep, h.operation] at hs
    cases hs

theorem SessionRuns.toOneCallback (h : SessionRuns url timeoutSec s) :
    OneCallback url timeoutSec s := by
  obtain ⟨op, ⟨hop, h⟩ | h⟩ := h
  · refine ⟨?_, ?_, ?_, ?_, ?_, fun t ht => ⟨h.now_le t ht, fun _ => ?_⟩⟩
    · rw [h.responses, hop]
      rfl
    · rw [h.responses]
      exact fun _ hr => absurd hr List.not_mem_nil
    · rw [h.responses]
      exact fun _ hr => absurd hr List.not_mem_nil
    · rw [h.started]
      exact scriptUpTo_isPrefix _ h.tls
    · intro htls hwrite
      rw [h.started] at hwrite
      exact h.secured htls (mem_scriptUpTo_write hwrite)
    · rcases h.expiry with ⟨-, hnone, -⟩ | ⟨t', e, ht', he, -, hle⟩
      · exact nomatch ht.symm.trans hnone
      · obtain rfl := Option.some.inj (ht.symm.trans ht')
        refine ⟨e, he, hle.trans (Nat.add_le_add_left ?_ t)⟩
        exact Nat.mul_le_mul_right _ op.patience_le
  · obtain ⟨r, hr, hok, hread⟩ := h.response
    refine ⟨?_, ?_, ?_, ?_, ?_, fun t ht => ⟨h.inTime t ht, fun hsome => ?_⟩⟩
    · rw [hr, h.operation]
      rfl
    · rw [hr]
      intro r' hr'
      rw [List.mem_singleton.mp hr']
      exact hok
    · rw [hr]
      intro r' hr' hstatus
      rw [List.mem_singleton.mp hr'] at hstatus
      rw [h.started, hread hstatus]
      exact List.mem_append_right _ (List.mem_cons_of_mem _ (List.mem_cons_self ..))
    · rw [h.started]
      exact scriptUpTo_isPrefix _ h.tls
    · intro htls hwrite
      rw [h.started] at hwrite
      exact h.secured htls (mem_scriptUpTo_write hwrite)
    · rw [h.operation] at hsome
      exact absurd hsome Bool.false_ne_true

end Steps

/-- **One callback.** In every run of a request the url of which was parsed, whatever its operations
    end with, the caller's function is called once and last, within two timeouts from when the name
    was resolved, with success exactly for a 2xx response; and an https request is only written when
    the handshake has succeeded. -/
theorem oneCallback (url : Url) (timeoutSec : ℕ) (as : List Completion) (s : ClientSession)
    (hrun : (httpClient url timeoutSec).run as = some s) : OneCallback url timeoutSec s := by
  refine (Machine.run_invariant (P := SessionRuns url timeoutSec) ?_ (fun _ _ _ h hs => h.step hs)
    hrun).toOneCallback
  exact ⟨.resolve, .inl ⟨rfl, ⟨⟨rfl, rfl, rfl, by rintro ⟨⟩, by rintro - (hop | hop) <;> cases hop⟩,
    rfl, rfl, .inl ⟨rfl, rfl, rfl⟩⟩⟩⟩

/-- A request over TLS that is answered with 404. -/
def notFound : List Completion :=
  [⟨3, .ok⟩, ⟨5, .ok⟩, ⟨12, .ok⟩, ⟨14, .ok⟩, ⟨21, .response 404 "no such room"⟩]

theorem oneCallback_notFound : ∃ s,
    (httpClient { useTls := true, host := "a.b".toList, port := 443 } 10).run notFound = some s ∧
      OneCallback { useTls := true, host := "a.b".toList, port := 443 } 10 s :=
  ⟨_, rfl, oneCallback { useTls := true, host := "a.b".toList, port := 443 } 10 notFound _ rfl⟩

/-! ### The Host field -/

/-- `host_header`: the port is left out where it is the default. -/
def hostHeader (url : Url) : List Char :=
  url.host ++ if (url.port = 80 ∧ url.useTls = false) ∨ (url.port = 443 ∧ url.useTls = true) then []
    else ':' :: decimal 0 url.port

/-- The port of a scheme. -/
def defaultPort (useTls : Bool) : ℕ := if useTls then 443 else 80

/-- A Host field is read as the authority of an url is. -/
def NamesAuthority (url : Url) (header : List Char) : Prop :=
  ∃ tail, splitHost header = some (url.host, tail) ∧
    PortWritten (defaultPort url.useTls) url.port tail

theorem portWritten_hostHeader {url : Url} (hport : 1 ≤ url.port ∧ url.port ≤ 65535) :
    ∃ tail, hostHeader url = url.host ++ tail ∧ (tail = [] ∨ ∃ port, tail = ':' :: port) ∧
      ']' ∉ tail ∧ PortWritten (defaultPort url.useTls) url.port tail := by
  rw [hostHeader]
  split
  case isTrue hdefault =>
    refine ⟨[], rfl, .inl rfl, List.not_mem_nil, .inl ⟨rfl, ?_⟩⟩
    rcases hdefault with ⟨hport, htls⟩ | ⟨hport, htls⟩
    · rw [hport, htls]
      rfl
    · rw [hport, htls]
      rfl
  case isFalse =>
    refine ⟨_, rfl, .inr ⟨_, rfl⟩, fun hmem => ?_, .inr ⟨_, rfl, ⟨digits_decimal 0 _, ?_⟩, ?_⟩⟩
    · rcases List.mem_cons.mp hmem with hcolon | hmem
      · exact absurd hcolon (by decide)
      · exact absurd (digits_decimal 0 _ _ hmem) (by decide)
    · rw [value_decimal]
      exact hport
    · rw [value_decimal]

/-- **The Host field is right, exactly** for a host without colons (and an opening bracket):
    unlike the WebSocket client, this one does not put an IPv6 address back into brackets. -/
theorem hostHeader_iff (url : Url) (hne : url.host ≠ [])
    (hport : 1 ≤ url.port ∧ url.port ≤ 65535) :
    NamesAuthority url (hostHeader url) ↔ ':' ∉ url.host ∧ url.host.head? ≠ some '[' := by
  obtain ⟨tail, htail, hcolon, hclose, hwritten⟩ := portWritten_hostHeader hport
  have hhead : (url.host ++ tail).head? = url.host.head? := by
    obtain ⟨c, cs, hhost⟩ := List.exists_cons_of_ne_nil hne
    rw [hhost]
    rfl
  rw [NamesAuthority, htail]
  constructor
  · rintro ⟨tail', hsplit, -⟩
    rw [splitHost, hhead] at hsplit
    split_ifs at hsplit with hbracket hmem
    · -- the bracket that closes is one of the host, so the host is cut short
      have hin : ']' ∈ url.host := (List.mem_append.mp hmem).resolve_right hclose
      rw [← (Prod.mk.inj (Option.some.inj hsplit)).1] at hin
      have hc := List.mem_takeWhile_imp hin
      exact absurd rfl (of_decide_eq_true hc)
    · refine ⟨fun hin => ?_, hbracket⟩
      rw [← (Prod.mk.inj (Option.some.inj hsplit)).1] at hin
      have hc := List.mem_takeWhile_imp hin
      exact absurd rfl (of_decide_eq_true hc)
  · rintro ⟨hplain, hhead⟩
    exact ⟨tail, splitHost_append (.inl ⟨rfl, hhead, hplain⟩) hne hcolon, hwritten⟩

/-- `Host: ::1:8080` does not name the host `::1`. -/
theorem hostHeader_iff_loopback :
    ¬ NamesAuthority { host := "::1".toList, port := 8080 } "::1:8080".toList := by
  have h := hostHeader_iff { host := "::1".toList, port := 8080 } (by decide) (by decide)
  exact fun hnames => (h.mp hnames).1 (by decide)

end PiWebrtc.Signaling
