import PiWebrtc.Lib.SortedMap
import PiWebrtc.Rtc.CFloat
import Mathlib.Data.Int.Notation
import Mathlib.Data.List.Induction
import Mathlib.Data.String.Basic

namespace PiWebrtc.Ipc

open Rtc (CFloat)

/-!
# The gamepad endpoint

The endpoint keeps the last report of every gamepad that is still sending and publishes all of
them, as one snapshot, whenever one reports or is closed.  No timer runs: a gamepad that went
silent is dropped at the next such event.

* `GamepadEndpoint.handle` — the events, one after another.
* `lastReport` — what the history says of a remote, by no state of the endpoint.
* `Remembers` — the invariant: the map holds last reports only, and a last report that it does
  not hold was too old at some event.
* `snapshots_exact` — so every snapshot is exact.

How a payload is parsed and how a coordinate is printed are parameters of the endpoint; what the
source prints is `clampForJson`, but for the digits.
-/

/-- `protocol::InputReport::timestamp`. -/
structure InputTimestamp where
  monotonicNs : UInt64
  unixNs : Option UInt64
  deriving DecidableEq, Repr

/-- `protocol::InputReport::gamepad`, with coordinates of type `α`. -/
structure GamepadReport (α : Type) where
  leftX : α
  leftY : α
  rightX : α
  rightY : α
  leftTrigger : α
  rightTrigger : α
  buttons : UInt32
  standardMapping : Bool
  deriving DecidableEq, Repr

/-- `protocol::InputReport`. -/
structure InputReport (α : Type) where
  sequence : UInt64
  timestamp : Option InputTimestamp
  gamepad : Option (GamepadReport α)
  deriving DecidableEq, Repr

/-- The state of a gamepad as it is printed, with printed coordinates of type `δ`. -/
structure GamepadState (δ : Type) where
  sequence : UInt64
  timestamp : Option InputTimestamp
  leftX : δ
  leftY : δ
  rightX : δ
  rightY : δ
  leftTrigger : δ
  rightTrigger : δ
  buttons : UInt32
  pressed : List String
  standardMapping : Bool
  deriving DecidableEq, Repr

/-- `ParseFromString`, and `ClampForJson` of a coordinate between two bounds. -/
structure InputCodec (α δ : Type) where
  parseFromString : List UInt8 → Option (InputReport α)
  clampForJson : α → ℤ → ℤ → δ

/-- `ClampForJson`, which prints what is no number, and either zero, as 0; `print` gives the
    shortest decimal of a `float`. -/
def clampForJson {δ : Type} (print : CFloat → δ) (value : CFloat) (lo hi : ℤ) : δ :=
  let value : CFloat :=
    match value with
    | .finite q => .finite q
    | _ => .finite 0
  print (value.clamp lo hi)

/-- Bit `N` is button `N` of the standard mapping. -/
def kButtonNames : List String :=
  ["a", "b", "x", "y", "lb", "rb", "lt", "rt", "back", "start", "l3", "r3", "dpad_up",
    "dpad_down", "dpad_left", "dpad_right", "guide"]

/-- The names of the buttons that are down. -/
def pressedNames (buttons : UInt32) : List String :=
  (kButtonNames.zipIdx.filter fun b => buttons.toNat.testBit b.2).map Prod.fst

variable {α δ : Type}

namespace InputCodec

variable (codec : InputCodec α δ)

/-- `ToJson`. -/
def toJson (report : InputReport α) (pad : GamepadReport α) : GamepadState δ where
  sequence := report.sequence
  timestamp := report.timestamp
  leftX := codec.clampForJson pad.leftX (-1) 1
  leftY := codec.clampForJson pad.leftY (-1) 1
  rightX := codec.clampForJson pad.rightX (-1) 1
  rightY := codec.clampForJson pad.rightY (-1) 1
  leftTrigger := codec.clampForJson pad.leftTrigger 0 1
  rightTrigger := codec.clampForJson pad.rightTrigger 0 1
  buttons := pad.buttons
  pressed := pressedNames pad.buttons
  standardMapping := pad.standardMapping

/-- The state that a payload reports, if it is a gamepad report. -/
def stateOf (payload : List UInt8) : Option (GamepadState δ) :=
  match codec.parseFromString payload with
  | none => none
  | some report => report.gamepad.map (codec.toJson report)

end InputCodec

/-- `Gamepad`: times are nanoseconds of the steady clock. -/
structure Gamepad (δ : Type) where
  state : GamepadState δ
  lastReceived : ℕ
  deriving DecidableEq, Repr

/-- What `PublishLocked` prints. -/
structure GamepadSnapshot (δ : Type) where
  deviceMonotonicNs : UInt64
  gamepads : List (String × GamepadState δ)
  deriving DecidableEq, Repr

/-- The fields of `GamepadEndpoint`; `published` is history. -/
structure GamepadEndpoint (δ : Type) where
  gamepads : SortedMap String (Gamepad δ) := .empty
  published : List (GamepadSnapshot δ) := []

/-- An event, with the time that the endpoint reads from the clock. -/
inductive GamepadEvent where
  | write (remoteId : String) (payload : List UInt8) (now : ℕ)
  | onRemoteClosed (remoteId : String) (now : ℕ)
  deriving DecidableEq, Repr

def GamepadEvent.now : GamepadEvent → ℕ
  | write _ _ now => now
  | onRemoteClosed _ now => now

namespace GamepadEndpoint

/-- A gamepad silent this long counts as gone. -/
def kTimeout : ℤ := 500000000

/-- The gamepad has not been silent for too long. -/
def fresh (now : ℕ) (g : Gamepad δ) : Bool := ¬ ((now : ℤ) - g.lastReceived > kTimeout)

/-- `PruneLocked`. -/
def pruneLocked (e : GamepadEndpoint δ) (now : ℕ) : GamepadEndpoint δ :=
  { e with gamepads := e.gamepads.filter fun entry => fresh now entry.2 }

/-- The states of the map, in key order. -/
def states (e : GamepadEndpoint δ) : List (String × GamepadState δ) :=
  e.gamepads.entries.map fun entry => (entry.1, entry.2.state)

/-- `PublishLocked`. -/
def publishLocked (e : GamepadEndpoint δ) (now : ℕ) : GamepadEndpoint δ :=
  { e with published := e.published ++ [⟨UInt64.ofNat now, e.states⟩] }

/-- `Start`. -/
def start (e : GamepadEndpoint δ) (now : ℕ) : GamepadEndpoint δ := e.publishLocked now

/-- The locked section of `Write`. -/
def writeLocked (e : GamepadEndpoint δ) (remoteId : String) (state : GamepadState δ) (now : ℕ) :
    GamepadEndpoint δ :=
  let e := { e with gamepads := e.gamepads.insert remoteId ⟨state, now⟩ }
  (e.pruneLocked now).publishLocked now

/-- The locked section of `OnRemoteClosed`. -/
def onRemoteClosedLocked (e : GamepadEndpoint δ) (remoteId : String) (now : ℕ) :
    GamepadEndpoint δ :=
  if remoteId ∈ e.gamepads.keys then
    let e := { e with gamepads := e.gamepads.erase remoteId }
    (e.pruneLocked now).publishLocked now
  else e

/-- Handle an event. -/
def handle (codec : InputCodec α δ) (e : GamepadEndpoint δ) : GamepadEvent → GamepadEndpoint δ
  | .write remoteId payload now =>
    match codec.stateOf payload with
    | none => e
    | some state => e.writeLocked remoteId state now
  | .onRemoteClosed remoteId now => e.onRemoteClosedLocked remoteId now

/-- Start at `t` and handle the events one after another. -/
def run (codec : InputCodec α δ) (t : ℕ) (events : List GamepadEvent) : GamepadEndpoint δ :=
  events.foldl (handle codec) (start {} t)

/-- An event that changes nothing: an invalid payload, or closing an unknown remote. -/
def Ignored (codec : InputCodec α δ) (e : GamepadEndpoint δ) : GamepadEvent → Prop
  | .write _ payload _ => codec.stateOf payload = none
  | .onRemoteClosed remoteId _ => remoteId ∉ e.gamepads.keys

end GamepadEndpoint

/-! ### What the history says -/

/-- What an event says of remote `r`, after what the earlier ones said: its last valid report
    and the time of it, unless it was closed since. -/
def reportAfter (codec : InputCodec α δ) (r : String) (last : Option (ℕ × GamepadState δ)) :
    GamepadEvent → Option (ℕ × GamepadState δ)
  | .write remoteId payload now =>
    if remoteId = r then
      match codec.stateOf payload with
      | none => last
      | some state => some (now, state)
    else last
  | .onRemoteClosed remoteId _ => if remoteId = r then none else last

/-- The last valid report of remote `r`, unless it was closed since. -/
def lastReport (codec : InputCodec α δ) (history : List GamepadEvent) (r : String) :
    Option (ℕ × GamepadState δ) :=
  history.foldl (reportAfter codec r) none

/-- The snapshot of time `now` lists the remotes whose last report is at most half a second
    old, each with the state of that report. -/
structure SnapshotExact (codec : InputCodec α δ) (history : List GamepadEvent) (now : ℕ)
    (snapshot : GamepadSnapshot δ) : Prop where
  stamp : snapshot.deviceMonotonicNs = UInt64.ofNat now
  sorted : snapshot.gamepads.Pairwise fun a b => a.1 < b.1
  listed : ∀ r state, (r, state) ∈ snapshot.gamepads ↔
    ∃ t, lastReport codec history r = some (t, state) ∧
      (now : ℤ) - t ≤ GamepadEndpoint.kTimeout

/-! ### The map and the history -/

/-- The map holds last reports only; a last report that it does not hold had been silent for
    too long at some event, and what it holds is what was published last. -/
structure Remembers (codec : InputCodec α δ) (history : List GamepadEvent)
    (e : GamepadEndpoint δ) : Prop where
  held : ∀ r g, (r, g) ∈ e.gamepads.entries →
    lastReport codec history r = some (g.lastReceived, g.state)
  dropped : ∀ r t state, lastReport codec history r = some (t, state) →
    (r, ⟨state, t⟩) ∈ e.gamepads.entries ∨
      ∃ ev ∈ history, GamepadEndpoint.kTimeout < (ev.now : ℤ) - t
  shown : e.published.getLast?.map GamepadSnapshot.gamepads = some e.states

section History

variable {codec : InputCodec α δ} {history : List GamepadEvent} {ev : GamepadEvent}

theorem lastReport_append (r : String) :
    lastReport codec (history ++ [ev]) r =
      reportAfter codec r (lastReport codec history r) ev := by
  rw [lastReport, List.foldl_append]
  rfl

namespace Remembers

variable {e : GamepadEndpoint δ}

/-- An ignored event is no report and closes no gamepad that is held. -/
theorem ignored (h : Remembers codec history e) (hig : e.Ignored codec ev) :
    Remembers codec (history ++ [ev]) e := by
  have hmono : ∀ r t state, lastReport codec history r = some (t, state) →
      (r, ⟨state, t⟩) ∈ e.gamepads.entries ∨
        ∃ ev' ∈ history ++ [ev], GamepadEndpoint.kTimeout < (ev'.now : ℤ) - t := by
    intro r t state hlast
    exact (h.dropped r t state hlast).imp_right fun ⟨ev', hmem, hold⟩ =>
      ⟨ev', List.mem_append_left _ hmem, hold⟩
  cases ev with
  | write remoteId payload now =>
    have hsame : ∀ r, lastReport codec (history ++ [.write remoteId payload now]) r =
        lastReport codec history r := by
      intro r
      rw [lastReport_append, reportAfter, show codec.stateOf payload = none from hig]
      simp
    refine ⟨fun r g hg => (hsame r).trans (h.held r g hg), fun r t state hlast => ?_, h.shown⟩
    exact hmono r t state ((hsame r).symm.trans hlast)
  | onRemoteClosed remoteId now =>
    have hsame : ∀ r, r ≠ remoteId →
        lastReport codec (history ++ [.onRemoteClosed remoteId now]) r =
          lastReport codec history r := by
      intro r hne
      rw [lastReport_append, reportAfter, if_neg (Ne.symm hne)]
    refine ⟨fun r g hg => ?_, fun r t state hlast => ?_, h.shown⟩
    · have hne : r ≠ remoteId := by
        rintro rfl
        exact hig (List.mem_map_of_mem hg)
      exact (hsame r hne).trans (h.held r g hg)
    · rw [lastReport_append, reportAfter] at hlast
      split at hlast
      · cases hlast
      · exact hmono r t state hlast

/-- A map `m` that holds last reports only, and those that the endpoint held unless the event
    is about them, is pruned and published. -/
theorem prune_publish (h : Remembers codec history e) {m : SortedMap String (Gamepad δ)}
    (hheld : ∀ r g, (r, g) ∈ m.entries →
      lastReport codec (history ++ [ev]) r = some (g.lastReceived, g.state))
    (hkept : ∀ r t state, lastReport codec (history ++ [ev]) r = some (t, state) →
      (r, ⟨state, t⟩) ∈ m.entries ∨
        lastReport codec history r = some (t, state) ∧ (r, ⟨state, t⟩) ∉ e.gamepads.entries) :
    Remembers codec (history ++ [ev])
      (({ e with gamepads := m }.pruneLocked ev.now).publishLocked ev.now) := by
  refine ⟨fun r g hg => ?_, fun r t state hlast => ?_, ?_⟩
  · exact hheld r g (SortedMap.mem_filter.mp hg).1
  · rcases hkept r t state hlast with hmem | ⟨hold, hnot⟩
    · by_cases hfresh : GamepadEndpoint.fresh ev.now (⟨state, t⟩ : Gamepad δ) = true
      · exact .inl (SortedMap.mem_filter.mpr ⟨hmem, hfresh⟩)
      · -- it goes now, and this is the event at which it was too old
        refine .inr ⟨ev, List.mem_append_right _ (List.mem_singleton_self ev), ?_⟩
        rw [GamepadEndpoint.fresh, decide_eq_true_eq] at hfresh
        exact not_not.mp hfresh
    · rcases h.dropped r t state hold with hmem | ⟨ev', hmem, hsilent⟩
      · exact absurd hmem hnot
      · exact .inr ⟨ev', List.mem_append_left _ hmem, hsilent⟩
  · simp [GamepadEndpoint.publishLocked, GamepadEndpoint.pruneLocked, GamepadEndpoint.states]

/-- What is published then is exact, if no earlier event is later than this one. -/
theorem snapshotExact (h : Remembers codec (history ++ [ev])
      ((e.pruneLocked ev.now).publishLocked ev.now))
    (hsteady : ∀ ev' ∈ history ++ [ev], ev'.now ≤ ev.now) :
    SnapshotExact codec (history ++ [ev]) ev.now
      ⟨UInt64.ofNat ev.now, (e.pruneLocked ev.now).states⟩ := by
  refine ⟨rfl, ?_, fun r state => ?_⟩
  · exact List.pairwise_map.mpr (e.pruneLocked ev.now).gamepads.sorted
  · constructor
    · intro hmem
      obtain ⟨⟨r', g⟩, hg, heq⟩ := List.mem_map.mp hmem
      obtain ⟨rfl, rfl⟩ := Prod.mk.injEq .. ▸ heq
      refine ⟨g.lastReceived, h.held r' g hg, ?_⟩
      simpa [GamepadEndpoint.fresh] using (SortedMap.mem_filter.mp hg).2
    · rintro ⟨t, hlast, hle⟩
      rcases h.dropped r t state hlast with hmem | ⟨ev', hmem, hsilent⟩
      · exact List.mem_map_of_mem (f := fun entry => (entry.1, entry.2.state)) hmem
      · have hnow := hsteady ev' hmem
        omega

/-- **What an event does.** An event that is not ignored changes the map, prunes it and
    publishes it. -/
theorem handle_publishes (h : Remembers codec history e) (hig : ¬ e.Ignored codec ev) :
    ∃ m, e.handle codec ev =
        ({ e with gamepads := m }.pruneLocked ev.now).publishLocked ev.now ∧
      Remembers codec (history ++ [ev]) (e.handle codec ev) := by
  cases ev with
  | write remoteId payload now =>
    cases hstate : codec.stateOf payload with
    | none => exact absurd hstate hig
    | some state =>
      have hhandle : e.handle codec (.write remoteId payload now) =
          e.writeLocked remoteId state now := by
        rw [GamepadEndpoint.handle, hstate]
      have hnew : ∀ r, lastReport codec (history ++ [.write remoteId payload now]) r =
          if remoteId = r then some (now, state) else lastReport codec history r := by
        intro r
        rw [lastReport_append, reportAfter, hstate]
      refine ⟨e.gamepads.insert remoteId ⟨state, now⟩, hhandle, hhandle ▸ h.prune_publish ?_ ?_⟩
      · intro r g hg
        rcases SortedMap.mem_insert.mp hg with heq | ⟨hne, hold⟩
        · obtain ⟨rfl, rfl⟩ := Prod.mk.injEq .. ▸ heq
          rw [hnew, if_pos rfl]
        · rw [hnew, if_neg (Ne.symm hne)]
          exact h.held r g hold
      · intro r t st hlast
        rw [hnew] at hlast
        split at hlast
        case isTrue heq =>
          obtain ⟨rfl, rfl⟩ := Prod.mk.injEq .. ▸ Option.some.inj hlast
          exact .inl (SortedMap.mem_insert.mpr (.inl (heq ▸ rfl)))
        case isFalse hne =>
          by_cases hmem : (r, (⟨st, t⟩ : Gamepad δ)) ∈ e.gamepads.entries
          · exact .inl (SortedMap.mem_insert.mpr (.inr ⟨Ne.symm hne, hmem⟩))
          · exact .inr ⟨hlast, hmem⟩
  | onRemoteClosed remoteId now =>
    have hhandle : e.handle codec (.onRemoteClosed remoteId now) =
        ({ e with gamepads := e.gamepads.erase remoteId }.pruneLocked now).publishLocked now :=
      if_pos (not_not.mp hig)
    have hnew : ∀ r, lastReport codec (history ++ [.onRemoteClosed remoteId now]) r =
        if remoteId = r then none else lastReport codec history r := by
      intro r
      rw [lastReport_append, reportAfter]
    refine ⟨e.gamepads.erase remoteId, hhandle, hhandle ▸ h.prune_publish ?_ ?_⟩
    · intro r g hg
      obtain ⟨hold, hne⟩ := SortedMap.mem_erase.mp hg
      rw [hnew, if_neg (Ne.symm hne)]
      exact h.held r g hold
    · intro r t st hlast
      rw [hnew] at hlast
      split at hlast
      case isTrue => cases hlast
      case isFalse hne =>
        by_cases hmem : (r, (⟨st, t⟩ : Gamepad δ)) ∈ e.gamepads.entries
        · exact .inl (SortedMap.mem_erase.mpr ⟨hmem, Ne.symm hne⟩)
        · exact .inr ⟨hlast, hmem⟩

/-- The remotes that are held are those of the last snapshot. -/
theorem mem_keys_iff (h : Remembers codec history e) (r : String) :
    r ∈ e.gamepads.keys ↔
      ∃ snapshot ∈ e.published.getLast?, ∃ state, (r, state) ∈ snapshot.gamepads := by
  obtain ⟨snapshot, hlast, hstates⟩ := Option.map_eq_some_iff.mp h.shown
  have hlisted : (∃ state, (r, state) ∈ snapshot.gamepads) ↔ r ∈ e.gamepads.keys := by
    rw [hstates]
    simp [GamepadEndpoint.states, SortedMap.keys]
  rw [hlast]
  simp [hlisted]

end Remembers

theorem ignored_handle {e : GamepadEndpoint δ} (hig : e.Ignored codec ev) :
    e.handle codec ev = e := by
  cases ev with
  | write remoteId payload now =>
    rw [GamepadEndpoint.handle, show codec.stateOf payload = none from hig]
  | onRemoteClosed remoteId now => exact if_neg hig

/-- **Run.** After any events, at whatever times, the map holds what the history says. -/
theorem remembers_run (t : ℕ) (history : List GamepadEvent) :
    Remembers codec history (GamepadEndpoint.run codec t history) := by
  induction history using List.reverseRecOn with
  | nil => exact ⟨fun r g hg => absurd hg List.not_mem_nil, fun r t state h => (nomatch h), rfl⟩
  | append_singleton history ev ih =>
    rw [GamepadEndpoint.run, List.foldl_append]
    by_cases hig : (GamepadEndpoint.run codec t history).Ignored codec ev
    · have hsame := ignored_handle hig
      rw [GamepadEndpoint.run] at hsame ih hig
      simpa [hsame] using ih.ignored hig
    · obtain ⟨m, _, h⟩ := ih.handle_publishes hig
      exact h

end History

/-- **Snapshots are exact.** After events at times that never decrease, the next event is
    ignored without a trace if it changes nothing, and otherwise publishes one exact
    snapshot. The remotes that can be closed are those that the last snapshot lists. -/
theorem snapshots_exact (codec : InputCodec α δ) (t : ℕ) (history : List GamepadEvent)
    (ev : GamepadEvent) (hsteady : (history ++ [ev]).Pairwise fun a b => a.now ≤ b.now) :
    let e := GamepadEndpoint.run codec t history
    (∀ r, r ∈ e.gamepads.keys ↔
      ∃ snapshot ∈ e.published.getLast?, ∃ state, (r, state) ∈ snapshot.gamepads) ∧
    (e.Ignored codec ev → e.handle codec ev = e) ∧
    (¬ e.Ignored codec ev → ∃ snapshot,
      (e.handle codec ev).published = e.published ++ [snapshot] ∧
      SnapshotExact codec (history ++ [ev]) ev.now snapshot) := by
  intro e
  have h : Remembers codec history e := remembers_run t history
  refine ⟨h.mem_keys_iff, ignored_handle, fun hig => ?_⟩
  obtain ⟨m, hhandle, hafter⟩ := h.handle_publishes hig
  rw [hhandle] at hafter
  have hlast : ∀ ev' ∈ history ++ [ev], ev'.now ≤ ev.now := by
    intro ev' hmem
    rcases List.mem_append.mp hmem with hold | hnew
    · exact (List.pairwise_append.mp hsteady).2.2 ev' hold ev (List.mem_singleton_self ev)
    · exact List.mem_singleton.mp hnew ▸ le_refl ev.now
  exact ⟨_, by rw [hhandle]; rfl, hafter.snapshotExact hlast⟩

/-- A codec to try it on: a single byte is the number of a report, in which some coordinates are out
    of their range. -/
def byteCodec : InputCodec CFloat CFloat where
  parseFromString payload :=
    match payload with
    | [n] => some ⟨n.toUInt64, none,
        some ⟨.nan, .finite (-1), .finite 2, .infinite true, .finite (-3), .finite 1, 5, true⟩⟩
    | _ => none
  clampForJson := clampForJson id

/-- Two gamepads, of which `"a"` then sends garbage only. -/
def silentA : List GamepadEvent :=
  [.write "a" [1] 0, .write "b" [1] 100000000, .write "a" [] 400000000]

/-- 600 ms after its last report `"a"` is gone, and `"b"` is printed as it is. -/
theorem snapshots_exact_silent :
    ∃ snapshot, ((GamepadEndpoint.run byteCodec 0 silentA).handle byteCodec
        (.write "b" [2] 600000000)).published =
          (GamepadEndpoint.run byteCodec 0 silentA).published ++ [snapshot] ∧
      snapshot.gamepads = [("b", ⟨2, none, .finite 0, .finite (-1), .finite 1, .finite 0,
        .finite 0, .finite 1, 5, ["a", "x"], true⟩)] ∧
      SnapshotExact byteCodec (silentA ++ [.write "b" [2] 600000000]) 600000000 snapshot := by
  obtain ⟨snapshot, hpublished, hexact⟩ :=
    (snapshots_exact byteCodec 0 silentA (.write "b" [2] 600000000) (by decide)).2.2
      (by rintro ⟨⟩)
  refine ⟨snapshot, hpublished, ?_, hexact⟩
  obtain ⟨rfl⟩ := List.cons.inj (List.append_cancel_left hpublished)
  decide

end PiWebrtc.Ipc
