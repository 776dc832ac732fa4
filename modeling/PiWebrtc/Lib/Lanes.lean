import Mathlib.Algebra.BigOperators.Group.Finset.Basic
import Mathlib.Algebra.Order.Group.Multiset
import Mathlib.Logic.Function.Basic

namespace Lanes

/-!
# Independent lanes

A family of machines of one kind, one for each key, fed from a single list of inputs that
each go to the machine of their key.  A machine may fail on an input, and hands out
outputs.

* `run_of_lanes` — if every lane alone gets through its own inputs, the family gets through
  all of them, each lane ends as it does alone, and the outputs are those of the lanes
  together.
-/

variable {κ σ π ω ε : Type*} [DecidableEq κ] (step : π → σ → Except ε (σ × List ω))

/-- One lane alone: its last state and its outputs. -/
def runLane : σ → List π → Except ε (σ × List ω)
  | s, [] => .ok (s, [])
  | s, p :: ps =>
    match step p s with
    | .error e => .error e
    | .ok (t, out) =>
      match runLane t ps with
      | .error e => .error e
      | .ok (u, outs) => .ok (u, out ++ outs)

/-- All lanes, fed in the order of the list. -/
def run : (κ → σ) → List (κ × π) → Except ε ((κ → σ) × List ω)
  | lanes, [] => .ok (lanes, [])
  | lanes, (k, p) :: rest =>
    match step p (lanes k) with
    | .error e => .error e
    | .ok (t, out) =>
      match run (Function.update lanes k t) rest with
      | .error e => .error e
      | .ok (final, outs) => .ok (final, out ++ outs)

/-- The inputs of lane `k`. -/
def inputsOf (k : κ) (l : List (κ × π)) : List π :=
  l.filterMap fun x => if x.1 = k then some x.2 else none

theorem runLane_cons_eq_ok {s u : σ} {p : π} {ps : List π} {outs : List ω} :
    runLane step s (p :: ps) = .ok (u, outs) ↔
      ∃ t out rest, step p s = .ok (t, out) ∧ runLane step t ps = .ok (u, rest) ∧
        outs = out ++ rest := by
  rw [runLane]
  constructor
  · intro h
    split at h
    case h_1 => cases h
    case h_2 t out hstep =>
      split at h
      case h_1 => cases h
      case h_2 u' rest hrest =>
        cases h
        exact ⟨t, out, rest, hstep, hrest, rfl⟩
  · rintro ⟨t, out, rest, hstep, hrest, rfl⟩
    simp only [hstep, hrest]

/-- Inputs that a lane gets through one part after the other. -/
theorem runLane_append {s t u : σ} {ps qs : List π} {outs outs' : List ω}
    (h : runLane step s ps = .ok (t, outs)) (h' : runLane step t qs = .ok (u, outs')) :
    runLane step s (ps ++ qs) = .ok (u, outs ++ outs') := by
  induction ps generalizing s outs with
  | nil =>
    rw [runLane] at h
    cases h
    exact h'
  | cons p ps ih =>
    obtain ⟨v, out, rest, hstep, hrest, rfl⟩ := (runLane_cons_eq_ok step).mp h
    rw [List.cons_append, runLane_cons_eq_ok, List.append_assoc]
    exact ⟨v, out, rest ++ outs', hstep, ih hrest, rfl⟩

/-- **Independence.** -/
theorem run_of_lanes {lanes final : κ → σ} {l : List (κ × π)} {outs : κ → List ω}
    (h : ∀ k, runLane step (lanes k) (inputsOf k l) = .ok (final k, outs k)) {ks : Finset κ}
    (hks : ∀ x ∈ l, x.1 ∈ ks) :
    ∃ out, run step lanes l = .ok (final, out) ∧
      (out : Multiset ω) = ∑ k ∈ ks, (outs k : Multiset ω) := by
  induction l generalizing lanes outs with
  | nil =>
    -- nobody gets an input, so every lane ends where it is
    have hall : ∀ k, lanes k = final k ∧ outs k = [] := by
      intro k
      have hk := h k
      rw [inputsOf, List.filterMap_nil, runLane, Except.ok.injEq, Prod.mk.injEq] at hk
      exact ⟨hk.1, hk.2.symm⟩
    obtain rfl : lanes = final := funext fun k => (hall k).1
    refine ⟨[], rfl, ?_⟩
    rw [Finset.sum_eq_zero fun k _ => by rw [(hall k).2, Multiset.coe_nil], Multiset.coe_nil]
  | cons x rest ih =>
    obtain ⟨k₀, p⟩ := x
    have hk₀ := h k₀
    have hin : inputsOf k₀ ((k₀, p) :: rest) = p :: inputsOf k₀ rest := by
      rw [inputsOf, List.filterMap_cons, if_pos rfl, inputsOf]
    rw [hin, runLane_cons_eq_ok] at hk₀
    obtain ⟨t, o, os, hstep, hrest, houts⟩ := hk₀
    -- the other lanes do not see this input
    have hlanes : ∀ k, runLane step (Function.update lanes k₀ t k) (inputsOf k rest) =
        .ok (final k, Function.update outs k₀ os k) := by
      intro k
      by_cases hk : k = k₀
      · subst hk
        rw [Function.update_self, Function.update_self]
        exact hrest
      · rw [Function.update_of_ne hk, Function.update_of_ne hk, ← h k, inputsOf, inputsOf,
          List.filterMap_cons, if_neg (Ne.symm hk)]
    obtain ⟨out, hrun, hsum⟩ := ih hlanes fun x hx => hks x (List.mem_cons_of_mem _ hx)
    refine ⟨o ++ out, ?_, ?_⟩
    · rw [run]
      simp only [hstep, hrun]
    · have hmem : k₀ ∈ ks := hks (k₀, p) List.mem_cons_self
      have hothers : ∑ k ∈ ks.erase k₀, (Function.update outs k₀ os k : Multiset ω) =
          ∑ k ∈ ks.erase k₀, (outs k : Multiset ω) :=
        Finset.sum_congr rfl fun k hk => by
          rw [Function.update_of_ne (Finset.ne_of_mem_erase hk)]
      rw [← Multiset.coe_add, hsum, ← Finset.add_sum_erase ks _ hmem, hothers,
        Function.update_self, ← Finset.add_sum_erase ks (fun k => (outs k : Multiset ω)) hmem,
        houts, ← Multiset.coe_add, add_assoc]

end Lanes
