import PiWebrtc.Lib.Machine
import Mathlib.Data.List.Nodup

namespace PiWebrtc.Common

open Transition

/-!
# Subscriptions of a `Subject`

`Subscribe` puts an observer into the subject's list and returns a handle whose destructor takes
the observer out again.  Handles are moved with the compiler's move operations: a move empties
the handle moved from, and the function that the target had is dropped, not called.
`observers_held_iff` shows that this is the only way to lose an observer.
-/

/-- `Observer`, told apart from the others by `id`. -/
structure Observer (κ : Type*) where
  id : ℕ
  callback : κ
  deriving DecidableEq, Repr

/-- `Subscription`: the observer that `unsubscribe_` takes out, if there is a function. -/
structure Subscription (κ : Type*) where
  unsubscribe : Option (Observer κ) := none
  deriving DecidableEq, Repr

/-- `Subject`. -/
structure Subject (κ : Type*) where
  observers : List (Observer κ) := []
  deriving DecidableEq, Repr

namespace Subject

variable {κ ν : Type*}

/-- The function of a `Subscription`. -/
def unsubscribe (s : Subject κ) (observer : Observer κ) : Subject κ where
  observers := s.observers.filter fun o => o.id ≠ observer.id

/-- `Next`: the calls that it makes. -/
def next (s : Subject κ) (value : ν) : List (Observer κ × ν) :=
  s.observers.map fun o => (o, value)

end Subject

/-- A subject with all the handles there ever were, those that were destroyed as `none`, and the
    id of the next observer. -/
structure Subscriptions (κ : Type*) where
  subject : Subject κ := {}
  handles : List (Option (Subscription κ)) := []
  nextObserver : ℕ := 0
  deriving DecidableEq, Repr

namespace Subscriptions

variable {κ : Type*}

/-- `Subscribe`, and the handle that it returns. -/
def subscribe (s : Subscriptions κ) (callback : κ) : Subscriptions κ where
  subject := { observers := s.subject.observers ++ [⟨s.nextObserver, callback⟩] }
  handles := s.handles ++ [some ⟨some ⟨s.nextObserver, callback⟩⟩]
  nextObserver := s.nextObserver + 1

/-- A default-constructed handle. -/
def construct (s : Subscriptions κ) : Subscriptions κ :=
  { s with handles := s.handles ++ [some {}] }

/-- `Subscription(Subscription &&)` from handle `source`, which is `h`. -/
def moveConstruct (s : Subscriptions κ) (source : ℕ) (h : Subscription κ) : Subscriptions κ :=
  { s with handles := s.handles.set source (some {}) ++ [some h] }

/-- `operator=(Subscription &&)`: what the target had is dropped. -/
def moveAssign (s : Subscriptions κ) (target source : ℕ) (h : Subscription κ) :
    Subscriptions κ :=
  { s with handles := (s.handles.set source (some {})).set target (some h) }

/-- `~Subscription` of handle `i`, which is `h`. -/
def destroy (s : Subscriptions κ) (i : ℕ) (h : Subscription κ) : Subscriptions κ where
  subject := h.unsubscribe.elim s.subject s.subject.unsubscribe
  handles := s.handles.set i none
  nextObserver := s.nextObserver

end Subscriptions

/-- What is done with the subject and its handles. -/
inductive SubjectEvent (κ : Type*) where
  | subscribe (callback : κ)
  | construct
  | moveConstruct (source : ℕ)
  | moveAssign (target source : ℕ)
  | destroy (i : ℕ)
  deriving DecidableEq, Repr

section Events

variable {κ : Type*}

/-- One event; only handles that exist are used. -/
def Subscriptions.step (s : Subscriptions κ) : SubjectEvent κ → Option (Subscriptions κ)
  | .subscribe callback => some (s.subscribe callback)
  | .construct => some s.construct
  | .moveConstruct source =>
    match s.handles[source]? with
    | some (some h) => some (s.moveConstruct source h)
    | _ => none
  | .moveAssign target source =>
    match s.handles[target]?, s.handles[source]? with
    | some (some _), some (some h) => some (s.moveAssign target source h)
    | _, _ => none
  | .destroy i =>
    match s.handles[i]? with
    | some (some h) => some (s.destroy i h)
    | _ => none

/-- A subject without observers, and all orders of events. -/
def subscriptions (κ : Type*) : Machine (Subscriptions κ) (SubjectEvent κ) where
  init := {}
  step := Subscriptions.step

/-- Handle `i` holds the subscription of `o`. -/
def Subscriptions.Holds (s : Subscriptions κ) (i : ℕ) (o : Observer κ) : Prop :=
  s.handles[i]? = some (some ⟨some o⟩)

/-- What is asked for: the observers are those whose subscription some handle holds, each once,
    and `Next` calls each of these once and no other. -/
structure ObserversHeld (s : Subscriptions κ) : Prop where
  exactly : ∀ o, o ∈ s.subject.observers ↔ ∃ i, s.Holds i o
  once : (s.subject.observers.map Observer.id).Nodup
  reached : ∀ {ν : Type} (value : ν), ((s.subject.next value).map fun call => call.1.id).Nodup ∧
    ∀ call, call ∈ s.subject.next value ↔ call.2 = value ∧ ∃ i, s.Holds i call.1

/-- The condition: a handle is moved only onto itself or onto one that holds no subscription. -/
def MovesOntoEmpty (s : Subscriptions κ) : SubjectEvent κ → Prop
  | .moveAssign target source => target = source ∨ s.handles[target]? = some (some {})
  | _ => True

instance [DecidableEq κ] (s : Subscriptions κ) : ∀ a, Decidable (MovesOntoEmpty s a)
  | .moveAssign _ _ => inferInstanceAs (Decidable (_ ∨ _))
  | .subscribe _ | .construct | .moveConstruct _ | .destroy _ => isTrue trivial

end Events

/-! ### Observers and handles -/

section Handles

variable {κ : Type*} {s s' : Subscriptions κ}

/-- What `Next` calls follows from what the observers are. -/
theorem observersHeld_iff : ObserversHeld s ↔
    (s.subject.observers.map Observer.id).Nodup ∧
      ∀ o, o ∈ s.subject.observers ↔ ∃ i, s.Holds i o := by
  constructor
  · exact fun h => ⟨h.once, h.exactly⟩
  · rintro ⟨honce, hexactly⟩
    refine ⟨hexactly, honce, fun value => ⟨?_, fun call => ?_⟩⟩
    · rw [Subject.next, List.map_map]
      exact honce
    · rw [Subject.next, List.mem_map, ← hexactly]
      constructor
      · rintro ⟨o, ho, rfl⟩
        exact ⟨rfl, ho⟩
      · rintro ⟨rfl, ho⟩
        exact ⟨call.1, ho, rfl⟩

/-- **The invariant.** No subscription is held twice, and those held are older than the next
    one. -/
structure HandlesInv (s : Subscriptions κ) : Prop where
  held_once : ∀ i j o o', s.Holds i o → s.Holds j o' → o.id = o'.id → i = j
  older : ∀ i o, s.Holds i o → o.id < s.nextObserver
  observer_older : ∀ o ∈ s.subject.observers, o.id < s.nextObserver

namespace HandlesInv

/-- **Frame.** The subscriptions only change hands, or some are dropped. -/
theorem rename (h : HandlesInv s) (hsubject : s'.subject = s.subject)
    (hnext : s'.nextObserver = s.nextObserver) {f : ℕ → ℕ}
    (hf : ∀ i o, s'.Holds i o → s.Holds (f i) o)
    (hinj : ∀ i j o o', s'.Holds i o → s'.Holds j o' → f i = f j → i = j) : HandlesInv s' where
  held_once i j o o' hi hj heq :=
    hinj i j o o' hi hj (h.held_once _ _ o o' (hf i o hi) (hf j o' hj) heq)
  older i o hi := hnext ▸ h.older _ o (hf i o hi)
  observer_older o ho := hnext ▸ h.observer_older o (hsubject ▸ ho)

end HandlesInv

/-! ### What each operation does to the handles -/

/-- What a handle that exists holds. -/
theorem holds_iff {i : ℕ} {h : Subscription κ} (hi : s.handles[i]? = some (some h))
    (o : Observer κ) : s.Holds i o ↔ h.unsubscribe = some o := by
  rw [Subscriptions.Holds, hi]
  cases h
  simp

theorem holds_subscribe (s : Subscriptions κ) (callback : κ) (i : ℕ) (o : Observer κ) :
    (s.subscribe callback).Holds i o ↔
      s.Holds i o ∨ i = s.handles.length ∧ o = ⟨s.nextObserver, callback⟩ := by
  show (s.handles ++ [some ⟨some ⟨s.nextObserver, callback⟩⟩])[i]? = _ ↔ s.handles[i]? = _ ∨ _
  rcases lt_trichotomy i s.handles.length with hlt | rfl | hgt
  · rw [List.getElem?_append_left hlt]
    simp [hlt.ne]
  · rw [List.getElem?_concat_length]
    simp [eq_comm]
  · have hnone : ¬ i < s.handles.length := by omega
    simp [List.getElem?_append, hnone, hgt.ne', show i - s.handles.length ≠ 0 by omega]

theorem holds_construct (s : Subscriptions κ) (i : ℕ) (o : Observer κ) :
    s.construct.Holds i o ↔ s.Holds i o := by
  show (s.handles ++ [some ({} : Subscription κ)])[i]? = _ ↔ s.handles[i]? = _
  rcases lt_trichotomy i s.handles.length with hlt | rfl | hgt
  · rw [List.getElem?_append_left hlt]
  · rw [List.getElem?_concat_length]
    simp
  · have hnone : ¬ i < s.handles.length := by omega
    simp [List.getElem?_append, hnone, show i - s.handles.length ≠ 0 by omega]

theorem holds_moveConstruct {source : ℕ} {h : Subscription κ}
    (hsource : s.handles[source]? = some (some h)) (i : ℕ) (o : Observer κ) :
    (s.moveConstruct source h).Holds i o ↔
      i = s.handles.length ∧ s.Holds source o ∨ i ≠ source ∧ s.Holds i o := by
  have hlt : source < s.handles.length := (List.getElem?_eq_some_iff.mp hsource).1
  rw [holds_iff hsource]
  show (s.handles.set source (some {}) ++ [some h])[i]? = _ ↔ _ ∨ _ ∧ s.handles[i]? = _
  rcases lt_trichotomy i s.handles.length with hi | rfl | hgt
  · rw [List.getElem?_append_left (by rwa [List.length_set]), List.getElem?_set]
    by_cases hsrc : source = i
    · subst hsrc
      simp [hi.ne]
    · simp [hsrc, hi.ne, Ne.symm hsrc]
  · have hlen : (s.handles.set source (some {})).length = s.handles.length := List.length_set
    rw [← hlen, List.getElem?_concat_length, hlen]
    cases h
    simp [eq_comm]
  · have hnone : ¬ i < s.handles.length := by omega
    simp [List.getElem?_append, hnone, hgt.ne', show i - s.handles.length ≠ 0 by omega]

theorem holds_moveAssign {target source : ℕ} {h t : Subscription κ}
    (htarget : s.handles[target]? = some (some t)) (hsource : s.handles[source]? = some (some h))
    (i : ℕ) (o : Observer κ) :
    (s.moveAssign target source h).Holds i o ↔
      i = target ∧ s.Holds source o ∨ i ≠ target ∧ i ≠ source ∧ s.Holds i o := by
  have hlt : target < s.handles.length := (List.getElem?_eq_some_iff.mp htarget).1
  have hlt' : source < s.handles.length := (List.getElem?_eq_some_iff.mp hsource).1
  rw [holds_iff hsource]
  show ((s.handles.set source (some {})).set target (some h))[i]? = _ ↔
    _ ∨ _ ∧ _ ∧ s.handles[i]? = _
  rw [List.getElem?_set, List.length_set, List.getElem?_set]
  by_cases htgt : target = i
  · subst htgt
    cases h
    simp [hlt]
  · by_cases hsrc : source = i
    · subst hsrc
      simp [htgt, hlt', Ne.symm htgt]
    · simp [htgt, hsrc, Ne.symm htgt, Ne.symm hsrc]

theorem holds_destroy (s : Subscriptions κ) (i : ℕ) (h : Subscription κ) (j : ℕ)
    (o : Observer κ) : (s.destroy i h).Holds j o ↔ j ≠ i ∧ s.Holds j o := by
  show (s.handles.set i none)[j]? = _ ↔ _ ∧ s.handles[j]? = _
  rw [List.getElem?_set]
  by_cases hij : i = j
  · subst hij
    simp
  · simp [hij, Ne.symm hij]

/-! ### One event -/

/-- An operation that moves the subscriptions around among the handles leaves the observers as
    they are, and the handles hold the same ones. -/
theorem keeps_of_rename (hI : HandlesInv s) (hP : ObserversHeld s)
    (hsubject : s'.subject = s.subject) (hnext : s'.nextObserver = s.nextObserver) {f : ℕ → ℕ}
    (hf : ∀ i o, s'.Holds i o → s.Holds (f i) o)
    (hinj : ∀ i j o o', s'.Holds i o → s'.Holds j o' → f i = f j → i = j)
    (hkept : ∀ i o, s.Holds i o → ∃ j, s'.Holds j o) : HandlesInv s' ∧ ObserversHeld s' := by
  refine ⟨hI.rename hsubject hnext hf hinj, observersHeld_iff.mpr ⟨?_, fun o => ?_⟩⟩
  · rw [hsubject]
    exact hP.once
  · rw [hsubject, hP.exactly]
    constructor
    · rintro ⟨i, hi⟩
      exact hkept i o hi
    · rintro ⟨i, hi⟩
      exact ⟨f i, hf i o hi⟩

theorem keeps_subscribe (hI : HandlesInv s) (hP : ObserversHeld s) (callback : κ) :
    HandlesInv (s.subscribe callback) ∧ ObserversHeld (s.subscribe callback) := by
  have hlt : ∀ {i o}, s.Holds i o → i < s.handles.length :=
    fun hi => (List.getElem?_eq_some_iff.mp hi).1
  refine ⟨⟨?_, ?_, ?_⟩, observersHeld_iff.mpr ⟨?_, ?_⟩⟩
  · intro i j o o' hi hj heq
    rw [holds_subscribe] at hi hj
    rcases hi with hi | ⟨rfl, rfl⟩ <;> rcases hj with hj | ⟨rfl, rfl⟩
    · exact hI.held_once i j o o' hi hj heq
    · exact absurd heq (hI.older i o hi).ne
    · exact absurd heq.symm (hI.older j o' hj).ne
    · rfl
  · intro i o hi
    rcases (holds_subscribe s callback i o).mp hi with hi | ⟨-, rfl⟩
    · exact Nat.lt_succ_of_lt (hI.older i o hi)
    · exact Nat.lt_succ_self _
  · intro o ho
    rcases List.mem_append.mp ho with ho | ho
    · exact Nat.lt_succ_of_lt (hI.observer_older o ho)
    · rw [List.mem_singleton.mp ho]
      exact Nat.lt_succ_self _
  · show ((s.subject.observers ++ [Observer.mk s.nextObserver callback]).map Observer.id).Nodup
    rw [List.map_append]
    refine hP.once.append (List.nodup_singleton _) (List.disjoint_singleton.mpr fun hmem => ?_)
    obtain ⟨o, ho, heq⟩ := List.mem_map.mp hmem
    exact absurd heq (hI.observer_older o ho).ne
  · intro o
    show o ∈ s.subject.observers ++ [Observer.mk s.nextObserver callback] ↔ _
    rw [List.mem_append, List.mem_singleton, hP.exactly]
    constructor
    · rintro (⟨i, hi⟩ | rfl)
      · exact ⟨i, (holds_subscribe s callback i o).mpr (.inl hi)⟩
      · exact ⟨s.handles.length, (holds_subscribe s callback _ _).mpr (.inr ⟨rfl, rfl⟩)⟩
    · rintro ⟨i, hi⟩
      rcases (holds_subscribe s callback i o).mp hi with hi | ⟨-, rfl⟩
      · exact .inl ⟨i, hi⟩
      · exact .inr rfl

theorem keeps_moveConstruct (hI : HandlesInv s) (hP : ObserversHeld s) {source : ℕ}
    {h : Subscription κ} (hsource : s.handles[source]? = some (some h)) :
    HandlesInv (s.moveConstruct source h) ∧ ObserversHeld (s.moveConstruct source h) := by
  have hlt : ∀ {i o}, s.Holds i o → i ≠ s.handles.length :=
    fun hi => (List.getElem?_eq_some_iff.mp hi).1.ne
  have hholds := holds_moveConstruct hsource
  refine keeps_of_rename hI hP rfl rfl
    (f := fun i => if i = s.handles.length then source else i) ?_ ?_ ?_
  · intro i o hi
    rcases (hholds i o).mp hi with ⟨rfl, hi⟩ | ⟨-, hi⟩
    · rwa [if_pos rfl]
    · rwa [if_neg (hlt hi)]
  · intro i j o o' hi hj heq
    rcases (hholds i o).mp hi with ⟨rfl, hi⟩ | ⟨hne, hi⟩ <;>
      rcases (hholds j o').mp hj with ⟨rfl, hj⟩ | ⟨hne', hj⟩
    · rfl
    · rw [if_pos rfl, if_neg (hlt hj)] at heq
      exact absurd heq.symm hne'
    · rw [if_pos rfl, if_neg (hlt hi)] at heq
      exact absurd heq hne
    · rwa [if_neg (hlt hi), if_neg (hlt hj)] at heq
  · intro i o hi
    by_cases hsrc : i = source
    · exact ⟨s.handles.length, (hholds _ o).mpr (.inl ⟨rfl, hsrc ▸ hi⟩)⟩
    · exact ⟨i, (hholds i o).mpr (.inr ⟨hsrc, hi⟩)⟩

theorem keeps_destroy (hI : HandlesInv s) (hP : ObserversHeld s) {i : ℕ} {h : Subscription κ}
    (hi : s.handles[i]? = some (some h)) :
    HandlesInv (s.destroy i h) ∧ ObserversHeld (s.destroy i h) := by
  have hholds := holds_destroy s i h
  -- the observers that are left are those that another handle holds
  have hmem : ∀ o, o ∈ (s.destroy i h).subject.observers ↔
      o ∈ s.subject.observers ∧ ∀ o', h.unsubscribe = some o' → o.id ≠ o'.id := by
    intro o
    rw [Subscriptions.destroy]
    cases h.unsubscribe with
    | none => simp
    | some o' => simp [Subject.unsubscribe]
  have hsub : (s.destroy i h).subject.observers.Sublist s.subject.observers := by
    rw [Subscriptions.destroy]
    cases h.unsubscribe with
    | none => exact List.Sublist.refl _
    | some o' => exact List.filter_sublist
  refine ⟨⟨?_, ?_, ?_⟩, observersHeld_iff.mpr ⟨hP.once.sublist (hsub.map _), fun o => ?_⟩⟩
  · intro j k o o' hj hk heq
    exact hI.held_once j k o o' ((hholds j o).mp hj).2 ((hholds k o').mp hk).2 heq
  · exact fun j o hj => hI.older j o ((hholds j o).mp hj).2
  · exact fun o ho => hI.observer_older o (hsub.subset ho)
  · rw [hmem, hP.exactly]
    constructor
    · rintro ⟨⟨j, hj⟩, hne⟩
      refine ⟨j, (hholds j o).mpr ⟨?_, hj⟩⟩
      rintro rfl
      exact hne o ((holds_iff hi o).mp hj) rfl
    · rintro ⟨j, hj⟩
      obtain ⟨hji, hj⟩ := (hholds j o).mp hj
      refine ⟨⟨j, hj⟩, fun o' ho' heq => hji ?_⟩
      exact hI.held_once j i o o' hj ((holds_iff hi o').mpr ho') heq

/-- A handle moved onto an empty one, or onto itself, takes its subscription along; onto any
    other one, it makes the target's observer one that nobody holds. -/
theorem moveAssign_iff (hI : HandlesInv s) (hP : ObserversHeld s) {target source : ℕ}
    {h t : Subscription κ} (htarget : s.handles[target]? = some (some t))
    (hsource : s.handles[source]? = some (some h)) :
    HandlesInv (s.moveAssign target source h) ∧
      (ObserversHeld (s.moveAssign target source h) ↔
        target = source ∨ s.handles[target]? = some (some {})) := by
  have hholds := holds_moveAssign htarget hsource
  have hsubject : (s.moveAssign target source h).subject = s.subject := rfl
  have hfrom : ∀ i o, (s.moveAssign target source h).Holds i o →
      s.Holds (if i = target then source else i) o := by
    intro i o hi
    rcases (hholds i o).mp hi with ⟨rfl, hi⟩ | ⟨hne, -, hi⟩
    · rwa [if_pos rfl]
    · rwa [if_neg hne]
  have hinj : ∀ i j o o', (s.moveAssign target source h).Holds i o →
      (s.moveAssign target source h).Holds j o' →
      (if i = target then source else i) = (if j = target then source else j) → i = j := by
    intro i j o o' hi hj heq
    rcases (hholds i o).mp hi with ⟨rfl, -⟩ | ⟨hne, hsrc, -⟩ <;>
      rcases (hholds j o').mp hj with ⟨rfl, -⟩ | ⟨hne', hsrc', -⟩
    · rfl
    · rw [if_pos rfl, if_neg hne'] at heq
      exact absurd heq.symm hsrc'
    · rw [if_pos rfl, if_neg hne] at heq
      exact absurd heq hsrc
    · rwa [if_neg hne, if_neg hne'] at heq
  refine ⟨hI.rename hsubject rfl hfrom hinj, fun hheld => ?_, fun hmoves => ?_⟩
  · by_contra hmoves
    obtain ⟨hne, hfull⟩ := not_or.mp hmoves
    obtain ⟨o, ho⟩ : ∃ o, s.Holds target o := by
      cases t with
      | mk unsubscribe =>
        cases unsubscribe with
        | none => exact absurd htarget hfull
        | some o => exact ⟨o, htarget⟩
    -- the observer is still there, but no handle has its subscription
    obtain ⟨i, hi⟩ := (hheld.exactly o).mp ((hP.exactly o).mpr ⟨target, ho⟩)
    rcases (hholds i o).mp hi with ⟨-, hi⟩ | ⟨hi', -, hi⟩
    · exact hne (hI.held_once target source o o ho hi rfl)
    · exact hi' (hI.held_once i target o o hi ho rfl)
  · refine (keeps_of_rename hI hP hsubject rfl hfrom hinj fun i o hi => ?_).2
    by_cases hsrc : i = source
    · exact ⟨target, (hholds target o).mpr (.inl ⟨rfl, hsrc ▸ hi⟩)⟩
    · refine ⟨i, (hholds i o).mpr (.inr ⟨?_, hsrc, hi⟩)⟩
      rintro rfl
      rcases hmoves with heq | hempty
      · exact hsrc heq
      · rw [Subscriptions.Holds, hempty] at hi
        cases hi

/-- **One event.** -/
theorem step_iff (hI : HandlesInv s) (hP : ObserversHeld s) {a : SubjectEvent κ}
    (hs : s.step a = some s') :
    HandlesInv s' ∧ (ObserversHeld s' ↔ MovesOntoEmpty s a) := by
  have hkept : HandlesInv s' ∧ ObserversHeld s' → MovesOntoEmpty s a →
      HandlesInv s' ∧ (ObserversHeld s' ↔ MovesOntoEmpty s a) :=
    fun h ha => ⟨h.1, iff_of_true h.2 ha⟩
  cases a with
  | subscribe callback =>
    cases hs
    exact hkept (keeps_subscribe hI hP callback) trivial
  | construct =>
    cases hs
    refine hkept (keeps_of_rename (f := id) hI hP rfl rfl ?_ ?_ ?_) trivial
    · exact fun i o hi => (holds_construct s i o).mp hi
    · exact fun i j _ _ _ _ heq => heq
    · exact fun i o hi => ⟨i, (holds_construct s i o).mpr hi⟩
  | moveConstruct source =>
    simp only [Subscriptions.step] at hs
    split at hs
    case h_1 h hsource =>
      cases hs
      exact hkept (keeps_moveConstruct hI hP hsource) trivial
    case h_2 => cases hs
  | moveAssign target source =>
    simp only [Subscriptions.step] at hs
    split at hs
    case h_1 t h htarget hsource =>
      cases hs
      exact moveAssign_iff hI hP htarget hsource
    case h_2 => cases hs
  | destroy i =>
    simp only [Subscriptions.step] at hs
    split at hs
    case h_1 h hi =>
      cases hs
      exact hkept (keeps_destroy hI hP hi) trivial
    case h_2 => cases hs

end Handles

/-! ### All orders of events -/

/-- **Subscriptions track observers, exactly.** Throughout a run the observers are those whose
    subscription is held, exactly if no handle is moved onto another one that holds one. -/
theorem observers_held_iff {κ : Type*} (as : List (SubjectEvent κ)) (s : Subscriptions κ)
    (hrun : (subscriptions κ).run as = some s) :
    (subscriptions κ).Always ObserversHeld (subscriptions κ).init as ↔
      (subscriptions κ).Guarded MovesOntoEmpty (subscriptions κ).init as := by
  have hnone : ∀ i o, ¬ (subscriptions κ).init.Holds i o := fun i o hi => by cases hi
  refine Machine.always_iff_guarded (M := subscriptions κ) (I := HandlesInv) ?_ ?_ ?_ ?_ hrun
  · exact fun s a s' hI hP hs _ => (step_iff hI hP hs).1
  · exact fun s a s' hI hP hs => (step_iff hI hP hs).2
  · exact
      { held_once := fun i _ o _ hi => absurd hi (hnone i o)
        older := fun i o hi => absurd hi (hnone i o)
        observer_older := fun o ho => absurd ho List.not_mem_nil }
  · refine observersHeld_iff.mpr ⟨List.nodup_nil, fun o => ?_⟩
    exact iff_of_false List.not_mem_nil fun hi => hi.elim fun i hi => hnone i o hi

/-- Two subscriptions; the handle of the first one moves to a new one and then to an empty one,
    and the second one ends. -/
def handedOn : List (SubjectEvent Char) :=
  [.subscribe 'a', .subscribe 'b', .moveConstruct 0, .construct, .moveAssign 3 2, .destroy 1]

theorem observers_held_iff_handedOn :
    ∃ s, (subscriptions Char).run handedOn = some s ∧ s.subject.observers = [⟨0, 'a'⟩] ∧
      s.handles = [some {}, none, some {}, some ⟨some ⟨0, 'a'⟩⟩] ∧
      (subscriptions Char).Always ObserversHeld (subscriptions Char).init handedOn :=
  ⟨_, rfl, rfl, rfl, (observers_held_iff handedOn _ rfl).mpr (by decide)⟩

/-- A handle that is subscribed is assigned the handle of a second subscription, and then all
    handles end. -/
def subscribedAgain : List (SubjectEvent Char) :=
  [.subscribe 'a', .subscribe 'b', .moveAssign 0 1, .destroy 1, .destroy 0]

/-- The first observer stays. -/
theorem not_observersHeld_subscribedAgain :
    ∃ s, (subscriptions Char).run subscribedAgain = some s ∧ s.handles = [none, none] ∧
      s.subject.observers = [⟨0, 'a'⟩] ∧ ¬ ObserversHeld s := by
  refine ⟨_, rfl, rfl, rfl, fun h => ?_⟩
  obtain ⟨i, hi⟩ := (h.exactly ⟨0, 'a'⟩).mp List.mem_cons_self
  match i, hi with
  | 0, hi => cases hi
  | 1, hi => cases hi

end PiWebrtc.Common
