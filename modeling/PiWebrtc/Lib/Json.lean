import Mathlib.Data.Int.Notation
import Mathlib.Data.List.Defs
import Mathlib.Tactic.Common

/-!
# JSON documents and how a program reads them

A document, and the accessors of a library that reads a member with the index operator and
converts it implicitly: a missing member of an object reads as null, as does any member of
null; other documents have no members; and a conversion to the wrong type fails.  `none`
stands for the exception.

Beside each accessor stands the shape that it accepts.  `intMember_isSome` is the loose one: a
truth value converts to an integer as well as a number does.
-/

namespace Document

/-- A document.  Of a number with a fraction or an exponent only the integer part is read. -/
inductive Json where
  | null
  | bool (b : Bool)
  | int (n : ℤ)
  | float (integerPart : ℤ)
  | str (s : String)
  | arr (elements : List Json)
  | obj (members : List (String × Json))

namespace Json

/-! ### Accessors -/

/-- The index operator on a document that may be changed. -/
def member (j : Json) (key : String) : Option Json :=
  match j with
  | obj members => some ((members.lookup key).getD null)
  | null => some null
  | _ => none

/-- The string that a value is. -/
def asString : Json → Option String
  | str s => some s
  | _ => none

/-- The conversion to a 32-bit integer. -/
def asInt : Json → Option ℤ
  | int n => some (n.bmod 4294967296)
  | float n => some (n.bmod 4294967296)
  | bool b => some (if b then 1 else 0)
  | _ => none

/-- The strings of an array, if there is nothing else in it. -/
def asStrings : Json → Option (List String)
  | arr elements => elements.mapM asString
  | _ => none

/-- The member of this name, if it is a string. -/
def stringMember (j : Json) (key : String) : Option String := (j.member key).bind asString

/-- The member of this name, if it is an integer. -/
def intMember (j : Json) (key : String) : Option ℤ := (j.member key).bind asInt

/-- The member of this name, if it is an array of strings. -/
def stringsMember (j : Json) (key : String) : Option (List String) :=
  (j.member key).bind asStrings

/-! ### Shapes -/

/-- An object whose member `key` is `value`. -/
def Has (j : Json) (key : String) (value : Json) : Prop :=
  ∃ members, j = obj members ∧ members.lookup key = some value

/-- There is a string of this name. -/
def HasString (j : Json) (key : String) : Prop := ∃ s, j.Has key (str s)

/-- There is a number of this name, whole or not. -/
def HasNumber (j : Json) (key : String) : Prop :=
  ∃ n, j.Has key (int n) ∨ j.Has key (float n)

/-- There is a truth value of this name. -/
def HasBool (j : Json) (key : String) : Prop := ∃ b, j.Has key (bool b)

/-- There is an array of strings of this name. -/
def HasStrings (j : Json) (key : String) : Prop := ∃ ss : List String, j.Has key (arr (ss.map str))

variable {j : Json} {key : String}

/-- The member that is read, if it is not null, is one of the object. -/
theorem member_eq_some {value : Json} (hvalue : value ≠ null) :
    j.member key = some value ↔ j.Has key value := by
  cases j with
  | obj members =>
    rw [member, Option.some.injEq]
    constructor
    · intro h
      refine ⟨members, rfl, ?_⟩
      cases hlook : members.lookup key with
      | some v => rw [hlook] at h; exact congrArg some h
      | none => rw [hlook] at h; exact absurd h.symm hvalue
    · rintro ⟨_, ⟨⟩, h⟩
      rw [h]
      rfl
  | null =>
    refine iff_of_false (fun h => hvalue (Option.some.inj h).symm) ?_
    rintro ⟨_, h, -⟩
    cases h
  | _ =>
    refine iff_of_false (fun h => by cases h) ?_
    rintro ⟨_, h, -⟩
    cases h

/-- Reading a string finds what is there. -/
theorem stringMember_eq_some {s : String} :
    j.stringMember key = some s ↔ j.Has key (str s) := by
  rw [← member_eq_some (by simp), stringMember, Option.bind_eq_some_iff]
  constructor
  · rintro ⟨v, hv, hs⟩
    cases v <;> cases hs
    exact hv
  · exact fun h => ⟨_, h, rfl⟩

/-- A string is read exactly if there is one. -/
theorem stringMember_isSome : (j.stringMember key).isSome = true ↔ j.HasString key := by
  rw [Option.isSome_iff_exists]
  exact exists_congr fun _ => stringMember_eq_some

/-- Truth values are taken for numbers. -/
theorem intMember_isSome :
    (j.intMember key).isSome = true ↔ j.HasNumber key ∨ j.HasBool key := by
  rw [Option.isSome_iff_exists, intMember]
  constructor
  · rintro ⟨n, hn⟩
    obtain ⟨v, hv, hs⟩ := Option.bind_eq_some_iff.mp hn
    cases v with
    | bool b => exact .inr ⟨b, (member_eq_some (by simp)).mp hv⟩
    | int m => exact .inl ⟨m, .inl ((member_eq_some (by simp)).mp hv)⟩
    | float m => exact .inl ⟨m, .inr ((member_eq_some (by simp)).mp hv)⟩
    | _ => cases hs
  · rintro (⟨n, h | h⟩ | ⟨b, h⟩)
    all_goals
      rw [(member_eq_some (by simp)).mpr h]
      exact ⟨_, rfl⟩

private theorem mapM_asString {elements : List Json} {ss : List String} :
    elements.mapM asString = some ss ↔ elements = ss.map str := by
  induction elements generalizing ss with
  | nil => cases ss <;> simp
  | cons e es ih =>
    cases ss with
    | nil => cases e <;> simp [asString, Option.bind_eq_some_iff]
    | cons s ss => cases e <;> simp [asString, Option.bind_eq_some_iff, ih, and_comm]

/-- Strings are read exactly if there is an array of them. -/
theorem stringsMember_isSome : (j.stringsMember key).isSome = true ↔ j.HasStrings key := by
  rw [Option.isSome_iff_exists, stringsMember]
  refine exists_congr fun ss => ?_
  rw [← member_eq_some (by simp), Option.bind_eq_some_iff]
  constructor
  · rintro ⟨v, hv, hs⟩
    cases v with
    | arr elements =>
      rw [← mapM_asString.mp hs]
      exact hv
    | _ => cases hs
  · exact fun h => ⟨_, h, mapM_asString.mpr rfl⟩

end Json

end Document
