import Mathlib.Data.List.SplitBy
import PiWebrtc.Signaling.WhepService

namespace PiWebrtc.Signaling

/-!
# Candidates and their media sections

A fragment is made of sections, each of which begins with its `m=` line; what stands before
the first of these counts as a section of its own.  `ParseCandidates` does not look at the
sections: it gives a candidate the mid that it has read last.

* `parseCandidates_eq` — the result, field by field;
* `candidates_sectioned_iff` — the candidates have the mids of their own sections exactly when
  the last `a=mid` line above each of them says what the first one of its section does.
-/

/-! ### Lines and sections -/

/-- An `m=` line. -/
def isMedia (line : String) : Bool := startsWith line "m="

/-- A line with an `a=mid`. -/
def isMid (line : String) : Bool := startsWith line "a=mid:"

/-- A candidate. -/
def isCandidate (line : String) : Bool := startsWith line "a=candidate:"

def isUfrag (line : String) : Bool := startsWith line "a=ice-ufrag:"

def isPwd (line : String) : Bool := startsWith line "a=ice-pwd:"

/-- The sections of a fragment. -/
def sections (lines : List String) : List (List String) :=
  lines.splitBy fun _ line => !isMedia line

/-- The mid of a section; empty if it has none. -/
def sectionMid (sec : List String) : String :=
  ((sec.find? isMid).map fun line => dropChars line 6).getD ""

/-- The candidates of a section, with its mid. -/
def sectionCandidates (sec : List String) : List (String × String) :=
  (sec.filter isCandidate).map fun line => (sectionMid sec, dropChars line 2)

/-- **Every candidate once, in order, and with the mid of its own section.** -/
def Sectioned (sdp : String) : Prop :=
  (parseCandidates sdp).candidates = (sections (sdpLinesOf sdp)).flatMap sectionCandidates

/-- The value of the last line of a kind, if there is one. -/
def lastValue (kind : String → Bool) (n : ℕ) (lines : List String) : Option String :=
  (lines.filter kind).getLast?.map fun line => dropChars line n

/-- The last mid. -/
def lastMid (lines : List String) : Option String := lastValue isMid 6 lines

/-- A candidate behind the lines `above` of its section, and behind the sections `before`,
    finds the mid of its own section: in the last `a=mid` above it in there, or, if there is none,
    in the last one of the sections before. -/
def FindsMid (before : List (List String)) (sec above : List String) : Prop :=
  match lastMid above with
  | some mid => mid = sectionMid sec
  | none => (lastMid before.flatten).getD "" = sectionMid sec

/-- All candidates do. -/
def MidsInPlace (secs : List (List String)) : Prop :=
  ∀ before sec after, secs = before ++ sec :: after →
    ∀ above line below, sec = above ++ line :: below → isCandidate line = true →
      FindsMid before sec above

/-! ### The parser -/

/-- The candidates with the mids they are given, from `mid` on. -/
def candidatesFrom (mid : String) : List String → List (String × String)
  | [] => []
  | line :: lines =>
    if isMid line then candidatesFrom (dropChars line 6) lines
    else if isCandidate line then (mid, dropChars line 2) :: candidatesFrom mid lines
    else candidatesFrom mid lines

theorem startsWith_clash {line a b : String} (hab : ¬ a.toList <+: b.toList)
    (hba : ¬ b.toList <+: a.toList) (h : startsWith line a = true) : startsWith line b = false := by
  rw [startsWith, List.isPrefixOf_iff_prefix] at h
  rw [Bool.eq_false_iff, Ne, startsWith, List.isPrefixOf_iff_prefix]
  exact fun hb => (List.prefix_or_prefix_of_prefix h hb).elim hab hba

theorem lastValue_cons (kind : String → Bool) (n : ℕ) (line : String) (lines : List String) :
    lastValue kind n (line :: lines) =
      (lastValue kind n lines).or (if kind line then some (dropChars line n) else none) := by
  rw [lastValue, lastValue, List.filter_cons]
  split
  · rw [List.getLast?_cons]
    cases (lines.filter kind).getLast? <;> rfl
  · rw [Option.or_none]

theorem getD_or_some {α : Type*} (o : Option α) (v d : α) : (o.or (some v)).getD d = o.getD v := by
  cases o <;> rfl

/-- **The result of the parser.** -/
theorem parseCandidatesFrom_eq (mid : String) (result : IceCandidates) (lines : List String) :
    parseCandidatesFrom mid result lines =
      { iceUfrag := (lastValue isUfrag 12 lines).getD result.iceUfrag
        icePwd := (lastValue isPwd 10 lines).getD result.icePwd
        candidates := result.candidates ++ candidatesFrom mid lines } := by
  induction lines generalizing mid result with
  | nil =>
    show result = _
    rw [candidatesFrom, List.append_nil]
    rfl
  | cons line lines ih =>
    rw [parseCandidatesFrom, candidatesFrom, lastValue_cons, lastValue_cons]
    change (if isMid line = true then _ else if isCandidate line = true then _
      else if isUfrag line = true then _ else if isPwd line = true then _ else _) = _
    by_cases hmid : isMid line = true
    · have hufrag : isUfrag line = false := startsWith_clash (by decide) (by decide) hmid
      have hpwd : isPwd line = false := startsWith_clash (by decide) (by decide) hmid
      simp only [hmid, hufrag, hpwd, if_true, Bool.false_eq_true, if_false, Option.or_none, ih]
    by_cases hcand : isCandidate line = true
    · have hufrag : isUfrag line = false := startsWith_clash (by decide) (by decide) hcand
      have hpwd : isPwd line = false := startsWith_clash (by decide) (by decide) hcand
      simp only [hmid, hcand, hufrag, hpwd, if_true, Bool.false_eq_true, if_false, Option.or_none,
        ih, List.append_assoc, List.singleton_append]
    by_cases hufrag : isUfrag line = true
    · have hpwd : isPwd line = false := startsWith_clash (by decide) (by decide) hufrag
      simp only [hmid, hcand, hufrag, hpwd, if_true, Bool.false_eq_true, if_false, Option.or_none,
        getD_or_some, ih]
    by_cases hpwd : isPwd line = true
    · simp only [hmid, hcand, hufrag, hpwd, if_true, Bool.false_eq_true, if_false, Option.or_none,
        getD_or_some, ih]
    · simp only [hmid, hcand, hufrag, hpwd, Bool.false_eq_true, if_false, Option.or_none, ih]

theorem parseCandidates_eq (sdp : String) :
    parseCandidates sdp =
      { iceUfrag := (lastValue isUfrag 12 (sdpLinesOf sdp)).getD ""
        icePwd := (lastValue isPwd 10 (sdpLinesOf sdp)).getD ""
        candidates := candidatesFrom "" (sdpLinesOf sdp) } :=
  parseCandidatesFrom_eq "" {} _

/-! ### Mids -/

theorem lastMid_append (above below : List String) :
    lastMid (above ++ below) = (lastMid below).or (lastMid above) := by
  rw [lastMid, lastMid, lastMid, lastValue, lastValue, lastValue, List.filter_append,
    List.getLast?_append, Option.map_or]

theorem candidatesFrom_append (mid : String) (xs ys : List String) :
    candidatesFrom mid (xs ++ ys) =
      candidatesFrom mid xs ++ candidatesFrom ((lastMid xs).getD mid) ys := by
  induction xs generalizing mid with
  | nil => rfl
  | cons line xs ih =>
    rw [List.cons_append, candidatesFrom, candidatesFrom, lastMid, lastValue_cons, ← lastMid]
    split_ifs with hmid hcand
    · rw [ih, getD_or_some]
    · rw [ih, Option.or_none, List.cons_append]
    · rw [ih, Option.or_none]

/-- As many as there are candidates. -/
theorem length_candidatesFrom (mid : String) (lines : List String) :
    (candidatesFrom mid lines).length = (lines.filter isCandidate).length := by
  induction lines generalizing mid with
  | nil => rfl
  | cons line lines ih =>
    rw [candidatesFrom, List.filter_cons]
    split_ifs with hmid hcand hcand
    · exact absurd hcand (Bool.eq_false_iff.mp (startsWith_clash (by decide) (by decide) hmid))
    · exact ih _
    · rw [List.length_cons, List.length_cons, ih]
    · exact ih _

theorem candidatesFrom_eq_map {mid mid' : String} {lines : List String}
    (h : ∀ above line below, lines = above ++ line :: below → isCandidate line = true →
      (lastMid above).getD mid = mid') :
    candidatesFrom mid lines = (lines.filter isCandidate).map fun l => (mid', dropChars l 2) := by
  induction lines generalizing mid with
  | nil => rfl
  | cons line lines ih =>
    have hrest : ∀ above l below, lines = above ++ l :: below → isCandidate l = true →
        (lastMid above).getD (if isMid line then dropChars line 6 else mid) = mid' := by
      intro above l below heq hl
      have hcons := h (line :: above) l below (by rw [heq]; rfl) hl
      rw [lastMid, lastValue_cons, ← lastMid] at hcons
      split_ifs at hcons ⊢
      · rwa [getD_or_some] at hcons
      · rwa [Option.or_none] at hcons
    rw [candidatesFrom, List.filter_cons]
    split_ifs at hrest ⊢ with hmid hcand hcand
    · exact absurd hcand (Bool.eq_false_iff.mp (startsWith_clash (by decide) (by decide) hmid))
    · exact ih hrest
    · rw [ih hrest, List.map_cons, show mid = mid' from h [] line lines rfl hcand]
    · exact ih hrest

/-- A section's candidates have its mid exactly when that is the last one above each of them. -/
theorem candidatesFrom_eq_map_iff (mid mid' : String) (lines : List String) :
    candidatesFrom mid lines =
        (lines.filter isCandidate).map (fun line => (mid', dropChars line 2)) ↔
      ∀ above line below, lines = above ++ line :: below → isCandidate line = true →
        (lastMid above).getD mid = mid' := by
  refine ⟨fun h above line below heq hline => ?_, candidatesFrom_eq_map⟩
  have hmid : ¬ isMid line = true :=
    Bool.eq_false_iff.mp (startsWith_clash (by decide) (by decide) hline)
  rw [heq, candidatesFrom_append, candidatesFrom, if_neg hmid, if_pos hline, List.filter_append,
    List.filter_cons_of_pos hline, List.map_append, List.map_cons] at h
  have hlen : (candidatesFrom mid above).length = ((above.filter isCandidate).map fun line =>
      (mid', dropChars line 2)).length := by
    rw [length_candidatesFrom, List.length_map]
  exact (Prod.mk.inj (List.cons.inj (List.append_inj h hlen).2).1).1

theorem findsMid_iff {before : List (List String)} {sec above : List String} :
    FindsMid before sec above ↔
      (lastMid above).getD ((lastMid before.flatten).getD "") = sectionMid sec := by
  rw [FindsMid]
  cases lastMid above <;> rfl

/-- **The mids of a fragment**, section after section. -/
theorem candidates_flatten_iff (before secs : List (List String)) :
    candidatesFrom ((lastMid before.flatten).getD "") secs.flatten =
        secs.flatMap sectionCandidates ↔
      ∀ between sec after, secs = between ++ sec :: after →
        ∀ above line below, sec = above ++ line :: below → isCandidate line = true →
          FindsMid (before ++ between) sec above := by
  induction secs generalizing before with
  | nil =>
    refine ⟨fun _ between sec after h => ?_, fun _ => rfl⟩
    exact absurd h (List.append_ne_nil_of_right_ne_nil between (List.cons_ne_nil _ _)).symm
  | cons sec secs ih =>
    have hmid : (lastMid sec).getD ((lastMid before.flatten).getD "") =
        (lastMid (before ++ [sec]).flatten).getD "" := by
      rw [List.flatten_append, List.flatten_singleton, lastMid_append]
      cases lastMid sec <;> rfl
    -- the first section and the others
    have hsplit : candidatesFrom ((lastMid before.flatten).getD "") (sec :: secs).flatten =
          (sec :: secs).flatMap sectionCandidates ↔
        candidatesFrom ((lastMid before.flatten).getD "") sec = sectionCandidates sec ∧
          candidatesFrom ((lastMid (before ++ [sec]).flatten).getD "") secs.flatten =
            secs.flatMap sectionCandidates := by
      rw [List.flatten_cons, List.flatMap_cons, candidatesFrom_append, hmid]
      refine ⟨fun h => List.append_inj h ?_, fun ⟨hhead, htail⟩ => by rw [hhead, htail]⟩
      rw [length_candidatesFrom, sectionCandidates, List.length_map]
    rw [hsplit, ih (before ++ [sec]), sectionCandidates, candidatesFrom_eq_map_iff]
    refine ⟨fun ⟨hhead, htail⟩ between s after heq above line below hs hline => ?_,
      fun h => ⟨fun above line below hs hline => ?_,
        fun between s after heq above line below hs hline => ?_⟩⟩
    · cases between with
      | nil =>
        obtain ⟨rfl, -⟩ := List.cons.inj heq
        rw [findsMid_iff, List.append_nil]
        exact hhead above line below hs hline
      | cons s' between =>
        obtain ⟨rfl, htl⟩ := List.cons.inj heq
        rw [List.append_cons]
        exact htail between s after htl above line below hs hline
    · have hfinds := h [] sec secs rfl above line below hs hline
      rwa [findsMid_iff, List.append_nil] at hfinds
    · rw [List.append_assoc]
      exact h (sec :: between) s after (by rw [heq]; rfl) above line below hs hline

/-- **The candidates keep their own sections** exactly when the last mid above each of them is
    the one of its section. -/
theorem candidates_sectioned_iff (sdp : String) :
    Sectioned sdp ↔ MidsInPlace (sections (sdpLinesOf sdp)) := by
  rw [Sectioned, parseCandidates_eq]
  have h := candidates_flatten_iff [] (sections (sdpLinesOf sdp))
  rw [sections, List.flatten_splitBy, ← sections] at h
  exact h

/-- A candidate of a section without a mid gets that of the section before. -/
theorem not_sectioned_withoutMid :
    ¬ Sectioned "m=audio\na=mid:0\na=candidate:1\nm=video\na=candidate:2\n" := by
  rw [Sectioned]
  decide

/-! ### Sections with one mid -/

/-- A section with one mid, and no candidate above it. -/
structure LeadingMid (mid : String) (sec : List String) : Prop where
  split : ∃ pre line post, sec = pre ++ line :: post ∧ isMid line = true ∧
    dropChars line 6 = mid ∧ (∀ l ∈ pre, isMid l = false ∧ isCandidate l = false) ∧
      ∀ l ∈ post, isMid l = false

namespace LeadingMid

variable {mid : String} {sec : List String}

theorem sectionMid_eq (h : LeadingMid mid sec) : sectionMid sec = mid := by
  obtain ⟨pre, line, post, rfl, hline, rfl, hpre, -⟩ := h.split
  have hfind : (pre ++ line :: post).find? isMid = some line := by
    rw [List.find?_append, List.find?_eq_none.mpr fun l hl => Bool.eq_false_iff.mp (hpre l hl).1,
      Option.none_or, List.find?_cons_of_pos hline]
  rw [sectionMid, hfind]
  rfl

/-- It is above every candidate. -/
theorem lastMid_above (h : LeadingMid mid sec) {above below : List String} {l : String}
    (heq : sec = above ++ l :: below) (hl : isCandidate l = true) : lastMid above = some mid := by
  obtain ⟨pre, line, post, rfl, hline, rfl, hpre, hpost⟩ := h.split
  have hne : line ≠ l := by
    rintro rfl
    rw [isCandidate, startsWith_clash (by decide) (by decide) hline] at hl
    exact Bool.false_ne_true hl
  rcases List.append_eq_append_iff.mp heq with ⟨as, habove, htail⟩ | ⟨as, hpre', htail⟩
  · cases as with
    | nil => exact absurd (List.cons.inj htail).1 hne
    | cons line' as =>
      obtain ⟨rfl, hpost'⟩ := List.cons.inj htail
      have hnone : as.filter isMid = [] := by
        rw [List.filter_eq_nil_iff]
        intro m hm
        rw [hpost m (hpost' ▸ List.mem_append_left _ hm)]
        exact Bool.false_ne_true
      rw [habove, lastMid_append, lastMid, lastValue, List.filter_cons_of_pos hline, hnone]
      rfl
  · cases as with
    | nil => exact absurd (List.cons.inj htail).1.symm hne
    | cons l' as =>
      obtain ⟨rfl, -⟩ := List.cons.inj htail
      have hcand := (hpre l (hpre' ▸ List.mem_append_right _ List.mem_cons_self)).2
      rw [hl] at hcand
      exact absurd hcand.symm Bool.false_ne_true

/-- Its candidates get it, whatever was read before. -/
theorem candidatesFrom_eq (h : LeadingMid mid sec) (mid' : String) :
    candidatesFrom mid' sec = (sec.filter isCandidate).map fun line => (mid, dropChars line 2) :=
  candidatesFrom_eq_map fun above line below heq hl => by
    rw [h.lastMid_above heq hl]
    rfl

end LeadingMid

/-- **Well-formed fragments**: each section that has candidates has one mid, above these. -/
theorem midsInPlace_of_leadingMid {secs : List (List String)}
    (h : ∀ sec ∈ secs, (∃ l ∈ sec, isCandidate l = true) → ∃ mid, LeadingMid mid sec) :
    MidsInPlace secs := by
  intro before sec after hsecs above line below hsec hline
  obtain ⟨mid, hmid⟩ := h sec (hsecs ▸ List.mem_append_right _ List.mem_cons_self)
    ⟨line, hsec ▸ List.mem_append_right _ List.mem_cons_self, hline⟩
  rw [findsMid_iff, hmid.lastMid_above hsec hline, hmid.sectionMid_eq]
  rfl

end PiWebrtc.Signaling
