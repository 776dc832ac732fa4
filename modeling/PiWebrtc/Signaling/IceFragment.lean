import PiWebrtc.Signaling.CandidateMids

namespace PiWebrtc.Signaling

/-!
# The ICE fragment and its readers

`IceFragmentOf` takes lines out of a description: those of the session, and those of the
first m-section.  `ParseCandidates` reads the fragment line by line, `EntityTagOf` searches a
text as a whole for the first username fragment.

* `sdpLinesOf_iceFragmentOf` — the lines of a fragment;
* `iceFragmentOf_idem` — a fragment is its own fragment;
* `iceUfragOf_lines` — the search of `EntityTagOf`, line by line;
* `iceFragment_agrees` — the readers agree about a description whose first m-section has
  credentials.
-/

/-! ### The lines of a fragment -/

/-- The lines that are taken besides the `m=` lines. -/
def iceLine (inMedia : Bool) (line : String) : Bool :=
  (if inMedia then mediaLines else sessionLines).any (startsWith line ·)

/-- The lines that `IceFragmentOf` takes. -/
def fragmentLines (inMedia : Bool) : List String → List String
  | [] => []
  | line :: lines =>
    if isMedia line then if inMedia then [] else line :: fragmentLines true lines
    else if iceLine inMedia line then line :: fragmentLines inMedia lines
    else fragmentLines inMedia lines

/-- Lines, each ended with `\r\n`. -/
def joinLines (lines : List String) : String :=
  lines.foldr (fun line text => line ++ "\r\n" ++ text) ""

theorem iceFragmentFrom_eq (inMedia : Bool) (lines : List String) :
    iceFragmentFrom inMedia lines = joinLines (fragmentLines inMedia lines) := by
  induction lines generalizing inMedia with
  | nil => rfl
  | cons line lines ih =>
    rw [iceFragmentFrom, fragmentLines, ih, ih]
    change (if isMedia line = true then _ else if iceLine inMedia line = true then _ else _) = _
    split_ifs <;> rfl

theorem fragmentLines_subset (inMedia : Bool) (lines : List String) :
    fragmentLines inMedia lines ⊆ lines := by
  induction lines generalizing inMedia with
  | nil => exact List.Subset.refl []
  | cons line lines ih =>
    rw [fragmentLines]
    split_ifs
    · exact List.nil_subset _
    · exact List.cons_subset_cons line (ih true)
    · exact List.cons_subset_cons line (ih inMedia)
    · exact List.subset_cons_of_subset line (ih inMedia)

/-- Lines that were taken are taken again. -/
theorem fragmentLines_idem (inMedia : Bool) (lines : List String) :
    fragmentLines inMedia (fragmentLines inMedia lines) = fragmentLines inMedia lines := by
  induction lines generalizing inMedia with
  | nil => rfl
  | cons line lines ih =>
    rw [fragmentLines]
    split_ifs with hmedia hin hice
    · rfl
    · rw [fragmentLines, if_pos hmedia, if_neg hin, ih]
    · rw [fragmentLines, if_neg hmedia, if_pos hice, ih]
    · exact ih inMedia

/-! ### Texts and lines -/

theorem linesFrom_append {x : List Char} (hx : '\n' ∉ x) (rest line : List Char) :
    linesFrom (x ++ rest) line = linesFrom rest (x.reverse ++ line) := by
  induction x generalizing line with
  | nil => rfl
  | cons c x ih =>
    rw [List.mem_cons, not_or] at hx
    rw [List.cons_append, linesFrom, if_neg (Ne.symm hx.1), ih hx.2, List.reverse_cons,
      List.append_assoc, List.singleton_append]

theorem stripReturn_return (x : List Char) : stripReturn (x ++ ['\r']) = x := by
  rw [stripReturn, if_pos List.getLast?_concat, List.dropLast_concat]

/-- Lines that are joined are read again. -/
theorem sdpLinesOf_joinLines {lines : List String} (h : ∀ line ∈ lines, '\n' ∉ line.toList) :
    sdpLinesOf (joinLines lines) = lines := by
  induction lines with
  | nil => rfl
  | cons line lines ih =>
    obtain ⟨hline, hlines⟩ := List.forall_mem_cons.mp h
    have hread : linesFrom (line.toList ++ '\r' :: '\n' :: (joinLines lines).toList) [] =
        line.toList :: linesFrom (joinLines lines).toList [] := by
      rw [linesFrom_append hline, linesFrom, if_neg (by decide), linesFrom, if_pos rfl,
        List.append_nil, List.reverse_cons, List.reverse_reverse, stripReturn_return]
    have htext : (joinLines (line :: lines)).toList =
        line.toList ++ '\r' :: '\n' :: (joinLines lines).toList := by
      show (line ++ "\r\n" ++ joinLines lines).toList = _
      rw [String.toList_append, String.toList_append, List.append_assoc]
      rfl
    rw [sdpLinesOf, htext, hread, List.map_cons, String.ofList_toList]
    exact congrArg _ (ih hlines)

theorem stripReturn_subset (line : List Char) : stripReturn line ⊆ line := by
  rw [stripReturn]
  split
  · exact (List.dropLast_sublist line).subset
  · exact List.Subset.refl line

theorem not_newline_of_mem_linesFrom {text line l : List Char} (hline : '\n' ∉ line)
    (h : l ∈ linesFrom text line) : '\n' ∉ l := by
  have hstrip : '\n' ∉ stripReturn line.reverse := fun hin =>
    hline (List.mem_reverse.mp (stripReturn_subset _ hin))
  induction text generalizing line with
  | nil =>
    rw [linesFrom] at h
    split at h
    · exact absurd h List.not_mem_nil
    · exact List.mem_singleton.mp h ▸ hstrip
  | cons c text ih =>
    rw [linesFrom] at h
    split at h
    next =>
      rcases List.mem_cons.mp h with rfl | h
      · exact hstrip
      · exact ih List.not_mem_nil h (by decide)
    next hc =>
      have hcons : '\n' ∉ c :: line := by
        rw [List.mem_cons, not_or]
        exact ⟨Ne.symm hc, hline⟩
      exact ih hcons h fun hin => hcons (List.mem_reverse.mp (stripReturn_subset _ hin))

theorem not_newline_of_mem {sdp line : String} (h : line ∈ sdpLinesOf sdp) :
    '\n' ∉ line.toList := by
  obtain ⟨l, hl, rfl⟩ := List.mem_map.mp h
  rw [String.toList_ofList]
  exact not_newline_of_mem_linesFrom List.not_mem_nil hl

/-- **The lines of a fragment.** -/
theorem sdpLinesOf_iceFragmentOf (sdp : String) :
    sdpLinesOf (iceFragmentOf sdp) = fragmentLines false (sdpLinesOf sdp) := by
  rw [iceFragmentOf, iceFragmentFrom_eq]
  exact sdpLinesOf_joinLines fun line hline =>
    not_newline_of_mem (fragmentLines_subset false _ hline)

/-- **A fragment is its own fragment**, whatever the description is. -/
theorem iceFragmentOf_idem (sdp : String) :
    iceFragmentOf (iceFragmentOf sdp) = iceFragmentOf sdp := by
  rw [iceFragmentOf, sdpLinesOf_iceFragmentOf, iceFragmentFrom_eq, fragmentLines_idem,
    ← iceFragmentFrom_eq]
  rfl

/-! ### The search for a username fragment -/

/-- `a=ice-ufrag:`. -/
def ufragKey : List Char := "a=ice-ufrag:".toList

/-- The value that begins where a text begins, if there is one. -/
def ufragHere (s : List Char) : Option (List Char) :=
  let value := (s.drop 12).takeWhile fun x => x ≠ '\r' && x ≠ '\n'
  if ufragKey.isPrefixOf s ∧ value ≠ [] then some value else none

theorem iceUfragOf_cons (c : Char) (s : List Char) :
    iceUfragOf (c :: s) = (ufragHere (c :: s)).or (iceUfragOf s) := by
  simp only [iceUfragOf, ufragHere]
  by_cases h : ufragKey.isPrefixOf (c :: s) = true ∧
      (((c :: s).drop 12).takeWhile fun x => x ≠ '\r' && x ≠ '\n') ≠ []
  · rw [if_pos h, Option.some_or]
    exact if_pos h
  · rw [if_neg h, Option.none_or]
    exact if_neg h

/-- A value ends with its line, and none begins at the end of a line. -/
theorem ufragHere_append {s rest : List Char} {c : Char} (hc : c = '\n' ∨ c = '\r') :
    ufragHere (s ++ c :: rest) = ufragHere s := by
  have hstop : ∀ x : List Char, (x ++ c :: rest).takeWhile (fun x => x ≠ '\r' && x ≠ '\n') =
      x.takeWhile (fun x => x ≠ '\r' && x ≠ '\n') := by
    intro x
    induction x with
    | nil =>
      rw [List.nil_append, List.takeWhile_cons_of_neg, List.takeWhile_nil]
      rcases hc with rfl | rfl <;> decide
    | cons d x ih => rw [List.cons_append, List.takeWhile_cons, List.takeWhile_cons, ih]
  have hpre : ufragKey.isPrefixOf (s ++ c :: rest) = ufragKey.isPrefixOf s := by
    rw [Bool.eq_iff_iff, List.isPrefixOf_iff_prefix, List.isPrefixOf_iff_prefix]
    refine ⟨fun h => ?_, fun h => h.trans (List.prefix_append _ _)⟩
    rcases List.prefix_or_prefix_of_prefix h (List.prefix_append s (c :: rest)) with hle | ⟨k, hk⟩
    · exact hle
    · cases k with
      | nil =>
        rw [List.append_nil] at hk
        exact hk ▸ List.prefix_refl s
      | cons d k =>
        -- the rest of the key would begin with the end of the line
        rw [← hk, List.prefix_append_right_inj] at h
        obtain rfl := (List.cons_prefix_cons.mp h).1
        have hin : d ∈ ufragKey := hk ▸ List.mem_append_right s List.mem_cons_self
        rcases hc with rfl | rfl
        all_goals exact absurd hin (by decide)
  rw [ufragHere, ufragHere, hpre]
  by_cases hpre : ufragKey.isPrefixOf s = true
  · obtain ⟨v, rfl⟩ := List.isPrefixOf_iff_prefix.mp hpre
    rw [List.drop_append_of_le_length (by rw [List.length_append]; exact Nat.le_add_right 12 _),
      hstop]
  · rw [if_neg fun h => hpre h.1, if_neg fun h => hpre h.1]

theorem iceUfragOf_append {s rest : List Char} {c : Char} (hc : c = '\n' ∨ c = '\r') :
    iceUfragOf (s ++ c :: rest) = (iceUfragOf s).or (iceUfragOf rest) := by
  induction s with
  | nil =>
    have hnone : ufragHere ([] ++ c :: rest) = none := (ufragHere_append hc).trans (by decide)
    rw [List.nil_append] at hnone ⊢
    rw [iceUfragOf_cons, hnone]
    rfl
  | cons d s ih =>
    rw [List.cons_append, iceUfragOf_cons, iceUfragOf_cons, ih, ← List.cons_append,
      ufragHere_append hc, Option.or_assoc]

theorem iceUfragOf_stripReturn (line : List Char) :
    iceUfragOf (stripReturn line) = iceUfragOf line := by
  rw [stripReturn]
  split
  next hlast =>
    obtain ⟨x, rfl⟩ := List.getLast?_eq_some_iff.mp hlast
    rw [List.dropLast_concat, iceUfragOf_append (.inr rfl)]
    exact (Option.or_none).symm
  next => rfl

theorem iceUfragOf_linesFrom (text line : List Char) :
    (linesFrom text line).findSome? iceUfragOf = iceUfragOf (line.reverse ++ text) := by
  induction text generalizing line with
  | nil =>
    rw [linesFrom, List.append_nil]
    split
    next hnil => rw [hnil]; rfl
    next => rw [List.findSome?_singleton, iceUfragOf_stripReturn]
  | cons c text ih =>
    rw [linesFrom]
    split
    next hc =>
      rw [List.findSome?_cons, iceUfragOf_stripReturn, ih, iceUfragOf_append (.inl hc)]
      cases iceUfragOf line.reverse <;> rfl
    next => rw [ih, List.reverse_cons, List.append_assoc, List.singleton_append]

/-- **The search goes through the lines.** -/
theorem iceUfragOf_lines (sdp : String) :
    iceUfragOf sdp.toList = (sdpLinesOf sdp).findSome? fun line => iceUfragOf line.toList := by
  have h := iceUfragOf_linesFrom sdp.toList []
  rw [sdpLinesOf, List.findSome?_map]
  simp only [Function.comp_def, String.toList_ofList]
  exact h.symm

/-- What is found stands behind the key. -/
theorem exists_of_iceUfragOf {s v : List Char} (h : iceUfragOf s = some v) :
    ∃ a b, s = a ++ ufragKey ++ b := by
  induction s with
  | nil => exact absurd h (Option.some_ne_none v).symm
  | cons c s ih =>
    rw [iceUfragOf_cons] at h
    cases hhere : ufragHere (c :: s) with
    | none =>
      rw [hhere, Option.none_or] at h
      obtain ⟨a, b, rfl⟩ := ih h
      exact ⟨c :: a, b, rfl⟩
    | some w =>
      rw [ufragHere] at hhere
      split at hhere
      next hpre =>
        obtain ⟨b, hb⟩ := List.isPrefixOf_iff_prefix.mp hpre.1
        exact ⟨[], b, hb.symm⟩
      next => exact absurd hhere (Option.some_ne_none w).symm

/-! ### Descriptions -/

/-- The lines before the first m-section. -/
def sessionPart (lines : List String) : List String := lines.takeWhile fun line => !isMedia line

/-- The lines of the first m-section, after its `m=` line. -/
def firstSection (lines : List String) : List String :=
  ((lines.dropWhile fun line => !isMedia line).drop 1).takeWhile fun line => !isMedia line

/-- A description whose credentials stand in its m-sections, with one of each in the first one,
    which also has one mid, above its candidates; and the key of a username fragment stands
    nowhere but where a line begins. -/
structure IceText (sdp mid ufrag pwd : String) : Prop where
  no_return : ∀ line ∈ sdpLinesOf sdp, '\r' ∉ line.toList
  session : ∀ line ∈ sessionPart (sdpLinesOf sdp), isUfrag line = false ∧ isPwd line = false
  leading : LeadingMid mid (firstSection (sdpLinesOf sdp))
  one_ufrag : (firstSection (sdpLinesOf sdp)).filter isUfrag = ["a=ice-ufrag:" ++ ufrag]
  one_pwd : (firstSection (sdpLinesOf sdp)).filter isPwd = ["a=ice-pwd:" ++ pwd]
  at_start : ∀ line ∈ sdpLinesOf sdp, ∀ a b, line.toList = a ++ ufragKey ++ b → a = []

/-- What the first m-section says. -/
def sectionIce (mid ufrag pwd : String) (sec : List String) : IceCandidates where
  iceUfrag := ufrag
  icePwd := pwd
  candidates := (sec.filter isCandidate).map fun line => (mid, dropChars line 2)

section Agree

variable {sdp mid ufrag pwd : String} {lines : List String}

theorem lines_split (h : firstSection lines ≠ []) :
    ∃ media rest, isMedia media = true ∧ lines = sessionPart lines ++ media :: rest ∧
      firstSection lines = rest.takeWhile fun line => !isMedia line := by
  have hsplit := List.takeWhile_append_dropWhile (p := fun line => !isMedia line) (l := lines)
  cases hdrop : lines.dropWhile fun line => !isMedia line with
  | nil =>
    rw [firstSection, hdrop] at h
    exact absurd rfl h
  | cons media rest =>
    refine ⟨media, rest, ?_, (hdrop ▸ hsplit).symm, by rw [firstSection, hdrop]; rfl⟩
    have hhead := List.head?_dropWhile_not (fun line => !isMedia line) lines
    rw [hdrop] at hhead
    exact (Bool.not_eq_false' _).mp hhead

theorem fragmentLines_true (lines : List String) :
    fragmentLines true lines =
      (lines.takeWhile fun line => !isMedia line).filter (iceLine true) := by
  induction lines with
  | nil => rfl
  | cons line lines ih =>
    rw [fragmentLines, List.takeWhile_cons]
    cases hmedia : isMedia line with
    | true => rfl
    | false =>
      rw [if_neg Bool.false_ne_true, Bool.not_false, if_pos rfl, List.filter_cons, ih]

theorem fragmentLines_false {pre : List String} (hpre : ∀ line ∈ pre, isMedia line = false)
    {media : String} (hmedia : isMedia media = true) (rest : List String) :
    fragmentLines false (pre ++ media :: rest) =
      pre.filter (iceLine false) ++ media :: fragmentLines true rest := by
  induction pre with
  | nil => rw [List.nil_append, fragmentLines, if_pos hmedia, if_neg Bool.false_ne_true]; rfl
  | cons line pre ih =>
    obtain ⟨hline, hpre⟩ := List.forall_mem_cons.mp hpre
    rw [List.cons_append, fragmentLines, hline, if_neg Bool.false_ne_true, ih hpre,
      List.filter_cons]
    split <;> rfl

theorem not_media_of_mem_sessionPart {line : String} (h : line ∈ sessionPart lines) :
    isMedia line = false :=
  (Bool.not_eq_true' _).mp (List.mem_takeWhile_imp (p := fun line => !isMedia line) h)

/-- **A fragment** is made of lines of the session and of the first m-section. -/
theorem fragmentLines_eq (h : firstSection lines ≠ []) :
    ∃ media, isMedia media = true ∧ fragmentLines false lines =
      (sessionPart lines).filter (iceLine false) ++
        media :: (firstSection lines).filter (iceLine true) := by
  obtain ⟨media, rest, hmedia, hlines, hfirst⟩ := lines_split h
  refine ⟨media, hmedia, ?_⟩
  conv_lhs => rw [hlines]
  rw [fragmentLines_false (fun _ => not_media_of_mem_sessionPart) hmedia, fragmentLines_true,
    ← hfirst]

/-- A key of the m-sections that no other line begins with. -/
structure MediaKey (key : String) : Prop where
  mem : key ∈ mediaLines
  clash : ∀ k ∈ "m=" :: sessionLines, ¬ k.toList <+: key.toList ∧ ¬ key.toList <+: k.toList

theorem MediaKey.not_media {key : String} (h : MediaKey key) {line : String}
    (hline : isMedia line = true) : startsWith line key = false := by
  obtain ⟨hle, hge⟩ := h.clash "m=" List.mem_cons_self
  exact startsWith_clash hle hge hline

theorem MediaKey.not_session {key : String} (h : MediaKey key) {line : String}
    (hline : iceLine false line = true) : startsWith line key = false := by
  obtain ⟨k, hk, hstart⟩ := List.any_eq_true.mp hline
  obtain ⟨hle, hge⟩ := h.clash k (List.mem_cons_of_mem _ hk)
  exact startsWith_clash hle hge hstart

theorem MediaKey.taken {key : String} (h : MediaKey key) {line : String}
    (hline : startsWith line key = true) : iceLine true line = true :=
  List.any_eq_true.mpr ⟨key, h.mem, hline⟩

/-- The lines of such a key in a fragment are those of the first m-section. -/
theorem MediaKey.filter_fragmentLines {key : String} (h : MediaKey key)
    (hfirst : firstSection lines ≠ []) :
    (fragmentLines false lines).filter (startsWith · key) =
      (firstSection lines).filter (startsWith · key) := by
  obtain ⟨media, hmedia, hlines⟩ := fragmentLines_eq hfirst
  have hsession : ((sessionPart lines).filter (iceLine false)).filter
      (startsWith · key) = [] := by
    rw [List.filter_eq_nil_iff]
    intro line hline
    rw [h.not_session (List.mem_filter.mp hline).2]
    exact Bool.false_ne_true
  rw [hlines, List.filter_append, hsession, List.filter_cons, h.not_media hmedia,
    if_neg Bool.false_ne_true, List.nil_append, List.filter_filter]
  refine List.filter_congr fun line _ => ?_
  cases hline : startsWith line key with
  | false => rfl
  | true => rw [h.taken hline]; rfl

theorem mediaKey_ufrag : MediaKey "a=ice-ufrag:" := ⟨by decide, by decide⟩

theorem mediaKey_pwd : MediaKey "a=ice-pwd:" := ⟨by decide, by decide⟩

theorem mediaKey_mid : MediaKey "a=mid:" := ⟨by decide, by decide⟩

theorem mediaKey_candidate : MediaKey "a=candidate:" := ⟨by decide, by decide⟩

/-- The mid stays above the candidates. -/
theorem LeadingMid.in_fragment (h : LeadingMid mid (firstSection lines)) :
    LeadingMid mid (fragmentLines false lines) := by
  obtain ⟨pre, line, post, hsec, hline, hmid, hpre, hpost⟩ := h.split
  have hne : firstSection lines ≠ [] := by
    rw [hsec]
    exact List.append_ne_nil_of_right_ne_nil pre (List.cons_ne_nil _ _)
  obtain ⟨media, hmedia, hlines⟩ := fragmentLines_eq hne
  refine ⟨(sessionPart lines).filter (iceLine false) ++ media :: pre.filter (iceLine true), line,
    post.filter (iceLine true), ?_, hline, hmid, ?_, fun l hl => hpost l (List.mem_filter.mp hl).1⟩
  · rw [hlines, hsec, List.filter_append, List.filter_cons_of_pos (mediaKey_mid.taken hline),
      List.append_assoc, List.cons_append]
  · intro l hl
    rcases List.mem_append.mp hl with hl | hl
    · have hice := (List.mem_filter.mp hl).2
      exact ⟨mediaKey_mid.not_session hice, mediaKey_candidate.not_session hice⟩
    rcases List.mem_cons.mp hl with rfl | hl
    · exact ⟨mediaKey_mid.not_media hmedia, mediaKey_candidate.not_media hmedia⟩
    · exact hpre l (List.mem_filter.mp hl).1

theorem dropChars_append {key s : String} {n : ℕ} (hn : key.toList.length = n) :
    dropChars (key ++ s) n = s := by
  rw [dropChars, String.toList_append, ← hn, List.drop_left, String.ofList_toList]

/-- A fragment has the one value of a credential in the first m-section. -/
theorem lastValue_fragmentLines {key value : String} {n : ℕ} (hkey : MediaKey key)
    (hn : key.toList.length = n)
    (hone : (firstSection lines).filter (startsWith · key) = [key ++ value]) :
    lastValue (startsWith · key) n (fragmentLines false lines) = some value := by
  have hne : firstSection lines ≠ [] := by
    intro hnil
    rw [hnil] at hone
    exact absurd hone.symm (List.cons_ne_nil _ _)
  rw [lastValue, hkey.filter_fragmentLines hne, hone, List.getLast?_singleton, Option.map_some,
    dropChars_append hn]

theorem IceText.firstSection_ne_nil (h : IceText sdp mid ufrag pwd) :
    firstSection (sdpLinesOf sdp) ≠ [] := by
  intro hnil
  have hone := h.one_ufrag
  rw [hnil] at hone
  exact absurd hone.symm (List.cons_ne_nil _ _)

/-- **What `ParseCandidates` reads of a fragment.** -/
theorem parseCandidates_iceFragmentOf (h : IceText sdp mid ufrag pwd) :
    parseCandidates (iceFragmentOf sdp) =
      sectionIce mid ufrag pwd (firstSection (sdpLinesOf sdp)) := by
  have hufrag := lastValue_fragmentLines mediaKey_ufrag (n := 12) (by decide) h.one_ufrag
  have hpwd := lastValue_fragmentLines mediaKey_pwd (n := 10) (by decide) h.one_pwd
  have hcand := mediaKey_candidate.filter_fragmentLines h.firstSection_ne_nil
  rw [parseCandidates_eq, sdpLinesOf_iceFragmentOf, sectionIce,
    h.leading.in_fragment.candidatesFrom_eq]
  change IceCandidates.mk ((lastValue (startsWith · "a=ice-ufrag:") 12 _).getD "")
    ((lastValue (startsWith · "a=ice-pwd:") 10 _).getD "")
    ((List.filter (startsWith · "a=candidate:") _).map _) = _
  rw [hufrag, hpwd, hcand]
  rfl

theorem findSome?_of_filter {α β : Type*} {kind : α → Bool} {f : α → Option β} {l : List α}
    (h : ∀ a ∈ l, kind a = false → f a = none) : l.findSome? f = (l.filter kind).findSome? f := by
  induction l with
  | nil => rfl
  | cons a l ih =>
    obtain ⟨ha, hl⟩ := List.forall_mem_cons.mp h
    rw [List.findSome?_cons, List.filter_cons, ih hl]
    cases hkind : kind a with
    | false => rw [ha hkind, if_neg Bool.false_ne_true]
    | true => rw [if_pos rfl, List.findSome?_cons]

/-- The value of a line that is a username fragment. -/
theorem iceUfragOf_line {u : List Char} (hne : u ≠ []) (hr : '\r' ∉ u) (hn : '\n' ∉ u) :
    iceUfragOf (ufragKey ++ u) = some u := by
  have htake : u.takeWhile (fun x => x ≠ '\r' && x ≠ '\n') = u := by
    rw [List.takeWhile_eq_self_iff]
    intro c hc
    rw [Bool.and_eq_true, decide_eq_true_iff, decide_eq_true_iff]
    exact ⟨fun h => hr (h ▸ hc), fun h => hn (h ▸ hc)⟩
  have hhere : ufragHere (ufragKey ++ u) = some u := by
    have hdrop : (ufragKey ++ u).drop 12 = u := List.drop_left' rfl
    rw [ufragHere, hdrop, htake,
      if_pos ⟨List.isPrefixOf_iff_prefix.mpr (List.prefix_append _ _), hne⟩]
  show iceUfragOf ('a' :: ("=ice-ufrag:".toList ++ u)) = some u
  rw [iceUfragOf_cons]
  exact congrArg (Option.or · _) hhere

/-- The search finds the first one among lines in which the key stands only at the start. -/
theorem iceUfragOf_of_filter {others : List String}
    (hstart : ∀ line ∈ lines, ∀ a b, line.toList = a ++ ufragKey ++ b → a = [])
    (hfilter : lines.filter isUfrag = ("a=ice-ufrag:" ++ ufrag) :: others) (hne : ufrag ≠ "")
    (hr : '\r' ∉ ufrag.toList) (hn : '\n' ∉ ufrag.toList) :
    lines.findSome? (fun line => iceUfragOf line.toList) = some ufrag.toList := by
  have hkind : ∀ line ∈ lines, isUfrag line = false → iceUfragOf line.toList = none := by
    intro line hline hnot
    cases hfound : iceUfragOf line.toList with
    | none => rfl
    | some v =>
      obtain ⟨a, b, hab⟩ := exists_of_iceUfragOf hfound
      rw [hstart line hline a b hab, List.nil_append] at hab
      rw [isUfrag, startsWith_iff.mpr ⟨b, hab⟩] at hnot
      exact absurd hnot.symm Bool.false_ne_true
  have hline : iceUfragOf ("a=ice-ufrag:" ++ ufrag).toList = some ufrag.toList := by
    rw [String.toList_append]
    exact iceUfragOf_line (fun h => hne (String.toList_eq_nil_iff.mp h)) hr hn
  rw [findSome?_of_filter hkind, hfilter, List.findSome?_cons, hline]

/-- **The entity tag of a fragment** is that of the description, if the first m-section has a
    username fragment with something in it. -/
theorem entityTagOf_iceFragmentOf (h : IceText sdp mid ufrag pwd) (hufrag : ufrag ≠ "") :
    entityTagOf (iceFragmentOf sdp) = entityTagOf sdp := by
  have hne := h.firstSection_ne_nil
  obtain ⟨media, rest, hmedia, hlines, hfirst⟩ := lines_split hne
  -- the first username fragment of the description is that of the first m-section
  have hsdp : (sdpLinesOf sdp).filter isUfrag = ("a=ice-ufrag:" ++ ufrag) ::
      (rest.dropWhile fun line => !isMedia line).filter isUfrag := by
    have hsession : (sessionPart (sdpLinesOf sdp)).filter isUfrag = [] := by
      rw [List.filter_eq_nil_iff]
      intro line hline
      rw [(h.session line hline).1]
      exact Bool.false_ne_true
    have hsplit := List.takeWhile_append_dropWhile (p := fun line => !isMedia line) (l := rest)
    have hrest : rest.filter isUfrag = ("a=ice-ufrag:" ++ ufrag) ::
        (rest.dropWhile fun line => !isMedia line).filter isUfrag := by
      conv_lhs => rw [← hsplit]
      rw [List.filter_append, ← hfirst, h.one_ufrag]
      rfl
    rw [hlines, List.filter_append, hsession, List.filter_cons, isUfrag,
      mediaKey_ufrag.not_media hmedia, if_neg Bool.false_ne_true, List.nil_append, hrest]
  have hfragment : (fragmentLines false (sdpLinesOf sdp)).filter isUfrag =
      ["a=ice-ufrag:" ++ ufrag] :=
    (mediaKey_ufrag.filter_fragmentLines hne).trans h.one_ufrag
  have hmem : "a=ice-ufrag:" ++ ufrag ∈ sdpLinesOf sdp :=
    (List.mem_filter.mp (hsdp ▸ List.mem_cons_self)).1
  have hin : ∀ c ∈ ufrag.toList, c ∈ ("a=ice-ufrag:" ++ ufrag).toList := by
    intro c hc
    rw [String.toList_append]
    exact List.mem_append_right _ hc
  have hr : '\r' ∉ ufrag.toList := fun hc => h.no_return _ hmem (hin _ hc)
  have hn : '\n' ∉ ufrag.toList := fun hc => not_newline_of_mem hmem (hin _ hc)
  have hstart : ∀ line ∈ fragmentLines false (sdpLinesOf sdp), ∀ a b,
      line.toList = a ++ ufragKey ++ b → a = [] :=
    fun line hline => h.at_start line (fragmentLines_subset false _ hline)
  rw [entityTagOf, entityTagOf, iceUfragOf_lines, iceUfragOf_lines, sdpLinesOf_iceFragmentOf,
    iceUfragOf_of_filter hstart hfragment hufrag hr hn,
    iceUfragOf_of_filter h.at_start hsdp hufrag hr hn]

/-- **The readers of the fragment agree.** -/
theorem iceFragment_agrees (h : IceText sdp mid ufrag pwd) (hufrag : ufrag ≠ "") :
    parseCandidates (iceFragmentOf sdp) =
        sectionIce mid ufrag pwd (firstSection (sdpLinesOf sdp)) ∧
      entityTagOf (iceFragmentOf sdp) = entityTagOf sdp ∧
        iceFragmentOf (iceFragmentOf sdp) = iceFragmentOf sdp :=
  ⟨parseCandidates_iceFragmentOf h, entityTagOf_iceFragmentOf h hufrag, iceFragmentOf_idem sdp⟩

/-- The key is found only at the start when none of the texts after it begins with it. -/
theorem at_start_of_tails {l : List Char} (h : ∀ t ∈ l.tail.tails, ufragKey.isPrefixOf t = false)
    (a b : List Char) (heq : l = a ++ ufragKey ++ b) : a = [] := by
  cases a with
  | nil => rfl
  | cons c a =>
    have hmem : ufragKey ++ b ∈ l.tail.tails := by
      rw [heq, List.mem_tails, List.cons_append, List.cons_append, List.tail_cons,
        List.append_assoc]
      exact List.suffix_append a _
    have hnot := h _ hmem
    rw [List.isPrefixOf_iff_prefix.mpr (List.prefix_append _ _)] at hnot
    exact absurd hnot.symm Bool.false_ne_true

/-- The lines of two m-sections; the first one has `ufrag`. -/
def twoSections (ufrag : String) : List String :=
  ["v=0", "m=audio", "a=mid:0", "a=ice-ufrag:" ++ ufrag, "a=ice-pwd:p", "a=candidate:1",
    "m=video", "a=ice-ufrag:second", "a=ice-pwd:q"]

/-- What is asked of the lines of a description, so that it can be evaluated. -/
theorem iceText_of_lines (lead : List String) (line : String) (post : List String)
    (hnewline : ∀ l ∈ lines, '\n' ∉ l.toList) (hreturn : ∀ l ∈ lines, '\r' ∉ l.toList)
    (hsession : ∀ l ∈ sessionPart lines, isUfrag l = false ∧ isPwd l = false)
    (hfirst : firstSection lines = lead ++ line :: post)
    (hline : isMid line = true ∧ dropChars line 6 = mid)
    (hlead : ∀ l ∈ lead, isMid l = false ∧ isCandidate l = false)
    (hpost : ∀ l ∈ post, isMid l = false)
    (hufrag : (firstSection lines).filter isUfrag = ["a=ice-ufrag:" ++ ufrag])
    (hpwd : (firstSection lines).filter isPwd = ["a=ice-pwd:" ++ pwd])
    (hstart : ∀ l ∈ lines, ∀ t ∈ l.toList.tail.tails, ufragKey.isPrefixOf t = false) :
    IceText (joinLines lines) mid ufrag pwd := by
  have hlines : sdpLinesOf (joinLines lines) = lines := sdpLinesOf_joinLines hnewline
  constructor <;> rw [hlines]
  · exact hreturn
  · exact hsession
  · exact ⟨lead, line, post, hfirst, hline.1, hline.2, hlead, hpost⟩
  · exact hufrag
  · exact hpwd
  · exact fun l hl => at_start_of_tails (hstart l hl)

/-- An empty username fragment in the first m-section: the description has the entity tag of the
    second one, the fragment none. -/
theorem not_iceFragment_agrees_emptyUfrag :
    IceText (joinLines (twoSections "")) "0" "" "p" ∧
      entityTagOf (iceFragmentOf (joinLines (twoSections ""))) ≠
        entityTagOf (joinLines (twoSections "")) :=
  ⟨iceText_of_lines [] "a=mid:0" ["a=ice-ufrag:", "a=ice-pwd:p", "a=candidate:1"]
      (by decide) (by decide) (by decide) (by decide) (by decide)
      nofun (by decide +kernel) (by decide +kernel) (by decide +kernel) (by decide +kernel),
    by decide +kernel⟩

theorem iceFragment_agrees_twoSections :
    parseCandidates (iceFragmentOf (joinLines (twoSections "first"))) =
        sectionIce "0" "first" "p" (firstSection (sdpLinesOf (joinLines (twoSections "first")))) ∧
      entityTagOf (iceFragmentOf (joinLines (twoSections "first"))) =
        entityTagOf (joinLines (twoSections "first")) ∧
        iceFragmentOf (iceFragmentOf (joinLines (twoSections "first"))) =
          iceFragmentOf (joinLines (twoSections "first")) :=
  iceFragment_agrees (iceText_of_lines [] "a=mid:0"
      ["a=ice-ufrag:first", "a=ice-pwd:p", "a=candidate:1"]
      (by decide) (by decide) (by decide) (by decide) (by decide)
      nofun (by decide) (by decide) (by decide) (by decide))
    (by decide)

end Agree

end PiWebrtc.Signaling
