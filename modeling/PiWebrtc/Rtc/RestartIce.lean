import PiWebrtc.Lib.Rewrite

namespace PiWebrtc.Rtc

open Rewrite

/-!
# Restarting ICE

`RestartIce` takes the text of the remote description, replaces the ICE credentials in it and
drops the candidates, with three regular expressions that are replaced wherever they match,
and applies the result as an offer.  A credential is given as a replacement format.

* `restartIce_of_clean` — the offer is as it should be when the patterns stand only where a
  line begins and the credentials have nothing in them that is taken for more than text;
* `restartIce_rewrites_iff` — which descriptions that is.
-/

/-! ### The source -/

/-- What the lines begin with. -/
def ufragKey : List Char := "a=ice-ufrag:".toList

def pwdKey : List Char := "a=ice-pwd:".toList

def candidateKey : List Char := "a=candidate:".toList

def endOfCandidates : List Char := "a=end-of-candidates".toList

/-- `[\r\n]`. -/
def isEol (c : Char) : Bool := c = '\r' || c = '\n'

/-- The credentials' regular expressions: `key([^\r\n]+)`. -/
def credentialRegex (key : List Char) : Pattern Char := fun s =>
  let value := (s.drop key.length).takeWhile fun c => !isEol c
  if key.isPrefixOf s ∧ value ≠ [] then some (key.length + value.length) else none

/-- The length of a match of `\r?\n` where a text begins. -/
def eolLength : List Char → Option ℕ
  | '\n' :: _ => some 1
  | '\r' :: '\n' :: _ => some 2
  | _ => none

/-- `a=(candidate:[^\r\n]*|end-of-candidates)\r?\n`. -/
def candidateRegex : Pattern Char := fun s =>
  if candidateKey.isPrefixOf s then
    let body := candidateKey ++ (s.drop candidateKey.length).takeWhile fun c => !isEol c
    (eolLength (s.drop body.length)).map (body.length + ·)
  else if endOfCandidates.isPrefixOf s then
    (eolLength (s.drop endOfCandidates.length)).map (endOfCandidates.length + ·)
  else none

/-- `std::regex_replace` of a credential. -/
def replaceCredential (key value sdp : List Char) : List Char :=
  replaceAll (credentialRegex key)
    (fun m => format (key ++ value) [m.matched, m.matched.drop key.length] m) sdp

/-- `std::regex_replace` of the candidates. -/
def dropCandidates (sdp : List Char) : List Char := replaceAll candidateRegex (fun _ => []) sdp

/-- `RestartIce`: the offer that is applied, if there is a remote description. -/
def restartIce (remoteSdp : Option (List Char)) (iceUfrag icePwd : List Char) :
    Option (List Char) :=
  remoteSdp.map fun sdp =>
    dropCandidates (replaceCredential pwdKey icePwd (replaceCredential ufragKey iceUfrag sdp))

/-! ### What is asked for -/

/-- A text without the end of a line in it. -/
def OneLine (s : List Char) : Prop := ∀ c ∈ s, isEol c = false

instance (s : List Char) : Decidable (OneLine s) := List.decidableBAll _ s

theorem OneLine.append {s t : List Char} (hs : OneLine s) (ht : OneLine t) : OneLine (s ++ t) :=
  fun c hc => (List.mem_append.mp hc).elim (hs c) (ht c)

/-- What the keys of the credentials have in common. -/
structure IsKey (key : List Char) : Prop where
  ne_nil : key ≠ []
  oneLine : OneLine key
  no_dollar : '$' ∉ key

theorem isKey_ufrag : IsKey ufragKey := ⟨by decide, by decide, by decide⟩

theorem isKey_pwd : IsKey pwdKey := ⟨by decide, by decide, by decide⟩

/-- A line of a description. -/
structure IsLine (l : Line Char) : Prop where
  text_ok : OneLine l.text
  eol_eq : l.eol = ['\n'] ∨ l.eol = ['\r', '\n']

instance (l : Line Char) : Decidable (IsLine l) :=
  decidable_of_iff (OneLine l.text ∧ (l.eol = ['\n'] ∨ l.eol = ['\r', '\n']))
    ⟨fun h => ⟨h.1, h.2⟩, fun h => ⟨h.1, h.2⟩⟩

/-- A description: lines, each with its end. -/
structure Sdp where
  lines : List (Line Char)
  lines_ok : ∀ l ∈ lines, IsLine l

/-- The text of a description. -/
def Sdp.toText (sdp : Sdp) : List Char := sdp.lines.flatMap Line.all

/-- A candidate, or the end of the candidates. -/
def candidateLine (l : List Char) : Bool := candidateKey.isPrefixOf l || l == endOfCandidates

/-- What should become of a line. -/
def restartedLine (iceUfrag icePwd : List Char) (l : Line Char) : List Char :=
  if ufragKey.isPrefixOf l.text then ufragKey ++ iceUfrag ++ l.eol
  else if pwdKey.isPrefixOf l.text then pwdKey ++ icePwd ++ l.eol
  else if candidateLine l.text then []
  else l.all

/-- **The restart rewrites exactly the credentials.** -/
def Rewrites (sdp : Sdp) (iceUfrag icePwd : List Char) : Prop :=
  restartIce (some sdp.toText) iceUfrag icePwd =
    some (sdp.lines.flatMap (restartedLine iceUfrag icePwd))

/-- The key of a credential with something after it. -/
def credentialStart (key l : List Char) : Bool := key.isPrefixOf l && l != key

/-- The patterns match only where they should: a credential that has a value, a candidate, or
    nothing at all. -/
def CleanLine (l : List Char) : Prop :=
  if ufragKey.isPrefixOf l then l ≠ ufragKey
  else if pwdKey.isPrefixOf l then l ≠ pwdKey
  else candidateLine l ∨
    cut (credentialStart ufragKey) l = none ∧ cut (credentialStart pwdKey) l = none ∧
      cut candidateLine l = none

instance (l : List Char) : Decidable (CleanLine l) :=
  inferInstanceAs (Decidable (if ufragKey.isPrefixOf l then l ≠ ufragKey
    else if pwdKey.isPrefixOf l then l ≠ pwdKey else _ ∨ _))

/-- All lines are clean. -/
def Sdp.Clean (sdp : Sdp) : Prop := ∀ l ∈ sdp.lines, CleanLine l.text

/-- A line is right for what is put in: it is clean, or a credential without a value that is to
    stay empty. -/
def CleanLineFor (iceUfrag icePwd l : List Char) : Prop :=
  CleanLine l ∨ (l = ufragKey ∧ iceUfrag = []) ∨ (l = pwdKey ∧ icePwd = [])

/-- All lines are right for what is put in. -/
def Sdp.CleanFor (iceUfrag icePwd : List Char) (sdp : Sdp) : Prop :=
  ∀ l ∈ sdp.lines, CleanLineFor iceUfrag icePwd l.text

theorem Sdp.Clean.cleanFor {sdp : Sdp} (h : sdp.Clean) (iceUfrag icePwd : List Char) :
    sdp.CleanFor iceUfrag icePwd :=
  fun l hl => .inl (h l hl)

/-- There is a credential of this key in the description, with a value. -/
def Sdp.HasCredential (key : List Char) (sdp : Sdp) : Prop :=
  ∃ l ∈ sdp.lines, cut (credentialStart key) l.text ≠ none

/-- A username fragment that is nothing but text: as a format it stands for itself, and none of
    the patterns that are replaced after it was put in matches in it. -/
structure InertUfrag (iceUfrag : List Char) : Prop where
  plain : Plain iceUfrag
  no_pwd : cut (credentialStart pwdKey) iceUfrag = none
  no_candidate : cut candidateLine iceUfrag = none

/-- A password that is nothing but text. -/
structure InertPwd (icePwd : List Char) : Prop where
  plain : Plain icePwd
  no_candidate : cut candidateLine icePwd = none

/-! ### The patterns, line by line -/

section Patterns

variable {x e rest : List Char}

theorem IsLine.tail {c : Char} {x e : List Char} (h : IsLine ⟨c :: x, e⟩) : IsLine ⟨x, e⟩ :=
  ⟨fun d hd => h.text_ok d (List.mem_cons_of_mem c hd), h.eol_eq⟩

/-- The end of a line begins with one of its two characters. -/
theorem IsLine.eol_head (h : IsLine ⟨x, e⟩) :
    ∃ c e', e = c :: e' ∧ isEol c = true := by
  rcases h.eol_eq with heol | heol
  · exact ⟨'\n', [], heol, rfl⟩
  · exact ⟨'\r', ['\n'], heol, rfl⟩

theorem IsLine.eol_isEol (h : IsLine ⟨x, e⟩) : ∀ c ∈ e, isEol c = true := by
  rcases h.eol_eq with heol | heol
  all_goals
    rw [show e = _ from heol]
    exact List.all_eq_true.mp rfl

theorem IsLine.eolLength_eq (h : IsLine ⟨x, e⟩) (rest : List Char) :
    eolLength (e ++ rest) = some e.length := by
  rcases h.eol_eq with heol | heol
  all_goals
    rw [show e = _ from heol]
    rfl

/-- What is read up to the end of a line. -/
theorem takeWhile_line (h : IsLine ⟨x, e⟩) (rest : List Char) :
    (x ++ (e ++ rest)).takeWhile (fun c => !isEol c) = x := by
  obtain ⟨c, e', rfl, hc⟩ := h.eol_head
  rw [List.takeWhile_append_of_pos fun d hd => by rw [h.text_ok d hd]; rfl, List.cons_append,
    List.takeWhile_cons_of_neg (by rw [hc]; decide), List.append_nil]

/-- A key is found where a line goes on with it, and not across its end. -/
theorem prefix_line {key : List Char} (hkey : OneLine key) (h : IsLine ⟨x, e⟩)
    (rest : List Char) : key.isPrefixOf (x ++ (e ++ rest)) = key.isPrefixOf x := by
  rw [Bool.eq_iff_iff, List.isPrefixOf_iff_prefix, List.isPrefixOf_iff_prefix]
  refine ⟨fun hpre => ?_, fun hpre => hpre.trans (List.prefix_append _ _)⟩
  rcases List.prefix_or_prefix_of_prefix hpre (List.prefix_append x (e ++ rest)) with hle | ⟨k, hk⟩
  · exact hle
  · -- what is left of the key would begin with the end of the line
    rw [← hk, List.prefix_append_right_inj] at hpre
    cases k with
    | nil =>
      rw [List.append_nil] at hk
      exact hk ▸ List.prefix_refl x
    | cons d k =>
      obtain ⟨c, e', rfl, hc⟩ := h.eol_head
      obtain rfl : d = c := (List.cons_prefix_cons.mp hpre).1
      have hd := hkey d (hk ▸ List.mem_append_right _ (List.mem_cons_self))
      rw [hd] at hc
      exact absurd hc Bool.false_ne_true

theorem not_isPrefixOf_eol {key : List Char} {d : Char} {s : List Char} (hne : key ≠ [])
    (hkey : OneLine key) (hd : isEol d = true) : key.isPrefixOf (d :: s) = false := by
  obtain ⟨c, key, rfl⟩ := List.exists_cons_of_ne_nil hne
  rw [Bool.eq_false_iff, Ne, List.isPrefixOf_iff_prefix, List.cons_prefix_cons]
  rintro ⟨rfl, -⟩
  rw [hkey c List.mem_cons_self] at hd
  exact absurd hd Bool.false_ne_true

theorem credential_linePattern {key : List Char} (hkey : IsKey key) :
    LinePattern (credentialRegex key) (credentialStart key) false IsLine where
  at_text x e rest _ h := by
    rw [credentialRegex, prefix_line hkey.oneLine h, credentialStart]
    by_cases hpre : key.isPrefixOf x = true
    · obtain ⟨v, rfl⟩ := List.isPrefixOf_iff_prefix.mp hpre
      have hv : IsLine ⟨v, e⟩ := ⟨fun c hc => h.text_ok c (List.mem_append_right _ hc), h.eol_eq⟩
      have hne : (key ++ v ≠ key) ↔ v ≠ [] := by
        rw [Ne, List.append_right_eq_self]
      rw [List.append_assoc, List.drop_left, takeWhile_line hv]
      simp only [hpre, true_and, Bool.true_and, bne_iff_ne, hne, List.length_append,
        Bool.false_eq_true, if_false, Nat.add_zero]
    · simp only [hpre, false_and, Bool.false_and, Bool.false_eq_true, if_false]
  at_eol x e e' rest h hsuf he' := by
    obtain ⟨d, e'', rfl⟩ := List.exists_cons_of_ne_nil he'
    have hd : isEol d = true := h.eol_isEol d (hsuf.subset List.mem_cons_self)
    rw [credentialRegex, List.cons_append, not_isPrefixOf_eol hkey.ne_nil hkey.oneLine hd]
    exact if_neg fun h => absurd h.1 Bool.false_ne_true
  ok_tail _ _ _ h := h.tail

theorem oneLine_candidateKey : OneLine candidateKey := by decide

theorem oneLine_endOfCandidates : OneLine endOfCandidates := by decide

theorem candidate_linePattern : LinePattern candidateRegex candidateLine true IsLine where
  at_text x e rest _ h := by
    rw [candidateRegex, prefix_line oneLine_candidateKey h,
      prefix_line oneLine_endOfCandidates h, candidateLine, if_pos rfl]
    by_cases hpre : candidateKey.isPrefixOf x = true
    · obtain ⟨v, rfl⟩ := List.isPrefixOf_iff_prefix.mp hpre
      have hv : IsLine ⟨v, e⟩ := ⟨fun c hc => h.text_ok c (List.mem_append_right _ hc), h.eol_eq⟩
      rw [if_pos hpre, hpre, Bool.true_or, if_pos rfl]
      dsimp only
      rw [List.append_assoc, List.drop_left, takeWhile_line hv, ← List.append_assoc,
        List.drop_left, h.eolLength_eq, Option.map_some]
    · rw [if_neg hpre, Bool.eq_false_iff.mpr hpre, Bool.false_or]
      by_cases hend : endOfCandidates.isPrefixOf x = true
      · obtain ⟨v, rfl⟩ := List.isPrefixOf_iff_prefix.mp hend
        rw [if_pos hend, List.append_assoc, List.drop_left]
        cases v with
        | nil =>
          rw [List.nil_append, h.eolLength_eq, Option.map_some, List.append_nil, beq_self_eq_true,
            if_pos rfl]
        | cons c v =>
          have hc : isEol c = false :=
            h.text_ok c (List.mem_append_right _ List.mem_cons_self)
          have hnone : eolLength (c :: v ++ (e ++ rest)) = none := by
            rw [List.cons_append, eolLength]
            all_goals
              rintro _ heq
              rw [(List.cons.inj heq).1] at hc
              exact absurd hc (by decide)
          rw [hnone, if_neg, Option.map_none]
          rw [beq_iff_eq, List.append_right_eq_self]
          exact List.cons_ne_nil c v
      · rw [if_neg hend, if_neg]
        rw [beq_iff_eq]
        rintro rfl
        exact hend (List.isPrefixOf_iff_prefix.mpr (List.prefix_refl _))
  at_eol x e e' rest h hsuf he' := by
    obtain ⟨d, e'', rfl⟩ := List.exists_cons_of_ne_nil he'
    have hd : isEol d = true := h.eol_isEol d (hsuf.subset List.mem_cons_self)
    rw [candidateRegex, List.cons_append, not_isPrefixOf_eol (by decide) oneLine_candidateKey hd,
      not_isPrefixOf_eol (by decide) oneLine_endOfCandidates hd]
    rfl
  ok_tail _ _ _ h := h.tail

end Patterns

/-! ### The three replacements -/

section Passes

variable {u p : List Char} {l : Line Char}

/-- The text of a line when a credential in it is replaced. -/
def credentialIn (key value l : List Char) : List Char :=
  match cut (credentialStart key) l with
  | some a => a ++ (key ++ value)
  | none => l

/-- A plain credential is put into each line on its own. -/
theorem replaceCredential_lines {key value : List Char} (hkey : IsKey key)
    (hvalue : Plain value) {ls : List (Line Char)} (hls : ∀ l ∈ ls, IsLine l) :
    replaceCredential key value (ls.flatMap Line.all) =
      (ls.map fun l => (⟨credentialIn key value l.text, l.eol⟩ : Line Char)).flatMap Line.all := by
  have hformat : (fun m : Match Char => format (key ++ value) [m.matched, m.matched.drop key.length]
      m) = fun _ => key ++ value :=
    funext fun m => format_of_plain (hvalue.append hkey.no_dollar) _ m
  rw [replaceCredential, hformat, replaceAll_lines (credential_linePattern hkey) _ hls,
    List.flatMap_map]
  refine List.flatMap_congr fun l _ => ?_
  rw [rewriteLine, credentialIn]
  cases cut (credentialStart key) l.text <;> rfl

/-- Without a match nothing is replaced, whatever the credential is. -/
theorem replaceCredential_copy {key : List Char} (hkey : IsKey key) (value : List Char)
    {ls : List (Line Char)} (hls : ∀ l ∈ ls, IsLine l)
    (hcut : ∀ l ∈ ls, cut (credentialStart key) l.text = none) :
    replaceCredential key value (ls.flatMap Line.all) = ls.flatMap Line.all :=
  replaceAll_copy (credential_linePattern hkey) hls hcut

theorem credentialIn_of_none {key : List Char} (value : List Char) {l : List Char}
    (h : cut (credentialStart key) l = none) : credentialIn key value l = l := by
  rw [credentialIn, h]

/-- The credential has to be plain only where there is one to replace. -/
theorem replaceCredential_eq {key value : List Char} (hkey : IsKey key) {ls : List (Line Char)}
    (hvalue : (∃ l ∈ ls, cut (credentialStart key) l.text ≠ none) → Plain value)
    (hls : ∀ l ∈ ls, IsLine l) :
    replaceCredential key value (ls.flatMap Line.all) =
      (ls.map fun l => (⟨credentialIn key value l.text, l.eol⟩ : Line Char)).flatMap Line.all := by
  by_cases hcred : ∃ l ∈ ls, cut (credentialStart key) l.text ≠ none
  · exact replaceCredential_lines hkey (hvalue hcred) hls
  · have hcut : ∀ l ∈ ls, cut (credentialStart key) l.text = none := fun l hl =>
      not_not.mp fun hne => hcred ⟨l, hl, hne⟩
    rw [replaceCredential_copy hkey value hls hcut, List.flatMap_map]
    refine List.flatMap_congr fun l hl => ?_
    rw [credentialIn_of_none value (hcut l hl)]

theorem credentialIn_oneLine {key value l : List Char} (hkey : IsKey key)
    (hvalue : OneLine value) (hl : OneLine l) : OneLine (credentialIn key value l) := by
  rw [credentialIn]
  split
  next a ha =>
    intro c hc
    rcases List.mem_append.mp hc with hc | hc
    · exact hl c ((prefix_of_cut ha).subset hc)
    · exact (List.mem_append.mp hc).elim (hkey.oneLine c) (hvalue c)
  next => exact hl

/-- The text that is left of a line without the candidates. -/
def droppedLine (l : Line Char) : List Char :=
  match cut candidateLine l.text with
  | some a => a
  | none => l.all

theorem dropCandidates_lines {ls : List (Line Char)} (hls : ∀ l ∈ ls, IsLine l) :
    dropCandidates (ls.flatMap Line.all) = ls.flatMap droppedLine := by
  rw [dropCandidates, replaceAll_lines candidate_linePattern _ hls]
  refine List.flatMap_congr fun l _ => ?_
  rw [rewriteLine, droppedLine]
  cases cut candidateLine l.text with
  | none => rfl
  | some a =>
    show a ++ [] ++ [] = a
    rw [List.append_nil, List.append_nil]

/-- What becomes of a line, all in all. -/
def finalLine (u p : List Char) (l : Line Char) : List Char :=
  droppedLine ⟨credentialIn pwdKey p (credentialIn ufragKey u l.text), l.eol⟩

/-- **`RestartIce` rewrites every line on its own** when each credential that is put in is
    plain. -/
theorem restartIce_lines (sdp : Sdp) (hu : sdp.HasCredential ufragKey → Plain u)
    (hp : (∃ l ∈ sdp.lines, cut (credentialStart pwdKey) (credentialIn ufragKey u l.text) ≠ none) →
      Plain p)
    (hul : OneLine u) (hpl : OneLine p) :
    restartIce (some sdp.toText) u p = some (sdp.lines.flatMap (finalLine u p)) := by
  have hfirst : ∀ l ∈ sdp.lines.map fun l => (⟨credentialIn ufragKey u l.text, l.eol⟩ : Line Char),
      IsLine l := by
    intro l hl
    obtain ⟨l', hl', rfl⟩ := List.mem_map.mp hl
    have h := sdp.lines_ok l' hl'
    exact ⟨credentialIn_oneLine isKey_ufrag hul h.text_ok, h.eol_eq⟩
  have hsecond : ∀ l ∈ (sdp.lines.map fun l =>
      (⟨credentialIn ufragKey u l.text, l.eol⟩ : Line Char)).map fun l =>
        (⟨credentialIn pwdKey p l.text, l.eol⟩ : Line Char), IsLine l := by
    intro l hl
    obtain ⟨l', hl', rfl⟩ := List.mem_map.mp hl
    have h := hfirst l' hl'
    exact ⟨credentialIn_oneLine isKey_pwd hpl h.text_ok, h.eol_eq⟩
  have hplain : (∃ l ∈ sdp.lines.map fun l => (⟨credentialIn ufragKey u l.text, l.eol⟩ : Line Char),
      cut (credentialStart pwdKey) l.text ≠ none) → Plain p := by
    rintro ⟨l, hl, hcut⟩
    obtain ⟨l', hl', rfl⟩ := List.mem_map.mp hl
    exact hp ⟨l', hl', hcut⟩
  rw [restartIce, Option.map_some, Sdp.toText,
    replaceCredential_eq isKey_ufrag hu sdp.lines_ok,
    replaceCredential_eq isKey_pwd hplain hfirst,
    dropCandidates_lines hsecond, List.map_map, List.flatMap_map]
  rfl

end Passes

/-! ### Line by line -/

section FinalLine

variable {u p : List Char} {l : Line Char}

/-- No occurrence of `key` begins inside of `k`, whatever follows. -/
def NoOverlap (k key : List Char) : Prop :=
  ∀ k' ∈ k.tails, k' ≠ [] → ¬ k' <+: key ∧ ¬ key <+: k'

instance (k key : List Char) : Decidable (NoOverlap k key) :=
  inferInstanceAs (Decidable (∀ k' ∈ k.tails, _))

theorem ufrag_pwd : NoOverlap ufragKey pwdKey := by decide

theorem pwd_ufrag : NoOverlap pwdKey ufragKey := by decide

theorem candidate_ufrag : NoOverlap candidateKey ufragKey := by decide

theorem candidate_pwd : NoOverlap candidateKey pwdKey := by decide

theorem ufrag_candidate : NoOverlap ufragKey candidateKey ∧ NoOverlap ufragKey endOfCandidates := by
  decide

theorem pwd_candidate : NoOverlap pwdKey candidateKey ∧ NoOverlap pwdKey endOfCandidates := by
  decide

theorem NoOverlap.not_isPrefixOf {k key k' : List Char} (h : NoOverlap k key) (hsuf : k' <:+ k)
    (hne : k' ≠ []) (s : List Char) : key.isPrefixOf (k' ++ s) = false := by
  obtain ⟨hle, hge⟩ := h k' ((List.mem_tails _ _).mpr hsuf) hne
  rw [Bool.eq_false_iff, Ne, List.isPrefixOf_iff_prefix]
  intro hpre
  exact (List.prefix_or_prefix_of_prefix hpre (List.prefix_append k' s)).elim hge hle

theorem cut_credential_append {k key : List Char} (h : NoOverlap k key) (s : List Char) :
    cut (credentialStart key) (k ++ s) = (cut (credentialStart key) s).map (k ++ ·) := by
  refine cut_append fun k' hsuf hne => ?_
  rw [credentialStart, h.not_isPrefixOf hsuf hne, Bool.false_and]

/-- Putting a credential in makes no other one start where none did. -/
theorem cut_credentialIn {k key value l : List Char} (hkk : NoOverlap key k)
    (hk : NoOverlap k key) (hvalue : cut (credentialStart key) value = none)
    (hl : cut (credentialStart key) l = none) :
    cut (credentialStart key) (credentialIn k value l) = none := by
  rw [credentialIn]
  split
  next a ha =>
    obtain ⟨rest, rfl⟩ := prefix_of_cut ha
    have htail : cut (credentialStart key) (k ++ value) = none := by
      rw [cut_credential_append hk, hvalue, Option.map_none]
    have hrest : rest ≠ [] := by
      rintro rfl
      exact ne_of_cut ha (List.append_nil a).symm
    clear ha
    induction a with
    | nil => exact htail
    | cons c a ih =>
      rw [List.cons_append, cut, ite_eq_iff] at hl
      rcases hl with ⟨-, hl⟩ | ⟨hstarts, hl⟩
      · exact absurd hl (Option.some_ne_none _)
      rw [List.cons_append, cut, if_neg, ih (Option.map_eq_none_iff.mp hl), Option.map_none]
      -- a key that starts in front of the credential is there already, or overlaps its key
      intro hstart
      rw [credentialStart, Bool.and_eq_true, List.isPrefixOf_iff_prefix] at hstart
      have hle : key <+: c :: a := by
        rcases List.prefix_or_prefix_of_prefix hstart.1
          (List.prefix_append (c :: a) (k ++ value)) with hle | ⟨k', rfl⟩
        · exact hle
        · by_cases hnil : k' = []
          · rw [hnil, List.append_nil]
          · have hmem : k' ∈ (c :: a ++ k').tails :=
              (List.mem_tails _ _).mpr (List.suffix_append _ _)
            have hpre : k' <+: k ++ value := (List.prefix_append_right_inj (c :: a)).mp hstart.1
            exact ((List.prefix_or_prefix_of_prefix hpre (List.prefix_append k value)).elim
              (hkk k' hmem hnil).1 (hkk k' hmem hnil).2).elim
      refine hstarts ?_
      rw [credentialStart, Bool.and_eq_true, List.isPrefixOf_iff_prefix, bne_iff_ne]
      refine ⟨hle.trans (List.prefix_append _ rest), fun heq => hrest ?_⟩
      have hlength := hle.length_le
      rw [← heq, ← List.cons_append, List.length_append] at hlength
      exact List.length_eq_zero_iff.mp (by omega)
  next => exact hl

theorem credentialIn_append {k key : List Char} (h : NoOverlap k key) (value s : List Char) :
    credentialIn key value (k ++ s) = k ++ credentialIn key value s := by
  rw [credentialIn, credentialIn, cut_credential_append h]
  cases cut (credentialStart key) s with
  | none => rfl
  | some a => exact List.append_assoc k a _

theorem cut_candidate_append {k : List Char}
    (h : NoOverlap k candidateKey ∧ NoOverlap k endOfCandidates) (s : List Char) :
    cut candidateLine (k ++ s) = (cut candidateLine s).map (k ++ ·) := by
  refine cut_append fun k' hsuf hne => ?_
  rw [candidateLine, h.1.not_isPrefixOf hsuf hne, Bool.false_or, beq_eq_false_iff_ne]
  intro heq
  exact (h.2 k' ((List.mem_tails _ _).mpr hsuf) hne).1 ⟨s, heq⟩

/-- A line that is a credential with a value. -/
theorem credentialIn_key {key : List Char} (hkey : IsKey key) (value : List Char) {v : List Char}
    (hv : v ≠ []) : credentialIn key value (key ++ v) = key ++ value := by
  obtain ⟨c, k, rfl⟩ := List.exists_cons_of_ne_nil hkey.ne_nil
  have hstart : credentialStart (c :: k) (c :: k ++ v) = true := by
    rw [credentialStart, List.isPrefixOf_iff_prefix.mpr (List.prefix_append _ _), Bool.true_and,
      bne_iff_ne, Ne, List.append_right_eq_self]
    exact hv
  rw [credentialIn, List.cons_append, cut, ← List.cons_append, if_pos hstart]
  rfl

theorem credentialIn_ne_nil {key value l : List Char} (hkey : IsKey key) (hl : l ≠ []) :
    credentialIn key value l ≠ [] := by
  rw [credentialIn]
  split
  · exact List.append_ne_nil_of_right_ne_nil _ (List.append_ne_nil_of_left_ne_nil hkey.ne_nil _)
  · exact hl

theorem droppedLine_of_none {l : Line Char} (h : cut candidateLine l.text = none) :
    droppedLine l = l.all := by
  rw [droppedLine, h]

/-- A candidate is dropped whole. -/
theorem droppedLine_of_candidate {l : Line Char} (h : candidateLine l.text = true) :
    droppedLine l = [] := by
  rw [droppedLine]
  cases htext : l.text with
  | nil => exact absurd (htext ▸ h) (by decide)
  | cons c s => rw [cut, ← htext, if_pos h]

/-- A candidate is dropped, whatever the credentials put into it. -/
theorem finalLine_of_candidate (h : candidateLine l.text = true) : finalLine u p l = [] := by
  refine droppedLine_of_candidate ?_
  show candidateLine (credentialIn pwdKey p (credentialIn ufragKey u l.text)) = true
  rw [candidateLine, Bool.or_eq_true, beq_iff_eq] at h ⊢
  rcases h with hkey | hend
  · obtain ⟨v, hv⟩ := List.isPrefixOf_iff_prefix.mp hkey
    rw [← hv, credentialIn_append candidate_ufrag, credentialIn_append candidate_pwd]
    exact .inl (List.isPrefixOf_iff_prefix.mpr (List.prefix_append _ _))
  · rw [hend, credentialIn_of_none u (by decide),
      credentialIn_of_none p (by decide)]
    exact .inr rfl

/-- **A clean line becomes what it should** if the credential that is put in is inert. -/
theorem finalLine_of_clean (hclean : CleanLine l.text)
    (hu : ufragKey.isPrefixOf l.text = true → InertUfrag u)
    (hp : pwdKey.isPrefixOf l.text = true → InertPwd p) :
    finalLine u p l = restartedLine u p l := by
  obtain ⟨text, eol⟩ := l
  rw [CleanLine] at hclean
  rw [finalLine, restartedLine]
  dsimp only at hclean hu hp ⊢
  by_cases hufrag : ufragKey.isPrefixOf text = true
  · -- an `a=ice-ufrag:` line: nothing else is found in the new one
    rw [if_pos hufrag] at hclean ⊢
    obtain ⟨v, rfl⟩ := List.isPrefixOf_iff_prefix.mp hufrag
    rw [credentialIn_key isKey_ufrag u fun hv => hclean (by rw [hv, List.append_nil]),
      credentialIn_append ufrag_pwd, credentialIn_of_none p (hu hufrag).no_pwd, droppedLine_of_none]
    · rfl
    · show cut candidateLine (ufragKey ++ u) = none
      rw [cut_candidate_append ufrag_candidate, (hu hufrag).no_candidate, Option.map_none]
  rw [if_neg hufrag] at hclean ⊢
  by_cases hpwd : pwdKey.isPrefixOf text = true
  · rw [if_pos hpwd] at hclean ⊢
    obtain ⟨v, rfl⟩ := List.isPrefixOf_iff_prefix.mp hpwd
    have hv : v ≠ [] := fun hv => hclean (by rw [hv, List.append_nil])
    rw [credentialIn_append pwd_ufrag, credentialIn_key isKey_pwd p
      (credentialIn_ne_nil isKey_ufrag hv), droppedLine_of_none]
    · rfl
    · show cut candidateLine (pwdKey ++ p) = none
      rw [cut_candidate_append pwd_candidate, (hp hpwd).no_candidate, Option.map_none]
  rw [if_neg hpwd] at hclean ⊢
  rcases hclean with hcand | ⟨hnoufrag, hnopwd, hnocand⟩
  · rw [if_pos hcand]
    exact finalLine_of_candidate (l := ⟨text, eol⟩) hcand
  · have hnot : ¬ candidateLine text = true := by
      intro hcand
      have hne : text ≠ [] := by
        rintro rfl
        exact absurd hcand (by decide)
      rw [not_starts_of_cut hnocand hne] at hcand
      exact Bool.false_ne_true hcand
    rw [if_neg hnot, credentialIn_of_none u hnoufrag, credentialIn_of_none p hnopwd,
      droppedLine_of_none hnocand]

/-- A credential without a value stays as it is. -/
theorem finalLine_of_no_value {key eol : List Char}
    (hufrag : cut (credentialStart ufragKey) key = none)
    (hpwd : cut (credentialStart pwdKey) key = none) (hcand : cut candidateLine key = none) :
    finalLine u p ⟨key, eol⟩ = key ++ eol := by
  rw [finalLine]
  dsimp only
  rw [credentialIn_of_none u hufrag, credentialIn_of_none p hpwd, droppedLine_of_none hcand]
  rfl

/-- **A line becomes what it should** if it is right for what is put in. -/
theorem finalLine_of_cleanFor (hclean : CleanLineFor u p l.text)
    (hu : ufragKey.isPrefixOf l.text = true → l.text ≠ ufragKey → InertUfrag u)
    (hp : pwdKey.isPrefixOf l.text = true → l.text ≠ pwdKey → InertPwd p) :
    finalLine u p l = restartedLine u p l := by
  obtain ⟨text, eol⟩ := l
  -- a credential without a value has no match, and is right if nothing is to be put in
  rcases hclean with hline | ⟨htext, rfl⟩ | ⟨htext, rfl⟩
  · refine finalLine_of_clean hline (fun hpre => hu hpre ?_) fun hpre => hp hpre ?_
    · rw [CleanLine, if_pos hpre] at hline
      exact hline
    · rintro rfl
      exact hline rfl
  · obtain rfl : text = ufragKey := htext
    exact finalLine_of_no_value (by decide) (by decide) (by decide)
  · obtain rfl : text = pwdKey := htext
    exact finalLine_of_no_value (by decide) (by decide) (by decide)

end FinalLine

/-! ### Clean descriptions and inert credentials -/

section Main

variable {u p : List Char} {sdp : Sdp}

/-- A line that begins with a key and goes on is a credential. -/
theorem hasCredential_of_isPrefixOf {key : List Char} {l : Line Char} (hl : l ∈ sdp.lines)
    (hkey : IsKey key) (hpre : key.isPrefixOf l.text = true) (hne : l.text ≠ key) :
    sdp.HasCredential key := by
  refine ⟨l, hl, fun hcut => ?_⟩
  have hnil : l.text ≠ [] := by
    intro hnil
    rw [hnil, List.isPrefixOf_iff_prefix, List.prefix_nil] at hpre
    exact hkey.ne_nil hpre
  have hstart := not_starts_of_cut hcut hnil
  rw [credentialStart, hpre, Bool.true_and, bne_eq_false_iff_eq] at hstart
  exact hne hstart

/-- **The offer is as it should be** for a clean description, if each credential that is put in
    is inert. -/
theorem restartIce_of_clean (hul : OneLine u) (hpl : OneLine p) (hclean : sdp.CleanFor u p)
    (hu : sdp.HasCredential ufragKey → InertUfrag u) (hp : sdp.HasCredential pwdKey → InertPwd p) :
    Rewrites sdp u p := by
  have hplain : (∃ l ∈ sdp.lines,
      cut (credentialStart pwdKey) (credentialIn ufragKey u l.text) ≠ none) → Plain p := by
    rintro ⟨l, hl, hcut⟩
    by_cases hufrag : cut (credentialStart ufragKey) l.text = none
    · rw [credentialIn_of_none u hufrag] at hcut
      exact (hp ⟨l, hl, hcut⟩).plain
    · -- the username fragment that was put in has no password in it
      have hno := (hu ⟨l, hl, hufrag⟩).no_pwd
      exact (hp ⟨l, hl, fun hnone => hcut (cut_credentialIn pwd_ufrag ufrag_pwd hno hnone)⟩).plain
  rw [Rewrites, restartIce_lines sdp (fun h => (hu h).plain) hplain hul hpl]
  refine congrArg some (List.flatMap_congr fun l hl => ?_)
  refine finalLine_of_cleanFor (hclean l hl) (fun hpre hne => hu ?_) fun hpre hne => hp ?_
  · exact hasCredential_of_isPrefixOf hl isKey_ufrag hpre hne
  · exact hasCredential_of_isPrefixOf hl isKey_pwd hpre hne

/-- What was left of a line and what should be left of it have the same shape. -/
theorem sameShape {l : Line Char} (hl : IsLine l) (hul : OneLine u) (hpl : OneLine p) :
    SameShape isEol (finalLine u p) (restartedLine u p) l := by
  have hnone : ∀ {x : List Char}, OneLine x → x.countP isEol = 0 := fun h =>
    List.countP_eq_zero.mpr fun c hc => Bool.eq_false_iff.mp (h c hc)
  by_cases hkept : ∃ y, OneLine y ∧ restartedLine u p l = y ++ l.eol
  · obtain ⟨y, hy, heq⟩ := hkept
    have hx := credentialIn_oneLine isKey_pwd hpl (credentialIn_oneLine isKey_ufrag hul hl.text_ok)
    rw [SameShape, finalLine, droppedLine]
    right
    split
    next a ha => exact ⟨a, y, hnone fun c hc => hx c ((prefix_of_cut ha).subset hc), hnone hy, heq,
        .inr rfl⟩
    next => exact ⟨_, y, hnone hx, hnone hy, heq, .inl rfl⟩
  · left
    have hcand : restartedLine u p l = [] ∧ candidateLine l.text = true := by
      rw [restartedLine] at hkept ⊢
      split_ifs at hkept ⊢ with h1 h2 h3
      · exact absurd ⟨_, isKey_ufrag.oneLine.append hul, rfl⟩ hkept
      · exact absurd ⟨_, isKey_pwd.oneLine.append hpl, rfl⟩ hkept
      · exact ⟨rfl, h3⟩
      · exact absurd ⟨_, hl.text_ok, rfl⟩ hkept
    exact ⟨finalLine_of_candidate hcand.2, hcand.1⟩

/-- If the offer is as it should be, every line is. -/
theorem finalLine_eq (hul : OneLine u) (hpl : OneLine p) (hu : Plain u) (hp : Plain p)
    (h : Rewrites sdp u p) : ∀ l ∈ sdp.lines, finalLine u p l = restartedLine u p l := by
  rw [Rewrites, restartIce_lines sdp (fun _ => hu) (fun _ => hp) hul hpl] at h
  exact eq_of_flatMap_eq (fun l hl => sameShape (sdp.lines_ok l hl) hul hpl)
    (fun l hl => (sdp.lines_ok l hl).eol_head) (Option.some.inj h)

/-- A credential of one character that was put in is the last one in its line. -/
theorem getLast?_credentialIn {key l : List Char} (c : Char)
    (h : cut (credentialStart key) l ≠ none ∨ l.getLast? = some c) :
    (credentialIn key [c] l).getLast? = some c := by
  rw [credentialIn]
  split
  next a ha => rw [← List.append_assoc, List.getLast?_append_of_ne_nil _ (List.cons_ne_nil c []),
    List.getLast?_singleton]
  next hnone => exact h.resolve_left (not_not.mpr hnone)

/-- A line that keeps its end was not cut. -/
theorem droppedLine_eq {x y e : List Char} (hx : IsLine ⟨x, e⟩) (h : droppedLine ⟨x, e⟩ = y ++ e) :
    cut candidateLine x = none ∧ x = y := by
  obtain ⟨c, e', he, hc⟩ := hx.eol_head
  rw [droppedLine] at h
  split at h
  next a ha =>
    have hin : c ∈ x :=
      (prefix_of_cut ha).subset (h ▸ List.mem_append_right y (he ▸ List.mem_cons_self))
    rw [hx.text_ok c hin] at hc
    exact absurd hc Bool.false_ne_true
  next hnone => exact ⟨hnone, List.append_cancel_right h⟩

theorem ne_of_getLast? {l : List Char} (hx : l.getLast? = some 'x') (hy : l.getLast? = some 'y') :
    False :=
  absurd (Option.some.inj (hx.symm.trans hy)) (by decide)

/-- A line that comes out right with two different credentials is clean. -/
theorem cleanLine_of_final {l : Line Char} (hl : IsLine l)
    (h : ∀ c ∈ ['x', 'y'], finalLine [c] [c] l = restartedLine [c] [c] l) : CleanLine l.text := by
  obtain ⟨text, eol⟩ := l
  have hx := h 'x' (by decide)
  have hy := h 'y' (by decide)
  rw [CleanLine]
  rw [finalLine, restartedLine] at hx hy
  dsimp only at hx hy ⊢
  -- what the line is after the credentials are put in
  have hline : ∀ c ∈ ['x', 'y'],
      IsLine ⟨credentialIn pwdKey [c] (credentialIn ufragKey [c] text), eol⟩ := by
    intro c hc
    have hone : OneLine [c] := by
      rcases List.mem_pair.mp hc with rfl | rfl <;> decide
    exact ⟨credentialIn_oneLine isKey_pwd hone (credentialIn_oneLine isKey_ufrag hone hl.text_ok),
      hl.eol_eq⟩
  split_ifs at hx hy ⊢ with h1 h2 h3
  · rintro rfl
    obtain ⟨-, heq⟩ := droppedLine_eq (hline 'x' (by decide)) hx
    exact absurd heq (by decide)
  · rintro rfl
    obtain ⟨-, heq⟩ := droppedLine_eq (hline 'x' (by decide)) hx
    exact absurd heq (by decide)
  · exact .inl h3
  · right
    obtain ⟨hnocand, hx⟩ := droppedLine_eq (y := text) (hline 'x' (by decide)) hx
    obtain ⟨-, hy⟩ := droppedLine_eq (y := text) (hline 'y' (by decide)) hy
    have hufrag : cut (credentialStart ufragKey) text = none := by
      by_contra hcut
      refine ne_of_getLast? (l := text) ?_ ?_
      · rw [← hx]
        exact getLast?_credentialIn 'x' (.inr (getLast?_credentialIn 'x' (.inl hcut)))
      · rw [← hy]
        exact getLast?_credentialIn 'y' (.inr (getLast?_credentialIn 'y' (.inl hcut)))
    rw [credentialIn_of_none _ hufrag] at hx hy hnocand
    have hpwd : cut (credentialStart pwdKey) text = none := by
      by_contra hcut
      refine ne_of_getLast? (l := text) ?_ ?_
      · rw [← hx]
        exact getLast?_credentialIn 'x' (.inl hcut)
      · rw [← hy]
        exact getLast?_credentialIn 'y' (.inl hcut)
    rw [credentialIn_of_none _ hpwd] at hnocand
    exact ⟨hufrag, hpwd, hnocand⟩

/-- A description of one credential with a short value. -/
def credentialSdp (key : List Char) (hkey : IsKey key) : Sdp where
  lines := [⟨key ++ ['z'], ['\r', '\n']⟩]
  lines_ok := by
    intro l hl
    rw [List.mem_singleton.mp hl]
    exact ⟨hkey.oneLine.append (by decide), .inr rfl⟩

theorem credentialSdp_clean {key : List Char} (hkey : IsKey key)
    (hclean : CleanLine (key ++ ['z'])) : (credentialSdp key hkey).Clean := by
  intro l hl
  rw [List.mem_singleton.mp hl]
  exact hclean

/-- What the replacement makes of it, also of one that is not plain. -/
theorem replaceCredential_credentialSdp {key : List Char} (hkey : IsKey key)
    (value : List Char) :
    replaceCredential key value (credentialSdp key hkey).toText =
      format (key ++ value) [key ++ ['z'], (key ++ ['z']).drop key.length]
        ⟨[], key ++ ['z'], ['\r', '\n']⟩ ++ ['\r', '\n'] := by
  have hline : IsLine ⟨key ++ ['z'], ['\r', '\n']⟩ :=
    (credentialSdp key hkey).lines_ok _ List.mem_cons_self
  have hne : key ++ ['z'] ≠ [] := List.append_ne_nil_of_left_ne_nil hkey.ne_nil _
  have hpattern := credential_linePattern hkey
  have hat := hpattern.at_text _ _ [] hne hline
  have hstart : credentialStart key (key ++ ['z']) = true := by
    rw [credentialStart, List.isPrefixOf_iff_prefix.mpr (List.prefix_append _ _), Bool.true_and,
      bne_iff_ne, Ne, List.append_right_eq_self]
    exact List.cons_ne_nil _ _
  rw [if_pos hstart, if_neg Bool.false_ne_true, Nat.add_zero, List.append_nil] at hat
  show replaceFrom _ _ [] 0 (key ++ ['z'] ++ ['\r', '\n'] ++ []) = _
  rw [List.append_nil, replaceFrom_of_some hne hat]
  exact congrArg _ (replaceFrom_eol hpattern hline [] [] (List.suffix_refl _))

/-- A credential that was put in, and of which no `$` was lost, is plain. -/
theorem plain_of_count {key : List Char} (hkey : IsKey key) {value : List Char}
    (h : (key ++ value ++ ['\r', '\n']).count '$' ≤
      (replaceCredential key value (credentialSdp key hkey).toText).count '$') : Plain value := by
  have hz : '$' ∉ key ++ ['z'] := fun hin =>
    (List.mem_append.mp hin).elim hkey.no_dollar (by decide)
  have heol : '$' ∉ ['\r', '\n'] := by decide
  have hgroups : ∀ n, '$' ∉ [key ++ ['z'], (key ++ ['z']).drop key.length].getD n [] := by
    intro n
    rcases n with _ | _ | n
    · exact hz
    · exact fun hin => hz (List.mem_of_mem_drop hin)
    · exact List.not_mem_nil
  have hcount : (replaceCredential key value (credentialSdp key hkey).toText).count '$' =
      dollars (formatItems .text (key ++ value)) := by
    rw [replaceCredential_credentialSdp hkey, List.count_append,
      count_format _ hgroups List.not_mem_nil heol]
    rfl
  have hle : (key ++ value).count '$' ≤ (key ++ value ++ ['\r', '\n']).count '$' :=
    (List.sublist_append_left _ _).count_le '$'
  exact ((plain_of_dollars _).1 ((hle.trans h).trans_eq hcount)).of_append

/-- Dropping the candidates brings no `$` into the text. -/
theorem count_dropCandidates_le (sdp : List Char) :
    (dropCandidates sdp).count '$' ≤ sdp.count '$' :=
  countP_replaceFrom_le (fun _ => rfl) [] 0 sdp

theorem count_replaceCredential_le {key value : List Char} (hkey : IsKey key)
    (hvalue : '$' ∉ value) (sdp : List Char) :
    (replaceCredential key value sdp).count '$' ≤ sdp.count '$' := by
  refine countP_replaceFrom_le (fun m => ?_) [] 0 sdp
  rw [format_of_plain ((plain_of_not_mem hvalue).append hkey.no_dollar)]
  exact List.count_eq_zero_of_not_mem fun hin => (List.mem_append.mp hin).elim hkey.no_dollar hvalue

/-- What should become of a description of one credential. -/
theorem rewrites_ufrag (h : Rewrites (credentialSdp ufragKey isKey_ufrag) u p) :
    dropCandidates (replaceCredential pwdKey p (replaceCredential ufragKey u
      (credentialSdp ufragKey isKey_ufrag).toText)) = ufragKey ++ u ++ ['\r', '\n'] :=
  (Option.some.inj h).trans (List.append_nil _)

theorem rewrites_pwd (h : Rewrites (credentialSdp pwdKey isKey_pwd) u p) :
    dropCandidates (replaceCredential pwdKey p (replaceCredential ufragKey u
      (credentialSdp pwdKey isKey_pwd).toText)) = pwdKey ++ p ++ ['\r', '\n'] :=
  (Option.some.inj h).trans (List.append_nil _)

theorem inertPwd_char {c : Char} (hc : c ∈ ['x', 'y']) : OneLine [c] ∧ InertPwd [c] := by
  rcases List.mem_pair.mp hc with rfl | rfl
  all_goals exact ⟨by decide, plain_of_not_mem (by decide), by decide⟩

theorem inertUfrag_char {c : Char} (hc : c ∈ ['x', 'y']) : InertUfrag [c] := by
  rcases List.mem_pair.mp hc with rfl | rfl
  all_goals exact ⟨plain_of_not_mem (by decide), by decide, by decide⟩

/-- A username fragment that always comes out right is inert. -/
theorem inertUfrag_of_rewrites (hul : OneLine u)
    (h : ∀ sdp p, Sdp.Clean sdp → OneLine p → InertPwd p → Rewrites sdp u p) : InertUfrag u := by
  have hclean : (credentialSdp ufragKey isKey_ufrag).Clean :=
    credentialSdp_clean isKey_ufrag (by decide)
  have hrewrites : ∀ c ∈ ['x', 'y'], Rewrites (credentialSdp ufragKey isKey_ufrag) u [c] :=
    fun c hc => h _ [c] hclean (inertPwd_char hc).1 (inertPwd_char hc).2
  have hplain : Plain u := by
    refine plain_of_count isKey_ufrag ?_
    rw [← rewrites_ufrag (hrewrites 'x' (by decide))]
    exact (count_dropCandidates_le _).trans (count_replaceCredential_le isKey_pwd (by decide) _)
  -- what is left of the only line
  have hline : ∀ c ∈ ['x', 'y'], cut candidateLine (ufragKey ++ credentialIn pwdKey [c] u) = none ∧
      credentialIn pwdKey [c] u = u := by
    intro c hc
    have hfinal := finalLine_eq hul (inertPwd_char hc).1 hplain (inertPwd_char hc).2.plain
      (hrewrites c hc) _ List.mem_cons_self
    rw [finalLine, credentialIn_key isKey_ufrag u (List.cons_ne_nil _ _),
      credentialIn_append ufrag_pwd] at hfinal
    have hl : IsLine ⟨ufragKey ++ credentialIn pwdKey [c] u, ['\r', '\n']⟩ :=
      ⟨isKey_ufrag.oneLine.append (credentialIn_oneLine isKey_pwd (inertPwd_char hc).1 hul),
        .inr rfl⟩
    obtain ⟨hcut, heq⟩ := droppedLine_eq (y := ufragKey ++ u) hl hfinal
    exact ⟨hcut, List.append_cancel_left heq⟩
  have hpwd : cut (credentialStart pwdKey) u = none := by
    by_contra hcut
    refine ne_of_getLast? (l := u) ?_ ?_
    · rw [← (hline 'x' (by decide)).2]
      exact getLast?_credentialIn 'x' (.inl hcut)
    · rw [← (hline 'y' (by decide)).2]
      exact getLast?_credentialIn 'y' (.inl hcut)
  have hcand := (hline 'x' (by decide)).1
  rw [credentialIn_of_none _ hpwd, cut_candidate_append ufrag_candidate,
    Option.map_eq_none_iff] at hcand
  exact ⟨hplain, hpwd, hcand⟩

/-- A password that always comes out right is inert. -/
theorem inertPwd_of_rewrites (hpl : OneLine p)
    (h : ∀ sdp u, Sdp.Clean sdp → OneLine u → InertUfrag u → Rewrites sdp u p) : InertPwd p := by
  have hclean : (credentialSdp pwdKey isKey_pwd).Clean :=
    credentialSdp_clean isKey_pwd (by decide)
  have hrewrites : Rewrites (credentialSdp pwdKey isKey_pwd) ['x'] p :=
    h _ ['x'] hclean (by decide) (inertUfrag_char (by decide))
  have hcopy : replaceCredential ufragKey ['x'] (credentialSdp pwdKey isKey_pwd).toText =
      (credentialSdp pwdKey isKey_pwd).toText := by
    refine replaceCredential_copy isKey_ufrag _ (credentialSdp pwdKey isKey_pwd).lines_ok ?_
    intro l hl
    rw [List.mem_singleton.mp hl]
    decide
  have hplain : Plain p := by
    refine plain_of_count isKey_pwd ?_
    have hfinal := rewrites_pwd hrewrites
    rw [hcopy] at hfinal
    rw [← hfinal]
    exact count_dropCandidates_le _
  have hfinal := finalLine_eq (by decide) hpl (inertUfrag_char (by decide)).plain hplain hrewrites
    _ List.mem_cons_self
  rw [finalLine, credentialIn_of_none ['x'] (by decide),
    credentialIn_key isKey_pwd p (List.cons_ne_nil _ _)] at hfinal
  have hl : IsLine ⟨pwdKey ++ p, ['\r', '\n']⟩ :=
    ⟨isKey_pwd.oneLine.append hpl, .inr rfl⟩
  obtain ⟨hcand, -⟩ := droppedLine_eq (y := pwdKey ++ p) hl hfinal
  rw [cut_candidate_append pwd_candidate, Option.map_eq_none_iff] at hcand
  exact ⟨hplain, hcand⟩

/-- **The restart rewrites exactly the credentials** of a clean description when those that are
    put in are inert; a credential without a value is clean too where none is put in.  No one of the
    three conditions can be weaker: a description that comes out right with all inert credentials
    is clean, and a username fragment or a password that comes out right in all clean descriptions
    is inert. -/
theorem restartIce_rewrites_iff (sdp : Sdp) (u p : List Char) (hul : OneLine u)
    (hpl : OneLine p) :
    (sdp.CleanFor u p → (sdp.HasCredential ufragKey → InertUfrag u) →
      (sdp.HasCredential pwdKey → InertPwd p) → Rewrites sdp u p) ∧
    ((∀ u' p', OneLine u' → OneLine p' → InertUfrag u' → InertPwd p' → Rewrites sdp u' p') →
      sdp.Clean) ∧
    ((∀ sdp' p', Sdp.Clean sdp' → OneLine p' → InertPwd p' → Rewrites sdp' u p') →
      InertUfrag u) ∧
    ((∀ sdp' u', Sdp.Clean sdp' → OneLine u' → InertUfrag u' → Rewrites sdp' u' p) →
      InertPwd p) := by
  refine ⟨restartIce_of_clean hul hpl, fun h l hl => ?_, inertUfrag_of_rewrites hul,
    inertPwd_of_rewrites hpl⟩
  refine cleanLine_of_final (sdp.lines_ok l hl) fun c hc => ?_
  obtain ⟨hone, hinert⟩ := inertPwd_char hc
  exact finalLine_eq hone hone (inertUfrag_char hc).plain hinert.plain
    (h [c] [c] hone hone (inertUfrag_char hc) hinert) l hl

/-- A short description. -/
def shortSdp : Sdp where
  lines := ["v=0", "a=ice-ufrag:old", "a=ice-pwd:secret", "a=candidate:1", "a=mid:0"].map
    fun text => ⟨text.toList, ['\r', '\n']⟩
  lines_ok := by decide

theorem shortSdp_clean : shortSdp.Clean := by
  intro l hl
  revert l
  decide

/-- A `$$` in the username fragment becomes one `$` in the offer. -/
theorem not_rewrites_dollars : ¬ Rewrites shortSdp "u$$r".toList "pwd".toList := by
  rw [Rewrites]
  decide

theorem restartIce_rewrites_iff_short : Rewrites shortSdp "u$r".toList "pwd".toList :=
  (restartIce_rewrites_iff shortSdp _ _ (by decide) (by decide)).1 (shortSdp_clean.cleanFor _ _)
    (fun _ => ⟨(plain_of_dollars _).1 (by decide), by decide, by decide⟩)
    fun _ => ⟨plain_of_not_mem (by decide), by decide⟩

end Main

end PiWebrtc.Rtc
