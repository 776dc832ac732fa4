import PiWebrtc.Lib.FileTree
import Mathlib.Data.Prod.Lex
import Mathlib.Data.String.Basic

namespace PiWebrtc.Recorder

open FileTree

/-!
# Rotation of the recordings

`RotateFiles` frees disk space by one recording.  It takes the least-named folder under
the record path for the oldest date and the least-named folder in there for the oldest
hour, and deletes the least-named `.mp4` or `.jpg` file of that hour with its counterpart.
A date without an hour folder and an hour without such a file count as empty and go with
`remove_all`, whatever else they hold.

* `rotateFiles` — the routine on a directory tree rooted at the record path, with a log of
  what it removes and of the tree each removal meets.
* `rotateFiles_deletesOnlyOldest_iff` — the call deletes no recording but the oldest
  exactly when the two folders it may take for empty hold no recording at any depth.
-/

/-- The tree under the record path.  Names are compared as the bytes of their UTF-8
    encoding, which is the order of their code points. -/
abbrev Dir := FileTree.Tree String

/-! ### File names -/

/-- Split a file name before its last dot; a leading dot does not start an extension. -/
def splitExtension (cs : List Char) : List Char × List Char :=
  match cs.reverse.dropWhile (· ≠ '.') with
  | _ :: c :: stem => ((c :: stem).reverse, '.' :: (cs.reverse.takeWhile (· ≠ '.')).reverse)
  | _ => (cs, [])

/-- `path::stem` of a file name. -/
def stem (name : String) : String := .ofList (splitExtension name.toList).1

/-- `path::extension` of a file name. -/
def extension (name : String) : String := .ofList (splitExtension name.toList).2

/-- `path::replace_extension` of a file name. -/
def replaceExtension (name ext : String) : String := stem name ++ ext

/-- The files that `RotateFiles` takes for recordings. -/
def isRecordingName (name : String) : Bool :=
  extension name = ".mp4" ∨ extension name = ".jpg"

/-- The other file of a recording. -/
def counterpart (name : String) : String :=
  replaceExtension name (if extension name = ".mp4" then ".jpg" else ".mp4")

/-- A nonempty name followed by a dotted suffix splits there. -/
theorem splitExtension_append {s e : List Char} (hs : s ≠ []) (he : '.' ∉ e) :
    splitExtension (s ++ '.' :: e) = (s, '.' :: e) := by
  have hrev : (s ++ '.' :: e).reverse = e.reverse ++ '.' :: s.reverse := by simp
  have hall : ∀ c ∈ e.reverse, decide (c ≠ '.') = true := by
    intro c hc
    rw [decide_eq_true_eq]
    rintro rfl
    exact he (List.mem_reverse.mp hc)
  obtain ⟨c, r, hcr⟩ := List.exists_cons_of_ne_nil (l := s.reverse) (by simpa using hs)
  have hscr : s = (c :: r).reverse := by rw [← hcr, List.reverse_reverse]
  unfold splitExtension
  rw [hrev, List.dropWhile_append_of_pos hall, List.takeWhile_append_of_pos hall, hcr]
  simp [hscr]

/-- A recording name is its stem and its extension, and the stem is not empty. -/
theorem splitExtension_of_ne_nil {cs : List Char} (h : (splitExtension cs).2 ≠ []) :
    (splitExtension cs).1 ≠ [] := by
  unfold splitExtension at h ⊢
  split
  case h_1 => simp
  case h_2 hno =>
    split at h
    case h_1 heq => exact absurd heq (hno _ _ _)
    case h_2 => exact absurd rfl h

/-- **A recording and its counterpart have one stem.** -/
theorem stem_counterpart {name : String} (h : isRecordingName name = true) :
    stem (counterpart name) = stem name := by
  have hne : (splitExtension name.toList).2 ≠ [] := by
    intro hnil
    have hext : extension name = "" := by rw [extension, hnil]
    rw [isRecordingName, hext] at h
    exact absurd h (by decide)
  have hstem := splitExtension_of_ne_nil hne
  have key : ∀ ext : String, ∀ e, ext.toList = '.' :: e → '.' ∉ e →
      stem (replaceExtension name ext) = stem name := by
    intro ext e hext he
    unfold stem replaceExtension
    rw [String.toList_append, stem, String.toList_ofList, hext, splitExtension_append hstem he]
  unfold counterpart
  split
  · exact key ".jpg" ['j', 'p', 'g'] (by decide) (by decide)
  · exact key ".mp4" ['m', 'p', '4'] (by decide) (by decide)

/-! ### The routine -/

/-- One removal: what was removed and the tree it was removed from. -/
structure Removal where
  before : Dir
  target : List String

/-- The tree and the removals so far. -/
structure Rotation where
  tree : Dir
  removals : List Removal

namespace Rotation

/-- `fs::remove_all`. -/
def removeAll (r : Rotation) (p : List String) : Rotation where
  tree := r.tree.removeAll p
  removals := r.removals ++ [⟨r.tree, p⟩]

/-- `fs::remove`; the error of a throwing call carries what was done before it. -/
def remove (r : Rotation) (p : List String) : Except Rotation Rotation :=
  match r.tree.remove p with
  | none => .error r
  | some (false, _) => .ok r
  | some (true, t) => .ok ⟨t, r.removals ++ [⟨r.tree, p⟩]⟩

/-- The `catch` at the end of `RotateFiles` keeps what was done before the exception. -/
def caught : Except Rotation Rotation → Rotation
  | .ok r => r
  | .error r => r

end Rotation

/-- The folder that a scan of `folder` for its least directory ends with. -/
def oldestFolder (t : Dir) (folder : List String) : Option String :=
  (least Prod.fst (fun e => e.2 = .directory) (t.list folder)).map Prod.fst

/-- The file that a scan of an hour folder for its least recording ends with. -/
def oldestFile (t : Dir) (folder : List String) : Option String :=
  (least Prod.fst (fun e => e.2 = .regular ∧ isRecordingName e.1) (t.list folder)).map Prod.fst

/-- Delete a file and its counterpart, then the folders this leaves empty. -/
def deleteRecording (r : Rotation) (date hour file : String) : Except Rotation Rotation :=
  (r.remove [date, hour, file]).bind fun r =>
  (r.remove [date, hour, counterpart file]).bind fun r =>
  if r.tree.isEmpty [date, hour] then
    (r.remove [date, hour]).bind fun r =>
    if r.tree.isEmpty [date] then r.remove [date] else .ok r
  else .ok r

/-- `RotateFiles`. -/
def rotateFiles (t : Dir) : Rotation :=
  match oldestFolder t [] with
  | none => ⟨t, []⟩
  | some date =>
    match oldestFolder t [date] with
    -- "empty date folder": whatever stands in it goes, too
    | none => Rotation.removeAll ⟨t, []⟩ [date]
    | some hour =>
      match oldestFile t [date, hour] with
      -- "empty hour folder"
      | none => Rotation.removeAll ⟨t, []⟩ [date, hour]
      | some file => Rotation.caught (deleteRecording ⟨t, []⟩ date hour file)

/-! ### What the scans find -/

/-- A recording: a regular file with one of the two extensions, wherever it stands. -/
def IsRecording (t : Dir) (p : List String) : Prop :=
  (p, Kind.regular) ∈ t.entries ∧ p.getLast?.any isRecordingName = true

/-- `x` is the least-named folder in `folder`. -/
def IsOldestFolder (t : Dir) (folder : List String) (x : String) : Prop :=
  (folder ++ [x], Kind.directory) ∈ t.entries ∧
    ∀ y, (folder ++ [y], Kind.directory) ∈ t.entries → x ≤ y

theorem oldestFolder_eq_some {t : Dir} {folder : List String} {x : String}
    (h : oldestFolder t folder = some x) : IsOldestFolder t folder x := by
  obtain ⟨⟨y, k⟩, hl, rfl⟩ := Option.map_eq_some_iff.mp h
  obtain ⟨hmem, hk, hmin⟩ := least_eq_some _ _ hl
  rw [decide_eq_true_eq] at hk
  dsimp only at hk
  subst hk
  refine ⟨t.mem_list.mp hmem, fun z hz => ?_⟩
  exact hmin (z, .directory) (t.mem_list.mpr hz) (by simp)

theorem oldestFolder_eq_none {t : Dir} {folder : List String} (h : oldestFolder t folder = none)
    (x : String) : (folder ++ [x], Kind.directory) ∉ t.entries := by
  intro hx
  rw [oldestFolder, Option.map_eq_none_iff] at h
  exact least_eq_none _ _ h _ (t.mem_list.mpr hx) (by simp)

/-- There is one oldest folder. -/
theorem IsOldestFolder.eq {t : Dir} {folder : List String} {x y : String}
    (hx : IsOldestFolder t folder x) (hy : IsOldestFolder t folder y) : x = y :=
  le_antisymm (hx.2 y hy.1) (hy.2 x hx.1)

theorem oldestFile_eq_some {t : Dir} {d h x : String} (hs : oldestFile t [d, h] = some x) :
    IsRecording t [d, h, x] ∧ ∀ y, IsRecording t [d, h, y] → x ≤ y := by
  obtain ⟨⟨y, k⟩, hl, rfl⟩ := Option.map_eq_some_iff.mp hs
  obtain ⟨hmem, hk, hmin⟩ := least_eq_some _ _ hl
  rw [decide_eq_true_eq] at hk
  dsimp only at hk
  obtain ⟨rfl, hname⟩ := hk
  refine ⟨⟨t.mem_list.mp hmem, by simpa using hname⟩, fun z hz => ?_⟩
  exact hmin (z, .regular) (t.mem_list.mpr hz.1) (by simpa using hz.2)

theorem oldestFile_eq_none {t : Dir} {d h : String} (hn : oldestFile t [d, h] = none)
    (x : String) : ¬ IsRecording t [d, h, x] := by
  intro hx
  rw [oldestFile, Option.map_eq_none_iff] at hn
  exact least_eq_none _ _ hn _ (t.mem_list.mpr hx.1) (by simpa using hx.2)

/-! ### Removals that spare every other recording -/

/-- The rotation `r` of `t` spares every recording outside `gone`, and each folder it
    removed held no recording when it went. -/
structure Harmless (t : Dir) (gone : List (List String)) (r : Rotation) : Prop where
  kept : ∀ p, IsRecording t p → p ∉ gone → IsRecording r.tree p
  clean : ∀ x ∈ r.removals, (x.target, Kind.directory) ∈ x.before.entries →
    ∀ p, IsRecording x.before p → ¬ x.target <+: p

/-- A property of the rotation that a call of `RotateFiles` ends with, caught or not. -/
def Ends (P : Rotation → Prop) (x : Except Rotation Rotation) : Prop := P (Rotation.caught x)

theorem Ends.bind {P : Rotation → Prop} {x : Except Rotation Rotation}
    {f : Rotation → Except Rotation Rotation} (hx : Ends P x) (hf : ∀ r, P r → Ends P (f r)) :
    Ends P (x.bind f) := by
  cases x with
  | error r => exact hx
  | ok r => exact hf r hx

/-- Removing one of `gone`, or a folder, is harmless: `fs::remove` refuses a folder that
    still has entries. -/
theorem Harmless.remove {t : Dir} {gone : List (List String)} {r : Rotation}
    (hr : Harmless t gone r) {p : List String}
    (hp : p ∈ gone ∨ (p, Kind.directory) ∈ t.entries) : Ends (Harmless t gone) (r.remove p) := by
  unfold Rotation.remove
  split
  case h_1 => exact hr
  case h_2 => exact hr
  case h_3 t' hrem =>
    refine ⟨fun q hq hqg => ?_, fun x hx hdir q hq hpre => ?_⟩
    · have hne : q ≠ p := by
        rintro rfl
        rcases hp with hg | hd
        · exact hqg hg
        · exact absurd (t.kind_unique hq.1 hd) (by decide)
      exact ⟨r.tree.mem_of_remove hrem (hr.kept q hq hqg).1 hne, hq.2⟩
    · rcases List.mem_append.mp hx with hx | hx
      · exact hr.clean x hx hdir q hq hpre
      · rw [List.mem_singleton] at hx
        subst hx
        obtain rfl := r.tree.eq_of_remove hrem hq.1 hpre
        exact absurd (r.tree.kind_unique hq.1 hdir) (by decide)

/-- **Deleting a recording is harmless** for every other recording. -/
theorem deleteRecording_harmless {t : Dir} {date hour file : String}
    (hdate : ([date], Kind.directory) ∈ t.entries)
    (hhour : ([date, hour], Kind.directory) ∈ t.entries) :
    Ends (Harmless t [[date, hour, file], [date, hour, counterpart file]])
      (deleteRecording ⟨t, []⟩ date hour file) := by
  have h0 : Harmless t [[date, hour, file], [date, hour, counterpart file]] ⟨t, []⟩ :=
    ⟨fun p hp _ => hp, fun x hx => by cases hx⟩
  unfold deleteRecording
  refine (h0.remove (.inl (by simp))).bind fun r1 h1 => ?_
  refine (h1.remove (.inl (by simp))).bind fun r2 h2 => ?_
  split
  · refine (h2.remove (.inr hhour)).bind fun r3 h3 => ?_
    split
    · exact h3.remove (.inr hdate)
    · exact h3
  · exact h2

/-! ### Rotation deletes only the oldest recording -/

/-- The oldest recording in the order of date folder, hour folder and file name. -/
def OldestRecording (t : Dir) (d h n : String) : Prop :=
  IsRecording t [d, h, n] ∧ ∀ d' h' n', IsRecording t [d', h', n'] →
    toLex (d, toLex (h, n)) ≤ toLex (d', toLex (h', n'))

/-- One call deletes no recording but the files of the oldest one's stem, and no folder it
    removes holds a recording at any depth when it goes. -/
def DeletesOnlyOldest (t : Dir) : Prop :=
  (∀ p, IsRecording t p → ¬ IsRecording (rotateFiles t).tree p →
    ∃ d h n m, OldestRecording t d h n ∧ p = [d, h, m] ∧ stem m = stem n) ∧
  ∀ x ∈ (rotateFiles t).removals, (x.target, Kind.directory) ∈ x.before.entries →
    ∀ p, IsRecording x.before p → ¬ x.target <+: p

/-- The folders that `RotateFiles` takes for empty are empty of recordings: the oldest date
    folder if it has no folder in it, else its oldest folder if no recording stands directly
    in that one. -/
def EmptyFoldersHoldNone (t : Dir) : Prop :=
  ∀ d, IsOldestFolder t [] d →
    ((∀ h, ([d, h], Kind.directory) ∉ t.entries) → ∀ p, IsRecording t p → ¬ [d] <+: p) ∧
    ∀ h, IsOldestFolder t [d] h → (∀ n, ¬ IsRecording t [d, h, n]) →
      ∀ p, IsRecording t p → ¬ [d, h] <+: p

/-- The recording that the scans pick is the oldest of the tree. -/
theorem oldestRecording_of_scan {t : Dir} {d h n : String} (hd : IsOldestFolder t [] d)
    (hh : IsOldestFolder t [d] h) (hn : oldestFile t [d, h] = some n) :
    OldestRecording t d h n := by
  obtain ⟨hrec, hmin⟩ := oldestFile_eq_some hn
  refine ⟨hrec, fun d' h' n' hrec' => ?_⟩
  -- the folders of any other recording were seen by the scans
  have hd' : ([d'], Kind.directory) ∈ t.entries :=
    t.ancestor_mem (q := [h', n']) (by simp) (by simp) hrec'.1
  have hh' : ([d', h'], Kind.directory) ∈ t.entries :=
    t.ancestor_mem (q := [n']) (by simp) (by simp) hrec'.1
  rw [Prod.Lex.toLex_le_toLex]
  rcases (hd.2 d' hd').lt_or_eq with hlt | rfl
  · exact .inl hlt
  · refine .inr ⟨rfl, ?_⟩
    rw [Prod.Lex.toLex_le_toLex]
    rcases (hh.2 h' hh').lt_or_eq with hlt | rfl
    · exact .inl hlt
    · exact .inr ⟨rfl, hmin n' hrec'⟩

/-- Removing a folder in bulk deletes only the oldest exactly when no recording is below. -/
theorem removeAll_safe_iff {t : Dir} {p : List String} (hp : (p, Kind.directory) ∈ t.entries)
    (hrot : rotateFiles t = Rotation.removeAll ⟨t, []⟩ p) :
    DeletesOnlyOldest t ↔ ∀ q, IsRecording t q → ¬ p <+: q := by
  unfold DeletesOnlyOldest
  rw [hrot]
  constructor
  · rintro ⟨-, hclean⟩
    exact hclean ⟨t, p⟩ (by simp [Rotation.removeAll]) hp
  · intro hnone
    refine ⟨fun q hq hgone => ?_, fun x hx _ => ?_⟩
    · exact absurd ⟨t.mem_removeAll.mpr ⟨hq.1, hnone q hq⟩, hq.2⟩ hgone
    · obtain rfl : x = ⟨t, p⟩ := by simpa [Rotation.removeAll] using hx
      exact hnone

/-- **Rotation.** One call deletes only the oldest recording exactly when the folders it
    takes for empty hold no recording at any depth. -/
theorem rotateFiles_deletesOnlyOldest_iff (t : Dir) :
    DeletesOnlyOldest t ↔ EmptyFoldersHoldNone t := by
  cases hd : oldestFolder t [] with
  | none =>
    have hrot : rotateFiles t = ⟨t, []⟩ := by simp only [rotateFiles, hd]
    have hno := oldestFolder_eq_none hd
    constructor
    · exact fun _ d hd' => absurd hd'.1 (hno d)
    · intro _
      unfold DeletesOnlyOldest
      rw [hrot]
      exact ⟨fun p hp hgone => absurd hp hgone, fun x hx => by cases hx⟩
  | some d =>
    have hdate := oldestFolder_eq_some hd
    cases hh : oldestFolder t [d] with
    | none =>
      have hno := oldestFolder_eq_none hh
      rw [removeAll_safe_iff hdate.1 (by simp only [rotateFiles, hd, hh, List.nil_append])]
      constructor
      · intro hnone d' hd'
        obtain rfl := hdate.eq hd'
        exact ⟨fun _ => hnone, fun h hh' => absurd hh'.1 (hno h)⟩
      · exact fun hshape => (hshape d hdate).1 hno
    | some h =>
      have hhour := oldestFolder_eq_some hh
      cases hf : oldestFile t [d, h] with
      | none =>
        have hno := oldestFile_eq_none hf
        rw [removeAll_safe_iff hhour.1 (by simp only [rotateFiles, hd, hh, hf]; rfl)]
        constructor
        · intro hnone d' hd'
          obtain rfl := hdate.eq hd'
          refine ⟨fun hnoh => absurd hhour.1 (hnoh h), fun h' hh' _ => ?_⟩
          obtain rfl := hhour.eq hh'
          exact hnone
        · exact fun hshape => (hshape d hdate).2 h hhour hno
      | some n =>
        have hold := oldestRecording_of_scan hdate hhour hf
        have hrot : rotateFiles t = Rotation.caught (deleteRecording ⟨t, []⟩ d h n) := by
          simp only [rotateFiles, hd, hh, hf]
        have hharm : Harmless t [[d, h, n], [d, h, counterpart n]]
            (Rotation.caught (deleteRecording ⟨t, []⟩ d h n)) :=
          deleteRecording_harmless hdate.1 hhour.1
        constructor
        · intro _ d' hd'
          obtain rfl := hdate.eq hd'
          refine ⟨fun hnoh => absurd hhour.1 (hnoh h), fun h' hh' hnorec => ?_⟩
          obtain rfl := hhour.eq hh'
          exact absurd hold.1 (hnorec n)
        · intro _
          unfold DeletesOnlyOldest
          rw [hrot]
          -- a file that is gone is the oldest one or its counterpart
          refine ⟨fun p hp hgone => ?_, hharm.clean⟩
          have hmem : p ∈ [[d, h, n], [d, h, counterpart n]] := by
            by_contra hnot
            exact hgone (hharm.kept p hp hnot)
          simp only [List.mem_cons, List.not_mem_nil, or_false] at hmem
          rcases hmem with rfl | rfl
          · exact ⟨d, h, n, n, hold, rfl, rfl⟩
          · exact ⟨d, h, n, _, hold, rfl, stem_counterpart (by simpa using hold.1.2)⟩

/-- Only the default on-demand folder is left under the record path, with one recording. -/
def onDemandTree : Dir where
  entries :=
    [(["on-demand"], .directory), (["on-demand", "20260730"], .directory),
      (["on-demand", "20260730", "09"], .directory),
      (["on-demand", "20260730", "09", "20260730_090000.mp4"], .regular)]
  nodup := by decide
  nonroot := by decide
  rooted := by decide

/-- `on-demand` passes for the oldest date and its only date folder for the oldest hour,
    which holds no file directly: the day goes in bulk, with its recording. -/
theorem not_deletesOnlyOldest_onDemandTree : ¬ DeletesOnlyOldest onDemandTree := by
  rintro ⟨-, hclean⟩
  have hd : oldestFolder onDemandTree [] = some "on-demand" := by decide
  have hh : oldestFolder onDemandTree ["on-demand"] = some "20260730" := by decide
  have hf : oldestFile onDemandTree ["on-demand", "20260730"] = none := by decide
  have hrot : rotateFiles onDemandTree
      = Rotation.removeAll ⟨onDemandTree, []⟩ ["on-demand", "20260730"] := by
    simp only [rotateFiles, hd, hh, hf]
  rw [hrot] at hclean
  refine hclean ⟨onDemandTree, ["on-demand", "20260730"]⟩ (by simp [Rotation.removeAll])
    (by decide) ["on-demand", "20260730", "09", "20260730_090000.mp4"] ⟨by decide, by decide⟩ ?_
  decide

end PiWebrtc.Recorder
