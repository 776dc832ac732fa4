import PiWebrtc.Recorder.MediaQuery
import Mathlib.Data.List.Count

namespace PiWebrtc.Recorder

open FileTree Decimal Calendar

/-!
# Which older recordings a query finds

The answer a query for older recordings is to give comes from the whole tree at once: the
files of the extension that were written before the given one, newest first, as many as were
asked for.  The search of `FindOlderFiles` walks the folders of the tree from the one of the
file backwards, and at each folder what it has is the part of that list above the folder.  It
ends at the first day without an hour folder, whatever lies before that day.

`returns_newestOlder_iff` gives the exact condition under which this loses nothing.
-/

/-- `path::extension`. -/
def pathExtension (p : List String) : String := extension (p.getLastD "")

namespace BaseDir

variable (b : BaseDir)

/-- The files of the whole tree with an extension. -/
def files (ext : String) : List TimedFile :=
  b.tree.entries.filterMap fun e =>
    if e.2 = .regular ∧ pathExtension e.1 = ext then some (b.lastWriteTime e.1, e.1) else none

/-- They, newest first. -/
def newestFirst (ext : String) : List TimedFile := Descending.sort TimedFile.key (b.files ext)

/-- The files of the whole tree with the extension of the given one that were written
    before it. -/
def older (file : List String) : List TimedFile :=
  b.tree.entries.filterMap fun e =>
    if e.2 = .regular ∧ pathExtension e.1 = pathExtension file ∧
      b.lastWriteTime e.1 < b.lastWriteTime file
    then some (b.lastWriteTime e.1, e.1) else none

/-- The older files, newest first. -/
def sortedOlder (file : List String) : List TimedFile :=
  Descending.sort TimedFile.key (b.older file)

/-- The newest of the older files, newest first. -/
def newestOlder (file : List String) (num : ℕ) : List (List String) :=
  ((b.sortedOlder file).take num).map Prod.snd

/-- The search ends, with this answer. -/
def Returns (file : List String) (num : ℕ) (result : List (List String)) : Prop :=
  ∃ n, ∀ fuel, n ≤ fuel → findOlderFiles b file num fuel = some result

/-! ### The trees of the recorder -/

/-- The name of a date folder. -/
def dateName (d : Date) : String := .ofList d.numeral

/-- A tree of date folders with hour folders with files, each kind possibly missing.  Files of
    one extension were written in the order of their paths. -/
structure Dated : Prop where
  date {date : String} {k : Kind} (h : ([date], k) ∈ b.tree.entries) :
    k = .directory ∧ ∃ d : Date, d.Real ∧ date = dateName d
  hour {date hour : String} {k : Kind} (h : ([date, hour], k) ∈ b.tree.entries) :
    k = .directory ∧ hour.toList.length = 2 ∧ Digits hour.toList
  file {date hour name : String} {k : Kind} (h : ([date, hour, name], k) ∈ b.tree.entries) :
    k ≠ .directory
  increasing {p q : List String} (hp : (p, Kind.regular) ∈ b.tree.entries)
    (hq : (q, Kind.regular) ∈ b.tree.entries) (hext : pathExtension p = pathExtension q)
    (h : p < q) : b.lastWriteTime p ≤ b.lastWriteTime q

/-- A directory without folders. -/
def Flat : Prop := ∀ e ∈ b.tree.entries, e.1.length = 1

/-- A day without an hour folder, under the name that `GetPreviousDate` looks for. -/
structure IsGap (d : Date) : Prop where
  real : d.Real
  noHour : ∀ hour, ([.ofList (putTime d), hour], Kind.directory) ∉ b.tree.entries

/-- Every day before the file's that has no hour folder comes after all older files or after
    enough of them. -/
def GapsCovered (file : List String) (num : ℕ) : Prop :=
  ∀ date hour name, file = [date, hour, name] →
    ∀ d, b.IsGap d → dateName d < date →
      (∃ p ∈ b.older file, p.2.headD "" ≤ dateName d) →
      num ≤ (b.older file).countP fun p => dateName d < p.2.headD ""

/-! ### One folder -/

section Folder

variable {b} {file path : List String} {ext : String} {p : TimedFile}

theorem mem_files : p ∈ b.files ext ↔
    (p.2, Kind.regular) ∈ b.tree.entries ∧ pathExtension p.2 = ext ∧ p.1 = b.lastWriteTime p.2 := by
  rw [files, List.mem_filterMap]
  constructor
  · rintro ⟨⟨q, k⟩, hmem, hif⟩
    split at hif
    case isTrue hcond =>
      obtain ⟨rfl, hext⟩ := hcond
      obtain rfl := Option.some.inj hif
      exact ⟨hmem, hext, rfl⟩
    case isFalse => cases hif
  · rintro ⟨hmem, hext, htime⟩
    refine ⟨_, hmem, ?_⟩
    rw [if_pos ⟨rfl, hext⟩, ← htime]

theorem nodup_files : (b.files ext).Nodup := by
  refine (List.Nodup.of_map _ b.tree.nodup).filterMap fun e e' p he he' => ?_
  rw [Option.mem_def] at he he'
  split_ifs at he he' with hcond hcond'
  have hpath := congrArg Prod.snd ((Option.some.inj he).trans (Option.some.inj he').symm)
  exact Prod.ext hpath (hcond.1.trans hcond'.1.symm)

theorem mem_newestFirst : p ∈ b.newestFirst ext ↔ p ∈ b.files ext := Descending.mem_sort

theorem older_eq_filter : b.older file =
    (b.files (pathExtension file)).filter fun p => p.1 < b.lastWriteTime file := by
  rw [older, files, List.filter_filterMap]
  refine List.filterMap_congr fun e _ => ?_
  by_cases hcond : e.2 = .regular ∧ pathExtension e.1 = pathExtension file
  · simp [hcond, Option.filter]
  · rw [if_neg hcond, if_neg fun h => hcond ⟨h.1, h.2.1⟩]
    rfl

theorem mem_older : p ∈ b.older file ↔ (p.2, Kind.regular) ∈ b.tree.entries ∧
    pathExtension p.2 = pathExtension file ∧ p.1 = b.lastWriteTime p.2 ∧
      p.1 < b.lastWriteTime file := by
  rw [older_eq_filter, List.mem_filter, mem_files, decide_eq_true_eq, and_assoc, and_assoc]

theorem mem_getFiles : p ∈ b.getFiles path ext ↔ p ∈ b.files ext ∧ p.2.dropLast = path := by
  rw [getFiles, List.mem_filterMap, mem_files]
  constructor
  · rintro ⟨⟨name, k⟩, hmem, hif⟩
    split at hif
    case isTrue hcond =>
      obtain ⟨rfl, rfl⟩ := hcond
      obtain rfl := Option.some.inj hif
      exact ⟨⟨b.tree.mem_list.mp hmem, by simp [pathExtension], rfl⟩, by simp⟩
    case isFalse => cases hif
  · obtain ⟨time, q⟩ := p
    rintro ⟨⟨hmem, hext, htime⟩, hpath⟩
    obtain ⟨l, name, rfl⟩ := (List.eq_nil_or_concat' q).resolve_left (b.tree.nonroot _ hmem)
    rw [List.dropLast_concat] at hpath
    obtain rfl : time = b.lastWriteTime (l ++ [name]) := htime
    subst hpath
    refine ⟨(name, .regular), b.tree.mem_list.mpr hmem, ?_⟩
    rw [pathExtension, List.getLastD_concat] at hext
    rw [if_pos ⟨rfl, hext⟩]

theorem nodup_getFiles : (b.getFiles path ext).Nodup := by
  refine (b.tree.nodup_list path).filterMap fun e e' p he he' => ?_
  rw [Option.mem_def] at he he'
  split_ifs at he he' with hcond hcond'
  have hpath := congrArg Prod.snd ((Option.some.inj he).trans (Option.some.inj he').symm)
  exact Prod.ext (List.singleton_inj.mp (List.append_cancel_left hpath))
    (hcond.1.trans hcond'.1.symm)

/-- Sorting files puts no two on one place. -/
theorem pairwise_sort_files {l : List TimedFile} (h : l.Nodup) :
    (Descending.sort TimedFile.key l).Pairwise fun p q => q.key < p.key :=
  Descending.pairwise_sort_lt h fun _ _ _ _ heq => toLex.injective heq

theorem pairwise_newestFirst :
    (b.newestFirst ext).Pairwise fun p q => q.key < p.key := pairwise_sort_files nodup_files

/-- Sorting what satisfies a condition among the files is picking it from the sorted files. -/
theorem sort_eq_filter {l : List TimedFile} (hl : l.Nodup) {keep : TimedFile → Bool}
    (h : ∀ p, p ∈ l ↔ p ∈ b.files ext ∧ keep p) :
    Descending.sort TimedFile.key l = (b.newestFirst ext).filter keep := by
  refine Descending.eq_of_mem_iff (pairwise_sort_files hl) (pairwise_newestFirst.filter _)
    fun p => ?_
  rw [Descending.mem_sort, h, List.mem_filter, mem_newestFirst]

/-- The sorted files of a folder. -/
theorem sortedFiles_eq_filter :
    b.sortedFiles path ext = (b.newestFirst ext).filter fun p => p.2.dropLast = path :=
  sort_eq_filter nodup_getFiles fun p => by rw [mem_getFiles, decide_eq_true_eq]

/-- The sorted older files. -/
theorem sortedOlder_eq_filter : b.sortedOlder file =
    (b.newestFirst (pathExtension file)).filter fun p => p.1 < b.lastWriteTime file :=
  sort_eq_filter (older_eq_filter ▸ nodup_files.filter _) fun p => by
    rw [older_eq_filter, List.mem_filter]

/-- **The older files of one folder are those of the whole tree that lie in it**, in the same
    order. -/
theorem filter_sortedFiles :
    (b.sortedFiles path (pathExtension file)).filter (fun p => p.1 < b.lastWriteTime file)
      = (b.sortedOlder file).filter fun p => p.2.dropLast = path := by
  rw [sortedFiles_eq_filter, sortedOlder_eq_filter, List.filter_filter, List.filter_filter]
  exact List.filter_congr fun p _ => Bool.and_comm ..

end Folder

/-! ### Stepping back -/

theorem toList_dateName (d : Date) : (dateName d).toList = d.numeral := String.toList_ofList

theorem dateName_lt_iff {d e : Date} (hd : d.Real) (he : e.Real) :
    dateName d < dateName e ↔ d.number < e.number := by
  rw [← Date.numeral_lt_iff hd he, String.lt_iff_toList_lt, toList_dateName, toList_dateName]

theorem getTime_numeral {d : Date} (hd : d.Real) : getTime d.numeral = d := by
  have hy := hd.length_year
  have hm := Date.length_month hd.month_le
  have hday := Date.length_day hd.day_le_31
  have hdrop : (decimal 4 d.year).drop 6 = [] := List.drop_of_length_le (by omega)
  have htake : (decimal 2 d.day).take 2 = decimal 2 d.day := List.take_of_length_le hday.le
  unfold getTime Date.numeral
  simp [hy, hm, hdrop, htake, List.drop_append]

theorem getPreviousDate_dateName {d : Date} (hd : d.Real) :
    getPreviousDate (dateName d) = .ofList (putTime d.previous) := by
  rw [getPreviousDate, toList_dateName, getTime_numeral hd]

/-- What `GetPreviousDate` prints is the name of a date folder only if it is the one of the
    date it prints. -/
theorem eq_of_putTime_eq {d e : Date} (hm : d.month ≤ 12) (hday : d.day ≤ 31) (he : e.Real)
    (h : String.ofList (putTime d) = dateName e) : d = e := by
  have hchars : putTime d = e.numeral := by
    rw [← toList_dateName e, ← h, String.toList_ofList]
  -- from the end: two characters of the day, two of the month, and the rest is the year
  obtain ⟨hym, hd⟩ := List.append_inj' hchars
    (by rw [Date.length_day hday, Date.length_day he.day_le_31])
  obtain ⟨hy, hm⟩ := List.append_inj' hym
    (by rw [Date.length_month hm, Date.length_month he.month_le])
  -- the year has no zeros in front in the one, and may have some in the other
  have hyear := congrArg value hy
  rw [value_decimal, value_decimal] at hyear
  cases d
  cases e
  rw [Date.mk.injEq]
  exact ⟨hyear, decimal_inj.mp hm, decimal_inj.mp hd⟩

/-- The folder the search goes on with. -/
def nextFolder (date hour : String) : Option (String × String) :=
  match previousHour b.tree [date] hour with
  | some prevHour => some (date, prevHour)
  | none =>
    if b.pathExists [getPreviousDate date] then
      (findLatestSubDir b.tree [getPreviousDate date]).map (getPreviousDate date, ·)
    else none

section Step

variable {b} {date hour date' hour' : String}

theorem folder_lt_iff :
    [date, hour] < [date', hour'] ↔ date < date' ∨ date = date' ∧ hour < hour' := by
  simp [List.cons_lt_cons_iff]

theorem folder_le_iff :
    [date, hour] ≤ [date', hour'] ↔ date < date' ∨ date = date' ∧ hour ≤ hour' := by
  rw [← not_lt, folder_lt_iff, ← not_lt (a := hour')]
  rcases lt_trichotomy date date' with h | rfl | h
  · simp [h, h.not_gt, h.ne']
  · simp
  · simp [h, h.not_gt, h.ne']

theorem path_lt_of_folder_lt {name name' : String}
    (h : [date, hour, name].dropLast < [date', hour', name'].dropLast) :
    [date, hour, name] < [date', hour', name'] := by
  simp only [List.dropLast_cons_cons, List.dropLast_singleton, folder_lt_iff] at h
  simp only [List.cons_lt_cons_iff]
  tauto

/-- An hour folder lies in a date folder and has two digits. -/
theorem Dated.date_of_hour (hb : b.Dated) {k : Kind} (h : ([date, hour], k) ∈ b.tree.entries) :
    ∃ d : Date, d.Real ∧ date = dateName d :=
  (hb.date ((b.tree.parent_mem (p := [date]) h).resolve_left (by simp))).2

theorem Dated.isDateOrHour (hb : b.Dated) {k : Kind}
    (h : ([date, hour], k) ∈ b.tree.entries) : isDateOrHour hour = true := by
  obtain ⟨-, hlen, hdigits⟩ := hb.hour h
  rw [Recorder.isDateOrHour, decide_eq_true_eq, List.all_eq_true]
  exact ⟨.inr hlen, hdigits⟩

/-- The hours of a date from `hour` on are those after the latest hour before it. -/
theorem after_previousHour {date prevHour : String}
    (hprev : previousHour b.tree [date] hour = some prevHour)
    (hmem : ([date', hour'], Kind.directory) ∈ b.tree.entries) :
    [date, prevHour] < [date', hour'] ↔ [date, hour] ≤ [date', hour'] := by
  obtain ⟨-, hlt, hmax⟩ := latestDir_eq_some hprev
  rw [decide_eq_true_eq] at hlt
  rw [folder_lt_iff, folder_le_iff]
  refine or_congr_right (and_congr_right fun heq => ⟨fun hafter => ?_, hlt.trans_le⟩)
  subst heq
  exact not_lt.mp fun hbefore => (hmax _ hmem (by simpa using hbefore)).not_gt hafter

/-- An hour folder of a date is not before `hour`, if no folder of the date is. -/
theorem le_of_previousHour_eq_none {date : String}
    (hnone : previousHour b.tree [date] hour = none)
    (hmem : ([date, hour'], Kind.directory) ∈ b.tree.entries) : hour ≤ hour' := by
  have hkeep := latestDir_eq_none hnone hmem
  exact not_lt.mp (by simpa using hkeep)

/-- From the first hour of a date on there are the folders after the latest one of the day
    before. -/
theorem Dated.after_previousDay (hb : b.Dated) {d : Date} (hd : d.Real) (hprev : d.previous.Real)
    {latest : String} (hnone : previousHour b.tree [dateName d] hour = none)
    (hlatest : findLatestSubDir b.tree [dateName d.previous] = some latest)
    (hmem : ([date', hour'], Kind.directory) ∈ b.tree.entries) :
    [dateName d.previous, latest] < [date', hour'] ↔ [dateName d, hour] ≤ [date', hour'] := by
  obtain ⟨-, -, hmax⟩ := latestDir_eq_some hlatest
  obtain ⟨f, hf, rfl⟩ := hb.date_of_hour hmem
  have hbetween := Date.number_le_previous hd hf
  have hback := Date.number_previous_lt hd
  rw [folder_lt_iff, folder_le_iff, dateName_lt_iff hprev hf, dateName_lt_iff hd hf]
  constructor
  · rintro (hlt | ⟨heq, hlt⟩)
    · -- after the day before: the date itself or a later one
      have hle : d.number ≤ f.number := not_lt.mp fun hlt' => (hbetween.mpr hlt').not_gt hlt
      rcases lt_or_eq_of_le hle with hlt' | heq
      · exact .inl hlt'
      · obtain rfl := Date.number_inj hd hf heq
        exact .inr ⟨rfl, le_of_previousHour_eq_none hnone hmem⟩
    · -- on the day before nothing is after its latest hour
      rw [← heq] at hmem
      exact absurd hlt (hmax _ hmem (hb.isDateOrHour hmem)).not_gt
  · rintro (hlt | ⟨heq, -⟩)
    · exact .inl (hback.trans hlt)
    · rw [← dateName_lt_iff hprev hf, ← heq, dateName_lt_iff hprev hd]
      exact .inl hback

/-- The next folder is the latest one before this one: none lies between, and neither does
    a day without one. -/
theorem Dated.nextFolder_eq_some (hb : b.Dated) {d : Date} (hd : d.Real)
    (h : b.nextFolder (dateName d) hour = some (date', hour')) :
    ([date', hour'], Kind.directory) ∈ b.tree.entries ∧
      (∀ date'' hour'', ([date'', hour''], Kind.directory) ∈ b.tree.entries →
        ([date', hour'] < [date'', hour''] ↔ [dateName d, hour] ≤ [date'', hour''])) ∧
      ∀ g, b.IsGap g → dateName g < dateName d → dateName g < date' := by
  unfold nextFolder at h
  split at h
  case h_1 prevHour hprev =>
    -- an earlier hour of the date
    cases h
    exact ⟨(latestDir_eq_some hprev).1, fun _ _ => after_previousHour hprev, fun _ _ hg => hg⟩
  case h_2 hnone =>
    -- the latest hour of the day before
    rw [getPreviousDate_dateName hd] at h
    split_ifs at h
    obtain ⟨latest, hlatest, heq⟩ := Option.map_eq_some_iff.mp h
    cases heq
    have hmem := (latestDir_eq_some hlatest).1
    obtain ⟨e, he, hname⟩ := hb.date_of_hour hmem
    obtain ⟨-, hm⟩ := Date.previous_month hd
    obtain rfl : d.previous = e := eq_of_putTime_eq hm (Date.previous_day hd) he hname
    have hgap : ∀ g, b.IsGap g → g ≠ d.previous := by
      rintro g hg rfl
      exact hg.noHour _ hmem
    rw [hname] at hlatest hmem ⊢
    refine ⟨hmem, fun _ _ => hb.after_previousDay hd he hnone hlatest, fun g hg hlt => ?_⟩
    rw [dateName_lt_iff hg.real hd, ← Date.number_le_previous hd hg.real] at hlt
    rw [dateName_lt_iff hg.real he]
    exact lt_of_le_of_ne hlt fun heq => hgap g hg (Date.number_inj hg.real he heq)

/-- Where there is no next folder, the folders from this one on are those of its date or a
    later one, and the day before has no hour folder. -/
theorem Dated.nextFolder_eq_none (hb : b.Dated) {d : Date} (hd : d.Real)
    (h : b.nextFolder (dateName d) hour = none) :
    (∀ date'' hour'', ([date'', hour''], Kind.directory) ∈ b.tree.entries →
      ([dateName d, hour] ≤ [date'', hour''] ↔ dateName d ≤ date'')) ∧
    ∀ hour', ([.ofList (putTime d.previous), hour'], Kind.directory) ∉ b.tree.entries := by
  unfold nextFolder at h
  split at h
  case h_1 => cases h
  case h_2 hnone =>
    refine ⟨fun date'' hour'' hmem'' => ?_, fun hour' hmem => ?_⟩
    · rw [folder_le_iff, le_iff_lt_or_eq (a := dateName d)]
      refine or_congr_right (and_iff_left_of_imp fun heq => ?_)
      subst heq
      exact le_of_previousHour_eq_none hnone hmem''
    · have hparent := (b.tree.parent_mem (p := [_]) hmem).resolve_left (by simp)
      rw [getPreviousDate_dateName hd, if_pos (b.pathExists_of_mem hparent),
        Option.map_eq_none_iff] at h
      exact Bool.false_ne_true ((latestDir_eq_none h hmem).symm.trans (hb.isDateOrHour hmem))

/-- A folder that is before one without a next folder: the day before is a gap, and the folder
    lies on it or before. -/
theorem Dated.isGap_previous (hb : b.Dated) {d f : Date} (hd : d.Real) (hf : f.Real)
    (h : b.nextFolder (dateName d) hour = none)
    (hmem : ([dateName f, hour'], Kind.directory) ∈ b.tree.entries)
    (hlt : [dateName f, hour'] < [dateName d, hour]) :
    b.IsGap d.previous ∧ dateName d.previous < dateName d ∧ dateName f ≤ dateName d.previous := by
  obtain ⟨hfrom, hnoHour⟩ := hb.nextFolder_eq_none hd h
  rw [← not_le, hfrom _ _ hmem, not_le, dateName_lt_iff hf hd,
    ← Date.number_le_previous hd hf] at hlt
  have hprev : d.previous.Real := Date.real_previous hd (Date.year_pos_of_number_le hf
    (Date.previous_month hd).2 (Date.previous_day hd) hlt)
  refine ⟨⟨hprev, hnoHour⟩, (dateName_lt_iff hprev hd).mpr (Date.number_previous_lt hd), ?_⟩
  rw [← not_lt, dateName_lt_iff hprev hf]
  exact hlt.not_gt

end Step

/-! ### The search -/

section Search

variable {b} {file : List String} {num : ℕ}

/-- The loop visits a folder, and ends there or goes on with the next one. -/
theorem findBackwards_succ {date hour : String} {result : List (List String)} {fuel : ℕ}
    (hlen : result.length < num) :
    let visited := result ++
      ((b.sortedOlder file).filter fun p => p.2.dropLast = [date, hour]).map Prod.snd
    findBackwards b [] (pathExtension file) (b.lastWriteTime file) num (fuel + 1) date hour result =
      if num ≤ visited.length then some (visited.take num)
      else match b.nextFolder date hour with
        | some (date', hour') =>
          findBackwards b [] (pathExtension file) (b.lastWriteTime file) num fuel date' hour'
            visited
        | none => some visited := by
  intro visited
  rw [findBackwards, if_pos hlen, pushOlder_eq hlen]
  simp only [List.nil_append, filter_sortedFiles]
  by_cases hfull : num ≤ visited.length
  · rw [if_pos hfull, decide_eq_true hfull]
  · rw [if_neg hfull, decide_eq_false hfull, List.take_of_length_le (not_le.mp hfull).le]
    unfold nextFolder
    cases previousHour b.tree [date] hour with
    | some prevHour => rfl
    | none =>
      by_cases hexists : b.pathExists [getPreviousDate date] = true
      · simp only [if_pos hexists]
        cases findLatestSubDir b.tree [getPreviousDate date] <;> rfl
      · simp only [if_neg hexists]

/-- The files of a recorder's tree lie in its hour folders. -/
theorem Dated.eq_of_regular (hb : b.Dated) {q : List String}
    (hq : (q, Kind.regular) ∈ b.tree.entries) :
    ∃ date hour name, q = [date, hour, name] ∧ ([date, hour], Kind.directory) ∈ b.tree.entries := by
  match q with
  | [] => exact absurd rfl (b.tree.nonroot _ hq)
  | [_] => exact absurd (hb.date hq).1 (by decide)
  | [_, _] => exact absurd (hb.hour hq).1 (by decide)
  | [date, hour, name] =>
    exact ⟨date, hour, name, rfl, b.tree.ancestor_mem (p := [date, hour]) (by simp) (by simp) hq⟩
  | date :: hour :: name :: x :: rest =>
    -- a file would be a directory
    have hdir := b.tree.ancestor_mem (p := [date, hour, name]) (q := x :: rest) (by simp)
      (by simp) hq
    exact absurd rfl (hb.file hdir)

/-- A file lies in an hour folder of a date. -/
theorem Dated.folder_of_files (hb : b.Dated) {ext : String} {p : TimedFile}
    (hp : p ∈ b.files ext) :
    ∃ f : Date, ∃ hour, f.Real ∧ p.2.headD "" = dateName f ∧ p.2.dropLast = [dateName f, hour] ∧
      ([dateName f, hour], Kind.directory) ∈ b.tree.entries := by
  obtain ⟨date, hour, name, heq, hmem⟩ := hb.eq_of_regular (mem_files.mp hp).1
  obtain ⟨f, hf, rfl⟩ := hb.date_of_hour hmem
  exact ⟨f, hour, hf, by rw [heq]; rfl, by rw [heq]; rfl, hmem⟩

theorem mem_sortedOlder {p : TimedFile} : p ∈ b.sortedOlder file ↔ p ∈ b.older file :=
  Descending.mem_sort

theorem countP_sortedOlder (keep : TimedFile → Bool) :
    (b.sortedOlder file).countP keep = (b.older file).countP keep :=
  (List.perm_insertionSort _ _).countP_eq keep

/-- An older file lies in an hour folder of a date. -/
theorem Dated.folder_of_older (hb : b.Dated) {p : TimedFile} (hp : p ∈ b.older file) :
    ∃ f : Date, ∃ hour, f.Real ∧ p.2.headD "" = dateName f ∧ p.2.dropLast = [dateName f, hour] ∧
      ([dateName f, hour], Kind.directory) ∈ b.tree.entries := by
  rw [older_eq_filter] at hp
  exact hb.folder_of_files (List.mem_of_mem_filter hp)

/-- A file of an earlier folder comes later in the order. -/
theorem Dated.key_lt_of_folder_lt (hb : b.Dated) {ext : String} {p q : TimedFile}
    (hp : p ∈ b.files ext) (hq : q ∈ b.files ext) (h : p.2.dropLast < q.2.dropLast) :
    p.key < q.key := by
  obtain ⟨hpmem, hpext, hptime⟩ := mem_files.mp hp
  obtain ⟨hqmem, hqext, hqtime⟩ := mem_files.mp hq
  obtain ⟨d, hour, f, hpeq, -⟩ := hb.eq_of_regular hpmem
  obtain ⟨d', hour', f', hqeq, -⟩ := hb.eq_of_regular hqmem
  -- in a later folder the file was written no earlier
  have hpath : p.2 < q.2 := by
    rw [hpeq, hqeq] at h ⊢
    exact path_lt_of_folder_lt h
  have htime := hb.increasing hpmem hqmem (hpext.trans hqext.symm) hpath
  rw [← hptime, ← hqtime] at htime
  rw [TimedFile.key, TimedFile.key, Prod.Lex.toLex_lt_toLex]
  exact (lt_or_eq_of_le htime).imp_right fun heq => ⟨heq, hpath⟩

/-- The files go from the later folders to the earlier ones. -/
theorem Dated.pairwise_folder (hb : b.Dated) (ext : String) :
    (b.newestFirst ext).Pairwise fun p q => q.2.dropLast ≤ p.2.dropLast := by
  refine pairwise_newestFirst.imp_of_mem fun {p q} hp hq hlt => not_lt.mp fun hfolder => ?_
  exact hlt.not_gt (hb.key_lt_of_folder_lt (mem_newestFirst.mp hp) (mem_newestFirst.mp hq) hfolder)

/-- The older files go from the later folders to the earlier ones. -/
theorem Dated.pairwise_folder_older (hb : b.Dated) :
    (b.sortedOlder file).Pairwise fun p q => q.2.dropLast ≤ p.2.dropLast :=
  sortedOlder_eq_filter ▸ (hb.pairwise_folder _).filter _

section Position

variable {d : Date} {date₀ hour₀ name hour : String}

/-- What the search has when it comes to a folder: the older files of the later folders. -/
def afterFolder (b : BaseDir) (file folder : List String) : List TimedFile :=
  (b.sortedOlder file).filter fun p => folder < p.2.dropLast

/-- What the search has when it leaves a folder. -/
def fromFolder (b : BaseDir) (file folder : List String) : List TimedFile :=
  (b.sortedOlder file).filter fun p => folder ≤ p.2.dropLast

theorem Dated.fromFolder_eq_append (hb : b.Dated) (folder : List String) :
    b.fromFolder file folder = b.afterFolder file folder
      ++ (b.sortedOlder file).filter fun p => p.2.dropLast = folder := by
  unfold fromFolder afterFolder
  convert Descending.filter_le_eq_append hb.pairwise_folder_older folder

/-- **A met request is met by the newest files.** -/
theorem Dated.take_fromFolder (hb : b.Dated) {folder : List String}
    (hfull : num ≤ (b.fromFolder file folder).length) :
    ((b.fromFolder file folder).map Prod.snd).take num = b.newestOlder file num := by
  rw [← List.map_take, newestOlder, fromFolder, Descending.take_filter _ hfull]
  refine hb.pairwise_folder_older.imp fun hle hfolder => ?_
  rw [decide_eq_true_eq] at hfolder ⊢
  exact hfolder.trans hle

/-- The folders from one on hold fewer files than those of the days after an earlier day. -/
theorem Dated.length_fromFolder_le (hb : b.Dated) {g : Date} (hlt : dateName g < dateName d) :
    (b.fromFolder file [dateName d, hour]).length
      ≤ (b.older file).countP fun p => dateName g < p.2.headD "" := by
  rw [fromFolder, ← List.countP_eq_length_filter, countP_sortedOlder]
  refine List.countP_mono_left fun p hp hle => ?_
  obtain ⟨f, hour', -, hdate, hfolder, -⟩ := hb.folder_of_older hp
  rw [decide_eq_true_eq, hfolder, folder_le_iff] at hle
  rw [decide_eq_true_eq, hdate]
  exact hlt.trans_le (hle.elim le_of_lt fun h => h.1.le)

/-- A met request has covered every gap, if all gaps are before the folder it is met at. -/
theorem Dated.gapsCovered_of_full (hb : b.Dated)
    (hgap : ∀ g, b.IsGap g → dateName g < date₀ → dateName g < dateName d)
    (hfull : num ≤ (b.fromFolder file [dateName d, hour]).length)
    (hfile : file = [date₀, hour₀, name]) : b.GapsCovered file num := by
  intro date' hour' name' hfile' g hg hlt _
  obtain ⟨rfl, -, -⟩ : date₀ = date' ∧ _ := by simpa [hfile] using hfile'
  exact hfull.trans (hb.length_fromFolder_le (hgap g hg hlt))

/-- **A search that gives up has found the newest files exactly when the gaps before the file
    are covered.** -/
theorem Dated.map_fromFolder_eq_iff (hb : b.Dated) (hd : d.Real)
    (hnext : b.nextFolder (dateName d) hour = none)
    (hgap : ∀ g, b.IsGap g → dateName g < date₀ → dateName g < dateName d)
    (hle : dateName d ≤ date₀) (hfile : file = [date₀, hour₀, name])
    (hlen : (b.fromFolder file [dateName d, hour]).length < num) :
    (b.fromFolder file [dateName d, hour]).map Prod.snd = b.newestOlder file num
      ↔ b.GapsCovered file num := by
  obtain ⟨hfrom, -⟩ := hb.nextFolder_eq_none hd hnext
  unfold fromFolder newestOlder
  rw [Descending.map_filter_eq_map_take_iff _ hlen]
  constructor
  · -- no older file is before the gap, so none is before an earlier one
    intro hall date' hour' name' hfile' g hg hlt ⟨p, hp, hple⟩
    obtain ⟨rfl, -, -⟩ : date₀ = date' ∧ _ := by simpa [hfile] using hfile'
    obtain ⟨f, hour'', -, hdate, hfolder, hmem⟩ := hb.folder_of_older hp
    have hin := hall p (mem_sortedOlder.mpr hp)
    rw [decide_eq_true_eq, hfolder, hfrom _ _ hmem] at hin
    rw [hdate] at hple
    exact absurd (hgap g hg hlt) (hin.trans hple).not_gt
  · -- the day before is a gap with too few files after it, so with none before it
    intro hcovered p hp
    obtain ⟨f, hour', hf, hdate, hfolder, hmem⟩ := hb.folder_of_older (mem_sortedOlder.mp hp)
    rw [decide_eq_true_eq, hfolder, hfrom _ _ hmem]
    refine not_lt.mp fun hlt => ?_
    have hback : [dateName f, hour'] < [dateName d, hour] := folder_lt_iff.mpr (.inl hlt)
    obtain ⟨hgapd, hbefore, hfle⟩ := hb.isGap_previous hd hf hnext hmem hback
    have hnum := hcovered date₀ hour₀ name hfile d.previous hgapd (hbefore.trans_le hle)
      ⟨p, mem_sortedOlder.mp hp, hdate ▸ hfle⟩
    refine hlen.not_ge (hnum.trans ?_)
    rw [fromFolder, ← List.countP_eq_length_filter, countP_sortedOlder]
    refine List.countP_mono_left fun q hq hafter => ?_
    obtain ⟨f', hour'', hf', hdate', hfolder', hmem'⟩ := hb.folder_of_older hq
    rw [decide_eq_true_eq, hdate', dateName_lt_iff hgapd.real hf'] at hafter
    rw [decide_eq_true_eq, hfolder', hfrom _ _ hmem', ← not_lt, dateName_lt_iff hf' hd,
      ← Date.number_le_previous hd hf']
    exact hafter.not_ge

/-- The loop from a folder on, when it has the older files of the later folders. -/
theorem Dated.findBackwards_afterFolder (hb : b.Dated) {date : String} (fuel : ℕ)
    (hlen : (b.afterFolder file [date, hour]).length < num) :
    findBackwards b [] (pathExtension file) (b.lastWriteTime file) num (fuel + 1) date hour
        ((b.afterFolder file [date, hour]).map Prod.snd) =
      if num ≤ (b.fromFolder file [date, hour]).length then some (b.newestOlder file num)
      else match b.nextFolder date hour with
        | some (date', hour') =>
          findBackwards b [] (pathExtension file) (b.lastWriteTime file) num fuel date' hour'
            ((b.fromFolder file [date, hour]).map Prod.snd)
        | none => some ((b.fromFolder file [date, hour]).map Prod.snd) := by
  rw [findBackwards_succ (by rwa [List.length_map]), ← List.map_append,
    ← hb.fromFolder_eq_append, List.length_map]
  split_ifs with hfull
  · rw [hb.take_fromFolder hfull]
  · rfl

/-- The entries before a path. -/
def entriesBefore (b : BaseDir) (path : List String) : ℕ :=
  b.tree.entries.countP fun e => e.1 < path

theorem entriesBefore_lt {p q : List String} {k : Kind} (hmem : (p, k) ∈ b.tree.entries)
    (hlt : p < q) : b.entriesBefore p < b.entriesBefore q := by
  have hsub : b.tree.entries.countP (fun e => e.1 < p)
      = (b.tree.entries.filter fun e => e.1 < q).countP fun e => e.1 < p := by
    rw [List.countP_filter]
    refine List.countP_congr fun e _ => ?_
    simpa using fun h => h.trans hlt
  -- what is before `p` is before `q`, and `p` itself is only before `q`
  rw [entriesBefore, hsub, entriesBefore, List.countP_eq_length_filter (l := b.tree.entries),
    List.countP_lt_length_iff]
  exact ⟨(p, k), List.mem_filter.mpr ⟨hmem, by simpa using hlt⟩, by simp⟩

/-- **From any folder it comes to the search ends**, with the newest files exactly when the
    gaps before the file are covered. -/
theorem Dated.findBackwards_returns (hb : b.Dated) (hd : d.Real)
    (hgap : ∀ g, b.IsGap g → dateName g < date₀ → dateName g < dateName d)
    (hle : dateName d ≤ date₀) (hfile : file = [date₀, hour₀, name])
    (hlen : (b.afterFolder file [dateName d, hour]).length < num) :
    ∃ result,
      (∀ fuel, b.entriesBefore [dateName d, hour] < fuel →
        findBackwards b [] (pathExtension file) (b.lastWriteTime file) num fuel (dateName d) hour
          ((b.afterFolder file [dateName d, hour]).map Prod.snd) = some result) ∧
      (result = b.newestOlder file num ↔ b.GapsCovered file num) := by
  induction hn : b.entriesBefore [dateName d, hour] using Nat.strong_induction_on
    generalizing d hour with
  | _ n ih =>
    by_cases hfull : num ≤ (b.fromFolder file [dateName d, hour]).length
    · -- the request is met in this folder
      refine ⟨_, fun fuel hfuel => ?_, iff_of_true rfl (hb.gapsCovered_of_full hgap hfull hfile)⟩
      obtain ⟨fuel, rfl⟩ := Nat.exists_eq_add_one.mpr (by omega : 0 < fuel)
      rw [hb.findBackwards_afterFolder fuel hlen, if_pos hfull]
    · have hlen' := not_le.mp hfull
      cases hnext : b.nextFolder (dateName d) hour with
      | none =>
        -- the day before has no hour folder, and the search gives up
        refine ⟨_, fun fuel hfuel => ?_, hb.map_fromFolder_eq_iff hd hnext hgap hle hfile hlen'⟩
        obtain ⟨fuel, rfl⟩ := Nat.exists_eq_add_one.mpr (by omega : 0 < fuel)
        rw [hb.findBackwards_afterFolder fuel hlen, if_neg hfull, hnext]
      | some next =>
        -- the next folder has fewer entries before it
        obtain ⟨date', hour'⟩ := next
        obtain ⟨hmem, hbetween, hgap'⟩ := hb.nextFolder_eq_some hd hnext
        obtain ⟨e, he, rfl⟩ := hb.date_of_hour hmem
        have hback : [dateName e, hour'] < [dateName d, hour] :=
          not_le.mp ((hbetween _ _ hmem).not.mp (lt_irrefl _))
        have hle' : dateName e ≤ dateName d :=
          (folder_lt_iff.mp hback).elim le_of_lt fun h => h.1.le
        have hafter : b.afterFolder file [dateName e, hour']
            = b.fromFolder file [dateName d, hour] := by
          refine List.filter_congr fun p hp => decide_eq_decide.mpr ?_
          obtain ⟨f, hour'', -, -, hfolder, hmem'⟩ := hb.folder_of_older (mem_sortedOlder.mp hp)
          rw [hfolder]
          exact hbetween _ _ hmem'
        obtain ⟨result, hresult, hiff⟩ := ih _ (hn ▸ entriesBefore_lt hmem hback) he
          (fun g hg hlt => hgap' g hg (hgap g hg hlt)) (hle'.trans hle) (by rwa [hafter]) rfl
        refine ⟨result, fun fuel hfuel => ?_, hiff⟩
        obtain ⟨fuel, rfl⟩ := Nat.exists_eq_add_one.mpr (by omega : 0 < fuel)
        rw [hb.findBackwards_afterFolder fuel hlen, if_neg hfull, hnext]
        have hlt := entriesBefore_lt hmem hback
        rw [← hafter]
        exact hresult fuel (by omega)

end Position

end Search

/-! ### The answer -/

section Answer

variable {b} {file : List String} {num : ℕ}

theorem Returns.unique {r r' : List (List String)} (h : b.Returns file num r)
    (h' : b.Returns file num r') : r = r' := by
  obtain ⟨n, hn⟩ := h
  obtain ⟨n', hn'⟩ := h'
  have heq := (hn (max n n') (le_max_left n n')).symm.trans (hn' _ (le_max_right n n'))
  exact Option.some.inj heq

/-- In a directory without folders the search is one scan. -/
theorem Flat.returns_newestOlder (hb : b.Flat) (hfile : (file, Kind.regular) ∈ b.tree.entries)
    (hnum : 1 ≤ num) : b.Returns file num (b.newestOlder file num) := by
  obtain ⟨name, rfl⟩ := List.length_eq_one_iff.mp (hb _ hfile)
  refine ⟨0, fun fuel _ => ?_⟩
  have hexists : b.pathExists [name] = true := b.pathExists_of_mem hfile
  have hall :
      (b.sortedOlder [name]).filter (fun p => p.2.dropLast = []) = b.sortedOlder [name] := by
    refine List.filter_eq_self.mpr fun p hp => ?_
    obtain ⟨other, hother⟩ : ∃ other, p.2 = [other] :=
      List.length_eq_one_iff.mp (hb _ (mem_older.mp (mem_sortedOlder.mp hp)).1)
    rw [hother]
    rfl
  have hext : extension name = pathExtension [name] := rfl
  rw [findOlderFiles, hexists, if_neg (by decide)]
  simp only [List.reverse_singleton]
  rw [pushOlder_eq hnum, hext, filter_sortedFiles, hall, List.nil_append, newestOlder,
    List.map_take]

/-- No older file lies in a later folder than the file. -/
theorem Dated.afterFolder_self (hb : b.Dated) (hfile : (file, Kind.regular) ∈ b.tree.entries) :
    b.afterFolder file file.dropLast = [] := by
  refine List.filter_eq_nil_iff.mpr fun p hp hlt => ?_
  rw [decide_eq_true_eq] at hlt
  obtain ⟨hmem, hext, htime, holder⟩ := mem_older.mp (mem_sortedOlder.mp hp)
  obtain ⟨d, h, f, heq, -⟩ := hb.eq_of_regular hfile
  obtain ⟨d', h', f', heq', -⟩ := hb.eq_of_regular hmem
  have hpath : file < p.2 := by
    rw [heq, heq'] at hlt ⊢
    exact path_lt_of_folder_lt hlt
  rw [htime] at holder
  exact (hb.increasing hfile hmem hext.symm hpath).not_gt holder

/-- In a recorder's tree the search ends, with the newest older files exactly when the gaps
    before the file are covered. -/
theorem Dated.returns (hb : b.Dated) (hfile : (file, Kind.regular) ∈ b.tree.entries)
    (hnum : 1 ≤ num) : ∃ result, b.Returns file num result ∧
      (result = b.newestOlder file num ↔ b.GapsCovered file num) := by
  have hself := hb.afterFolder_self hfile
  obtain ⟨date, hour, name, heq, hmem⟩ := hb.eq_of_regular hfile
  obtain ⟨d, hd, rfl⟩ := hb.date_of_hour hmem
  have hfolder : file.dropLast = [dateName d, hour] := by rw [heq]; rfl
  rw [hfolder] at hself
  have hlen : (b.afterFolder file [dateName d, hour]).length < num := by rwa [hself]
  obtain ⟨result, hresult, hiff⟩ :=
    hb.findBackwards_returns hd (fun _ _ hg => hg) le_rfl heq hlen
  refine ⟨result, ⟨b.entriesBefore [dateName d, hour] + 1, fun fuel hfuel => ?_⟩, hiff⟩
  have hrun := hresult fuel hfuel
  rw [hself] at hrun
  rw [findOlderFiles, b.pathExists_of_mem hfile, if_neg (by decide)]
  subst heq
  exact hrun

/-- **The search for older files ends, and it returns the newest ones exactly when every day
    without an hour folder comes after all older files or after enough of them.** -/
theorem returns_newestOlder_iff (hb : b.Dated ∨ b.Flat)
    (hfile : (file, Kind.regular) ∈ b.tree.entries) (hnum : 1 ≤ num) :
    (∃ result, b.Returns file num result) ∧
      (b.Returns file num (b.newestOlder file num) ↔ b.GapsCovered file num) := by
  rcases hb with hb | hb
  · obtain ⟨result, hresult, hiff⟩ := hb.returns hfile hnum
    refine ⟨⟨result, hresult⟩, Iff.trans ?_ hiff⟩
    exact ⟨hresult.unique, fun heq => heq ▸ hresult⟩
  · have hresult := hb.returns_newestOlder hfile hnum
    refine ⟨⟨_, hresult⟩, iff_of_true hresult ?_⟩
    intro date hour name heq
    have hlen := hb _ hfile
    rw [heq] at hlen
    cases hlen

/-- Recordings of the first and of the third day of a year, with the camera off in between. -/
def missingDay : BaseDir where
  tree :=
    { entries :=
        [(["20260101"], .directory), (["20260101", "10"], .directory),
          (["20260101", "10", "20260101_100000.mp4"], .regular),
          (["20260103"], .directory), (["20260103", "10"], .directory),
          (["20260103", "10", "20260103_100000.mp4"], .regular),
          (["20260103", "10", "20260103_100100.mp4"], .regular)]
      nodup := by decide
      nonroot := by decide
      rooted := by decide }
  lastWriteTime p :=
    if p < ["20260102"] then 0 else if p < ["20260103", "10", "20260103_100030"] then 1 else 2

theorem dated_missingDay : missingDay.Dated where
  date {date k} h := by
    have hcases : (date, k) = ("20260101", .directory) ∨ (date, k) = ("20260103", .directory) := by
      simpa [missingDay] using h
    rcases hcases with hcase | hcase <;> cases hcase
    · exact ⟨rfl, ⟨2026, 1, 1⟩, by constructor <;> decide, by decide⟩
    · exact ⟨rfl, ⟨2026, 1, 3⟩, by constructor <;> decide, by decide⟩
  hour {date hour k} h := by
    have hcases : hour = "10" ∧ k = .directory := by
      simp [missingDay] at h
      tauto
    obtain ⟨rfl, rfl⟩ := hcases
    have hten : "10".toList = decimal 2 10 := by decide
    exact ⟨rfl, by decide, hten ▸ digits_decimal 2 10⟩
  file h := by
    rintro rfl
    simp [missingDay] at h
  increasing _ _ _ hlt := by
    dsimp only [missingDay]
    split_ifs <;> grind

/-- One older file is asked for, and there is one after the missing day. -/
theorem returns_missingDay_one :
    missingDay.Returns ["20260103", "10", "20260103_100100.mp4"] 1
      [["20260103", "10", "20260103_100000.mp4"]] := by
  have hanswer : missingDay.newestOlder ["20260103", "10", "20260103_100100.mp4"] 1
      = [["20260103", "10", "20260103_100000.mp4"]] := by decide +kernel
  rw [← hanswer]
  refine (returns_newestOlder_iff (.inl dated_missingDay) (by decide) le_rfl).2.mpr ?_
  intro date hour name heq d _ hlt _
  cases heq
  refine List.countP_pos_iff.mpr ⟨(1, ["20260103", "10", "20260103_100000.mp4"]), by decide, ?_⟩
  simpa using hlt

/-- Of two older files the search misses the one before the missing day. -/
theorem missingDay_loses_older :
    ¬ ∀ (b : BaseDir) (file : List String) (num : ℕ), b.Dated ∨ b.Flat →
      (file, Kind.regular) ∈ b.tree.entries → 1 ≤ num →
        b.Returns file num (b.newestOlder file num) := by
  intro hexact
  have hreturns : missingDay.Returns ["20260103", "10", "20260103_100100.mp4"] 8
      [["20260103", "10", "20260103_100000.mp4"]] := by
    refine ⟨1, fun fuel hfuel => ?_⟩
    obtain ⟨fuel, rfl⟩ := Nat.exists_eq_add_one.mpr hfuel
    rfl
  have hall := hexact missingDay ["20260103", "10", "20260103_100100.mp4"] 8
    (.inl dated_missingDay) (by decide) (by decide)
  exact absurd (hreturns.unique hall) (by decide +kernel)

end Answer

end BaseDir

end PiWebrtc.Recorder
