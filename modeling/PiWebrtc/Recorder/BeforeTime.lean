import PiWebrtc.Recorder.OlderFiles

namespace PiWebrtc.Recorder

open FileTree Decimal Calendar

/-!
# The recording before a time

`FindFilesFromDatetime` takes a time `YYYYMMDD_HHMMSS`.  In a directory without date folders it
scans the files, newest first, for one that was written before the time.  Otherwise it starts
with the hour folder that the time names, whether or not it is there, and steps back as
`FindOlderFiles` does, through ten folders at most.

* `findFilesFromDatetime` — the search on the tree under the root.
* `findFilesFromDatetime_newest` — what it returns is the newest file before the time in the
  folders up to the one it starts with; and it is the newest of all if that lies within reach.

What time a parameter names depends on the time zone, and is a parameter (`ParseDatetime`).
-/

/-- A time, written as the queries have it. -/
structure Datetime where
  date : Date
  hour : ℕ
  minute : ℕ
  second : ℕ
  real : date.Real
  hour_lt : hour < 24
  minute_lt : minute < 60
  second_lt : second < 60

namespace Datetime

/-- `YYYYMMDD_HHMMSS`. -/
def name (x : Datetime) : String :=
  .ofList (x.date.numeral ++ '_' :: (decimal 2 x.hour ++ decimal 2 x.minute ++ decimal 2 x.second))

/-- The name of the hour folder. -/
def hourName (x : Datetime) : String := .ofList (decimal 2 x.hour)

end Datetime

/-- A folder of the root has a name that matches `^[0-9]{8}$`. -/
def isNested (t : Dir) : Bool :=
  (t.list []).any fun e => e.2 = .directory ∧ e.1.toList.length = 8 ∧ e.1.toList.all (·.isDigit)

/-- The loop over the files of a folder. -/
def firstBefore (limit : ℤ) (files : List TimedFile) : Option (List String) :=
  (files.find? (·.1 < limit)).map Prod.snd

/-- The loop from folder to folder, with the number of folders left. -/
def findFrom (b : BaseDir) (limit : ℤ) : ℕ → (date hour : String) → Option (List String)
  | 0, _, _ => none
  | count + 1, date, hour =>
    match firstBefore limit (b.sortedFiles [date, hour] ".mp4") with
    | some path => some path
    | none =>
      match previousHour b.tree [date] hour with
      | some prevHour => findFrom b limit count date prevHour
      | none =>
        let prevDate := getPreviousDate date
        if b.pathExists [prevDate] then
          match findLatestSubDir b.tree [prevDate] with
          | some latestHour => findFrom b limit count prevDate latestHour
          | none => none
        else none

/-- `FindFilesFromDatetime`; `none` is the empty path.  The date and the hour that are cut out of
    the parameter are names of folders here. -/
def findFilesFromDatetime (parseDatetime : String → ℤ) (b : BaseDir) (basename : String) :
    Option (List String) :=
  let chars := basename.toList
  if chars.length < 15 then none
  else
    let limit := parseDatetime basename
    if isNested b.tree then
      findFrom b limit 10 (.ofList (chars.take 8)) (.ofList ((chars.drop 9).take 2))
    else firstBefore limit (b.sortedFiles [] ".mp4")

namespace BaseDir

variable (b : BaseDir) (limit : ℤ)

/-- The recordings of the whole tree from before the time, newest first. -/
def before : List TimedFile := (b.newestFirst ".mp4").filter (·.1 < limit)

/-- The newest of them. -/
def newestBefore : Option (List String) := (b.before limit).head?.map Prod.snd

/-- A directory of files. -/
def OnlyFiles : Prop := ∀ e ∈ b.tree.entries, e.2 ≠ .directory

/-- The hour folders from one on up to another, the latter not included. -/
def foldersBetween (lo hi : List String) : ℕ :=
  b.tree.entries.countP fun e => e.1.length = 2 ∧ lo ≤ e.1 ∧ e.1 < hi

/-- The newest file before the time lies in a folder not later than the one that the time names
    and at most nine hour folders before it, and no day from its own on up to that of the time is
    without an hour folder. -/
def WithinReach (x : Datetime) : Prop :=
  ∀ date hour name, b.newestBefore limit = some [date, hour, name] →
    [date, hour] ≤ [dateName x.date, x.hourName] ∧
    b.foldersBetween [date, hour] [dateName x.date, x.hourName] < 10 ∧
    ∀ d, b.IsGap d → dateName d < dateName x.date → dateName d < date

/-! ### The names in a time -/

section Names

variable (x : Datetime)

theorem length_hour : (decimal 2 x.hour).length = 2 :=
  length_decimal (by decide) (x.hour_lt.trans (by decide))

theorem toList_name : x.name.toList =
    x.date.numeral ++ '_' :: (decimal 2 x.hour ++ decimal 2 x.minute ++ decimal 2 x.second) :=
  String.toList_ofList

theorem length_name : x.name.toList.length = 15 := by
  have hm : (decimal 2 x.minute).length = 2 :=
    length_decimal (by decide) (x.minute_lt.trans (by decide))
  have hs : (decimal 2 x.second).length = 2 :=
    length_decimal (by decide) (x.second_lt.trans (by decide))
  simp [toList_name, x.real.length_numeral, length_hour, hm, hs]

/-- The date that is cut out of a time. -/
theorem date_of_name : String.ofList (x.name.toList.take 8) = dateName x.date := by
  rw [toList_name, List.take_left' x.real.length_numeral]
  rfl

/-- The hour that is cut out of a time. -/
theorem hour_of_name : String.ofList ((x.name.toList.drop 9).take 2) = x.hourName := by
  have hdrop : x.name.toList.drop 9 =
      decimal 2 x.hour ++ (decimal 2 x.minute ++ decimal 2 x.second) := by
    rw [toList_name, ← List.drop_drop (i := 1) (j := 8), List.drop_left' x.real.length_numeral,
      List.drop_one, List.tail_cons, List.append_assoc]
  rw [hdrop, List.take_left' (length_hour x)]
  rfl

end Names

/-! ### The files before the time -/

section Before

variable {b limit} {p q : TimedFile}

theorem mem_before : p ∈ b.before limit ↔ p ∈ b.newestFirst ".mp4" ∧ p.1 < limit := by
  rw [before, List.mem_filter, decide_eq_true_eq]

theorem pairwise_before : (b.before limit).Pairwise fun p q => q.key ≤ p.key :=
  (pairwise_newestFirst.imp le_of_lt).filter _

/-- The loop over the files of a folder finds the first of the files before the time in it. -/
theorem firstBefore_sortedFiles (path : List String) :
    firstBefore limit (b.sortedFiles path ".mp4") =
      ((b.before limit).find? fun p => p.2.dropLast = path).map Prod.snd := by
  rw [firstBefore, sortedFiles_eq_filter, ← List.head?_filter, ← List.head?_filter, before,
    List.filter_filter, List.filter_filter]
  exact congrArg _ (congrArg _ (List.filter_congr fun p _ => Bool.and_comm ..))

/-- The newest file before the time. -/
theorem newestBefore_spec {path : List String} (h : b.newestBefore limit = some path) :
    ∃ p ∈ b.before limit, (∀ q ∈ b.before limit, q.key ≤ p.key) ∧ p.2 = path := by
  obtain ⟨p, hp, rfl⟩ := Option.map_eq_some_iff.mp h
  refine ⟨p, List.mem_of_mem_head? hp, fun q hq => ?_, rfl⟩
  refine Descending.le_of_find?_eq_some (p := fun _ => true) pairwise_before ?_ hq rfl
  rw [← List.head?_filter, List.filter_true]
  exact hp

theorem notMem_before (h : b.newestBefore limit = none) : p ∉ b.before limit := by
  rw [newestBefore, Option.map_eq_none_iff, List.head?_eq_none_iff] at h
  rw [h]
  exact List.not_mem_nil

end Before

/-! ### Back from a folder -/

section Search

variable {b limit} {date hour : String} {p : TimedFile}

/-- The loop visits a folder, and ends there or goes on with the next one. -/
theorem findFrom_succ (count : ℕ) : findFrom b limit (count + 1) date hour =
    match (b.before limit).find? fun p => p.2.dropLast = [date, hour] with
    | some p => some p.2
    | none =>
      match b.nextFolder date hour with
      | some (date', hour') => findFrom b limit count date' hour'
      | none => none := by
  rw [findFrom, firstBefore_sortedFiles]
  cases (b.before limit).find? fun p => p.2.dropLast = [date, hour] with
  | some p => rfl
  | none =>
    rw [Option.map_none, nextFolder]
    cases previousHour b.tree [date] hour with
    | some prevHour => rfl
    | none =>
      by_cases hexists : b.pathExists [getPreviousDate date] = true
      · simp only [if_pos hexists]
        cases findLatestSubDir b.tree [getPreviousDate date] <;> rfl
      · simp only [if_neg hexists]

/-- Without a file before the time in a folder, those up to it are those up to the next one. -/
theorem Dated.folder_le_next (hb : b.Dated) {d : Date} (hd : d.Real) {date' hour' : String}
    (hnone : ((b.before limit).find? fun p => p.2.dropLast = [dateName d, hour]) = none)
    (hnext : b.nextFolder (dateName d) hour = some (date', hour')) (hp : p ∈ b.before limit)
    (hle : p.2.dropLast ≤ [dateName d, hour]) : p.2.dropLast ≤ [date', hour'] := by
  obtain ⟨-, hbetween, -⟩ := hb.nextFolder_eq_some hd hnext
  obtain ⟨f, h, -, -, hfolder, hmem⟩ :=
    hb.folder_of_files (mem_newestFirst.mp (mem_before.mp hp).1)
  have hne : p.2.dropLast ≠ [dateName d, hour] := by
    simpa using List.find?_eq_none.mp hnone p hp
  rw [hfolder] at hle hne ⊢
  rw [← not_lt, hbetween _ _ hmem]
  exact not_le.mpr (lt_of_le_of_ne hle hne)

/-- **What the search returns** is the newest file before the time in the folders up to the one
    that it starts with. -/
theorem Dated.findFrom_newest (hb : b.Dated) {d : Date} (hd : d.Real) {count : ℕ}
    {path : List String} (h : findFrom b limit count (dateName d) hour = some path) :
    ∃ p ∈ b.before limit, p.2 = path ∧ p.2.dropLast ≤ [dateName d, hour] ∧
      ∀ q ∈ b.before limit, q.2.dropLast ≤ [dateName d, hour] → q.key ≤ p.key := by
  induction count generalizing d hour with
  | zero => cases h
  | succ count ih =>
    rw [findFrom_succ] at h
    cases hfind : (b.before limit).find? fun p => p.2.dropLast = [dateName d, hour] with
    | some p =>
      rw [hfind] at h
      have hmem := List.mem_of_find?_eq_some hfind
      have hfolder : p.2.dropLast = [dateName d, hour] := by simpa using List.find?_some hfind
      refine ⟨p, hmem, Option.some.inj h, hfolder.le, fun q hq hle => ?_⟩
      rcases lt_or_eq_of_le hle with hlt | heq
      · -- an earlier folder
        rw [← hfolder] at hlt
        exact (hb.key_lt_of_folder_lt (mem_newestFirst.mp (mem_before.mp hq).1)
          (mem_newestFirst.mp (mem_before.mp hmem).1) hlt).le
      · exact Descending.le_of_find?_eq_some pairwise_before hfind hq (by simpa using heq)
    | none =>
      rw [hfind] at h
      cases hnext : b.nextFolder (dateName d) hour with
      | none =>
        rw [hnext] at h
        cases h
      | some next =>
        obtain ⟨date', hour'⟩ := next
        rw [hnext] at h
        obtain ⟨hmem, hbetween, -⟩ := hb.nextFolder_eq_some hd hnext
        obtain ⟨e, he, rfl⟩ := hb.date_of_hour hmem
        have hback : [dateName e, hour'] ≤ [dateName d, hour] :=
          (not_le.mp ((hbetween _ _ hmem).not.mp (lt_irrefl _))).le
        obtain ⟨p, hp, hpath, hfolder, hmax⟩ := ih he h
        exact ⟨p, hp, hpath, hfolder.trans hback,
          fun q hq hle => hmax q hq (hb.folder_le_next hd hfind hnext hq hle)⟩

/-- A step back leaves fewer folders behind. -/
theorem foldersBetween_lt {lo hi folder : List String}
    (hmem : (folder, Kind.directory) ∈ b.tree.entries) (hlen : folder.length = 2)
    (hlo : lo ≤ folder) (hhi : folder < hi) :
    b.foldersBetween lo folder < b.foldersBetween lo hi := by
  have hsub : b.foldersBetween lo folder
      = (b.tree.entries.filter fun e => e.1.length = 2 ∧ lo ≤ e.1 ∧ e.1 < hi).countP
          fun e => e.1 < folder := by
    rw [List.countP_filter, foldersBetween]
    refine List.countP_congr fun e _ => ?_
    simp only [decide_eq_true_eq, Bool.and_eq_true]
    constructor
    · exact fun ⟨hl, hle, hlt⟩ => ⟨hlt, hl, hle, hlt.trans hhi⟩
    · exact fun ⟨hlt, hl, hle, _⟩ => ⟨hl, hle, hlt⟩
  -- the folder itself is left behind
  rw [hsub, foldersBetween, List.countP_eq_length_filter (l := b.tree.entries),
    List.countP_lt_length_iff]
  exact ⟨(folder, .directory), List.mem_filter.mpr ⟨hmem, by simp [hlen, hlo, hhi]⟩, by simp⟩

/-- **A file within reach is not missed.** -/
theorem Dated.findFrom_isSome (hb : b.Dated) {d : Date} (hd : d.Real) {count : ℕ}
    (hp : p ∈ b.before limit) (hle : p.2.dropLast ≤ [dateName d, hour])
    (hcount : b.foldersBetween p.2.dropLast [dateName d, hour] < count)
    (hgap : ∀ g, b.IsGap g → dateName g < dateName d → dateName g < p.2.headD "") :
    (findFrom b limit count (dateName d) hour).isSome := by
  induction count generalizing d hour with
  | zero => exact absurd hcount (Nat.not_lt_zero _)
  | succ count ih =>
    rw [findFrom_succ]
    cases hfind : (b.before limit).find? fun p => p.2.dropLast = [dateName d, hour] with
    | some p => rfl
    | none =>
      cases hnext : b.nextFolder (dateName d) hour with
      | none =>
        -- the day before would be a gap
        obtain ⟨e, h, he, hhead, hfolder, hmem⟩ :=
          hb.folder_of_files (mem_newestFirst.mp (mem_before.mp hp).1)
        have hne : p.2.dropLast ≠ [dateName d, hour] := by
          simpa using List.find?_eq_none.mp hfind p hp
        have hlt := lt_of_le_of_ne hle hne
        rw [hfolder] at hlt
        obtain ⟨hgapd, hbefore, hfle⟩ := hb.isGap_previous hd he hnext hmem hlt
        exact absurd (hgap _ hgapd hbefore) (not_lt.mpr (hhead ▸ hfle))
      | some next =>
        obtain ⟨date', hour'⟩ := next
        obtain ⟨hmem, hbetween, -⟩ := hb.nextFolder_eq_some hd hnext
        obtain ⟨e, he, rfl⟩ := hb.date_of_hour hmem
        have hback : [dateName e, hour'] < [dateName d, hour] :=
          not_le.mp ((hbetween _ _ hmem).not.mp (lt_irrefl _))
        have hle' := hb.folder_le_next hd hfind hnext hp hle
        have hcount' := foldersBetween_lt hmem rfl hle' hback
        refine ih he hle' (by omega) fun g hg hlt => hgap g hg (hlt.trans_le ?_)
        exact (folder_lt_iff.mp hback).elim le_of_lt fun h => h.1.le

/-- A search finds the newest file if that is within reach. -/
theorem Dated.findFrom_eq_newestBefore (hb : b.Dated) (x : Datetime)
    (hreach : b.WithinReach limit x) :
    findFrom b limit 10 (dateName x.date) x.hourName = b.newestBefore limit := by
  cases hnewest : b.newestBefore limit with
  | none =>
    refine Option.eq_none_iff_forall_ne_some.mpr fun path h => ?_
    obtain ⟨p, hp, -⟩ := hb.findFrom_newest x.real h
    exact notMem_before hnewest hp
  | some path =>
    obtain ⟨p, hp, hmax, rfl⟩ := newestBefore_spec hnewest
    obtain ⟨date, hour, name, heq, -⟩ :=
      hb.eq_of_regular (mem_files.mp (mem_newestFirst.mp (mem_before.mp hp).1)).1
    obtain ⟨hle, hcount, hgap⟩ := hreach date hour name (heq ▸ hnewest)
    have hfolder : p.2.dropLast = [date, hour] := by rw [heq]; rfl
    have hhead : p.2.headD "" = date := by rw [heq]; rfl
    rw [← hfolder] at hle hcount
    rw [← hhead] at hgap
    obtain ⟨found, hfound⟩ := Option.isSome_iff_exists.mp
      (hb.findFrom_isSome x.real hp hle hcount hgap)
    -- what is found is no older, and nothing is newer
    obtain ⟨q, hq, rfl, -, hnewer⟩ := hb.findFrom_newest x.real hfound
    have hsame : q = p := toLex.injective (le_antisymm (hmax q hq) (hnewer p hp hle))
    rw [hfound, hsame]

end Search

/-! ### The answer -/

section Answer

variable {b limit} (parseDatetime : String → ℤ) (x : Datetime)

theorem findFilesFromDatetime_name : findFilesFromDatetime parseDatetime b x.name =
    if isNested b.tree then findFrom b (parseDatetime x.name) 10 (dateName x.date) x.hourName
    else firstBefore (parseDatetime x.name) (b.sortedFiles [] ".mp4") := by
  rw [findFilesFromDatetime]
  simp only [length_name, date_of_name, hour_of_name, Nat.lt_irrefl, if_false]

/-- A recorder's tree without a date folder has no files. -/
theorem Dated.newestFirst_eq_nil (hb : b.Dated) (h : isNested b.tree = false) (ext : String) :
    b.newestFirst ext = [] := by
  refine List.eq_nil_iff_forall_not_mem.mpr fun p hp => ?_
  obtain ⟨f, hour, hf, -, -, hmem⟩ := hb.folder_of_files (mem_newestFirst.mp hp)
  have hdir := (b.tree.parent_mem (p := [dateName f]) hmem).resolve_left (by simp)
  rw [isNested, List.any_eq_false] at h
  refine h (dateName f, .directory) (b.tree.mem_list.mpr hdir) ?_
  rw [decide_eq_true_eq, toList_dateName, List.all_eq_true]
  exact ⟨rfl, hf.length_numeral, Date.digits_numeral f⟩

theorem OnlyFiles.dropLast_eq_nil (hb : b.OnlyFiles) {p : TimedFile} (hp : p ∈ b.before limit) :
    p.2.dropLast = [] := by
  have hmem := (mem_files.mp (mem_newestFirst.mp (mem_before.mp hp).1)).1
  exact (b.tree.rooted _ hmem).resolve_right fun hdir => hb _ hdir rfl

/-- A directory of files is not searched by folders, and all its files are scanned. -/
theorem OnlyFiles.findFilesFromDatetime_eq (hb : b.OnlyFiles) :
    findFilesFromDatetime parseDatetime b x.name = b.newestBefore (parseDatetime x.name) := by
  have hflat : isNested b.tree = false := by
    rw [isNested, List.any_eq_false]
    rintro ⟨name, k⟩ he hdate
    exact hb _ (b.tree.mem_list.mp he) (of_decide_eq_true hdate).1
  rw [findFilesFromDatetime_name, hflat, if_neg Bool.false_ne_true, firstBefore_sortedFiles,
    ← List.head?_filter, newestBefore,
    List.filter_eq_self.mpr fun p hp => decide_eq_true (hb.dropLast_eq_nil hp)]

/-- A recorder's tree is searched from the folder that the time names. -/
theorem Dated.findFilesFromDatetime_eq (hb : b.Dated) :
    findFilesFromDatetime parseDatetime b x.name =
      findFrom b (parseDatetime x.name) 10 (dateName x.date) x.hourName := by
  rw [findFilesFromDatetime_name]
  cases hnested : isNested b.tree with
  | true => rfl
  | false =>
    have hnone : b.before (parseDatetime x.name) = [] := by
      rw [before, hb.newestFirst_eq_nil hnested, List.filter_nil]
    cases hfind : findFrom b (parseDatetime x.name) 10 (dateName x.date) x.hourName with
    | none => rw [if_neg Bool.false_ne_true, firstBefore_sortedFiles, hnone]; rfl
    | some path =>
      obtain ⟨p, hp, -⟩ := hb.findFrom_newest x.real hfind
      rw [hnone] at hp
      cases hp

/-- **The before-time query.** In a recorder's tree or a directory of files, what it returns is
    the newest recording before the time in the folders up to the one that the time names; and
    it returns the newest of the whole tree, or nothing if there is none, whenever that one is
    within reach. -/
theorem findFilesFromDatetime_newest (hb : b.Dated ∨ b.OnlyFiles) :
    (∀ path, findFilesFromDatetime parseDatetime b x.name = some path →
      ∃ p ∈ b.before (parseDatetime x.name), p.2 = path ∧
        p.2.dropLast ≤ [dateName x.date, x.hourName] ∧
        ∀ q ∈ b.before (parseDatetime x.name),
          q.2.dropLast ≤ [dateName x.date, x.hourName] → q.key ≤ p.key) ∧
    (b.WithinReach (parseDatetime x.name) x →
      findFilesFromDatetime parseDatetime b x.name = b.newestBefore (parseDatetime x.name)) := by
  rcases hb with hb | hb
  · rw [hb.findFilesFromDatetime_eq]
    refine ⟨fun path h => hb.findFrom_newest x.real h, fun hreach => ?_⟩
    exact hb.findFrom_eq_newestBefore x hreach
  · rw [hb.findFilesFromDatetime_eq]
    refine ⟨fun path h => ?_, fun _ => rfl⟩
    obtain ⟨p, hp, hmax, rfl⟩ := newestBefore_spec h
    refine ⟨p, hp, rfl, ?_, fun q hq _ => hmax q hq⟩
    rw [hb.dropLast_eq_nil hp]
    exact not_lt.mp (List.not_lt_nil _)

/-- A day with eleven hour folders, of which only the first one has a recording left. -/
def sparseDay : BaseDir where
  tree :=
    { entries :=
        (["20260101"], .directory) ::
          (["20260101", "00", "20260101_000000.mp4"], .regular) ::
          ["00", "01", "02", "03", "04", "05", "06", "07", "08", "09", "10"].map
            fun hour => (["20260101", hour], .directory)
      nodup := by decide
      nonroot := by decide
      rooted := by decide }
  lastWriteTime _ := 1767225660

theorem dated_sparseDay : sparseDay.Dated where
  date {date k} h := by
    have hcase : date = "20260101" ∧ k = .directory := by simpa [sparseDay] using h
    obtain ⟨rfl, rfl⟩ := hcase
    exact ⟨rfl, ⟨2026, 1, 1⟩, by constructor <;> decide, by decide⟩
  hour {date hour k} h := by
    have hdigits : ∀ hour ∈ ["00", "01", "02", "03", "04", "05", "06", "07", "08", "09", "10"],
        hour.toList.length = 2 ∧ hour.toList.all (·.isDigit) = true := by decide
    rcases List.mem_cons.mp h with heq | h
    · cases heq
    rcases List.mem_cons.mp h with heq | h
    · cases heq
    obtain ⟨_, hmem, heq⟩ := List.mem_map.mp h
    cases heq
    exact ⟨rfl, (hdigits hour hmem).1, List.all_eq_true.mp (hdigits hour hmem).2⟩
  file h := by
    rintro rfl
    simp [sparseDay] at h
  increasing _ _ _ _ := le_rfl

/-- Half past an hour of that day. -/
def halfPast (hour : ℕ) (h : hour < 24) : Datetime where
  date := ⟨2026, 1, 1⟩
  hour := hour
  minute := 30
  second := 0
  real := by constructor <;> decide
  hour_lt := h
  minute_lt := by decide
  second_lt := by decide

/-- At half past nine, in UTC, the recording is nine folders back. -/
theorem findFilesFromDatetime_halfPastNine :
    findFilesFromDatetime (fun _ => 1767259800) sparseDay (halfPast 9 (by decide)).name =
      sparseDay.newestBefore 1767259800 := by
  refine (findFilesFromDatetime_newest _ _ (.inl dated_sparseDay)).2 ?_
  intro date hour name h
  have hnewest : sparseDay.newestBefore 1767259800
      = some ["20260101", "00", "20260101_000000.mp4"] := by decide +kernel
  rw [hnewest] at h
  cases h
  exact ⟨by decide +kernel, by decide +kernel, fun _ _ hlt => hlt⟩

/-- At half past ten it is one more, and the search stops before. -/
theorem halfPastTen_not_found :
    ¬ ∀ (parseDatetime : String → ℤ) (b : BaseDir) (x : Datetime), b.Dated ∨ b.OnlyFiles →
      findFilesFromDatetime parseDatetime b x.name = b.newestBefore (parseDatetime x.name) := by
  intro hexact
  exact absurd (hexact (fun _ => 1767263400) sparseDay (halfPast 10 (by decide))
    (.inl dated_sparseDay)) (by decide +kernel)

end Answer

end BaseDir

end PiWebrtc.Recorder
