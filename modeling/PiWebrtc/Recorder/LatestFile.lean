import PiWebrtc.Recorder.OlderFiles

namespace PiWebrtc.Recorder

open FileTree Decimal Calendar

/-!
# The latest complete recording

The newest file is still being written, so `FindLatestCompleteFile` looks for the second newest.
It collects the files of the latest hour folder of the latest day, and, while there are fewer
than two, those of the hour folder before it and then those of the latest hour folder of the day
before.  It goes no further back than that.

`findLatestCompleteFile_eq_iff` says that it finds the file exactly if the two newest files lie
in these three folders.
-/

section Search

variable (b : BaseDir) (ext : String)

/-- The files of the latest hour folder before `hour`, if there are any. -/
def previousHourFiles (date hour : String) : List TimedFile :=
  (previousHour b.tree [date] hour).elim [] fun prevHour => b.getFiles [date, prevHour] ext

/-- The latest hour folder of the day before; the folder of that day, if it has none. -/
def previousDateFolder (date : String) : List String :=
  getPreviousDate date :: (findLatestSubDir b.tree [getPreviousDate date]).toList

/-- `FindLatestCompleteFile`; `none` is the empty path. -/
def findLatestCompleteFile : Option (List String) :=
  match findLatestSubDir b.tree [] with
  | none => ((b.sortedFiles [] ext)[0]?).map Prod.snd
  | some date =>
    match findLatestSubDir b.tree [date] with
    | none => none
    | some hour =>
      let files := b.getFiles [date, hour] ext
      let files := if files.length < 2 then files ++ previousHourFiles b ext date hour else files
      let files :=
        if files.length < 2 then files ++ b.getFiles (previousDateFolder b date) ext else files
      ((Descending.sort TimedFile.key files)[1]?).map Prod.snd

end Search

namespace BaseDir

variable (b : BaseDir)

/-- The second newest file of the whole tree. -/
def secondNewest (ext : String) : Option (List String) :=
  ((b.newestFirst ext)[1]?).map Prod.snd

/-- The latest hour folder of the latest day, the one before it, and the latest one of the day
    before. -/
def latestFolders : List (List String) :=
  match findLatestSubDir b.tree [] with
  | none => []
  | some date =>
    match findLatestSubDir b.tree [date] with
    | none => []
    | some hour =>
      [date, hour] :: (previousHour b.tree [date] hour).toList.map ([date, ·])
        ++ [previousDateFolder b date]

/-- The condition: these folders hold the two newest files. -/
def TwoNewestLatest (ext : String) : Prop :=
  ∀ p ∈ (b.newestFirst ext).take 2, p.2.dropLast ∈ b.latestFolders

instance (ext : String) : Decidable (b.TwoNewestLatest ext) :=
  inferInstanceAs (Decidable (∀ p ∈ (b.newestFirst ext).take 2, p.2.dropLast ∈ b.latestFolders))

/-! ### What is collected -/

section Collected

variable {b} {ext date hour : String}

/-- The files of some folders, sorted, are picked from the files of the whole tree. -/
theorem sort_flatMap_getFiles {folders : List (List String)} (hfolders : folders.Nodup) :
    Descending.sort TimedFile.key (folders.flatMap (b.getFiles · ext))
      = (b.newestFirst ext).filter fun p => p.2.dropLast ∈ folders := by
  refine sort_eq_filter ?_ fun p => ?_
  · refine List.nodup_flatMap.mpr ⟨fun _ _ => nodup_getFiles, hfolders.imp fun hne p hp hp' => ?_⟩
    exact hne ((mem_getFiles.mp hp).2.symm.trans (mem_getFiles.mp hp').2)
  · simp only [List.mem_flatMap, mem_getFiles, decide_eq_true_eq]
    exact ⟨fun ⟨_, hmem, hp, heq⟩ => ⟨hp, heq ▸ hmem⟩, fun ⟨hp, hmem⟩ => ⟨_, hmem, hp, rfl⟩⟩

theorem length_newestFirst : (b.newestFirst ext).length = (b.files ext).length :=
  List.length_insertionSort _ _

/-- The name of a date folder is looked at. -/
theorem isDateOrHour_dateName {d : Date} (hd : d.Real) : isDateOrHour (dateName d) = true := by
  rw [isDateOrHour, decide_eq_true_eq, toList_dateName, List.all_eq_true]
  exact ⟨.inl hd.length_numeral, Date.digits_numeral d⟩

/-- Folders from one on that hold two files hold the two newest. -/
theorem Dated.take_two_mem (hb : b.Dated) {folders : List (List String)} {least : List String}
    (hleast : ∀ p ∈ b.newestFirst ext, p.2.dropLast ∈ folders ↔ least ≤ p.2.dropLast)
    (htwo : 2 ≤ ((b.newestFirst ext).filter fun p => p.2.dropLast ∈ folders).length) :
    ∀ p ∈ (b.newestFirst ext).take 2, p.2.dropLast ∈ folders := by
  have hfilter : ((b.newestFirst ext).filter fun p => p.2.dropLast ∈ folders)
      = (b.newestFirst ext).filter fun p => least ≤ p.2.dropLast :=
    List.filter_congr fun p hp => decide_eq_decide.mpr (hleast p hp)
  rw [hfilter] at htwo
  have htake := Descending.take_filter
    ((hb.pairwise_folder ext).imp fun hle hfolder => by
      rw [decide_eq_true_eq] at hfolder ⊢
      exact hfolder.trans hle) htwo
  intro p hp
  rw [← htake] at hp
  obtain ⟨hmem, hkeep⟩ := List.mem_filter.mp (List.mem_of_mem_take hp)
  exact (hleast p hmem).mpr (of_decide_eq_true hkeep)

/-- No file lies in a later folder than the latest one. -/
theorem Dated.folder_le_latest (hb : b.Dated) (hdate : findLatestSubDir b.tree [] = some date)
    (hhour : findLatestSubDir b.tree [date] = some hour) {p : TimedFile}
    (hp : p ∈ b.newestFirst ext) : p.2.dropLast ≤ [date, hour] := by
  obtain ⟨f, h, hf, -, hfolder, hmem⟩ := hb.folder_of_files (mem_newestFirst.mp hp)
  have hdir := (b.tree.parent_mem (p := [dateName f]) hmem).resolve_left (by simp)
  rw [hfolder, folder_le_iff]
  refine (lt_or_eq_of_le ?_).imp_right fun heq => ⟨heq, ?_⟩
  · exact (latestDir_eq_some hdate).2.2 _ hdir (isDateOrHour_dateName hf)
  · rw [heq] at hmem
    exact (latestDir_eq_some hhour).2.2 _ hmem (hb.isDateOrHour hmem)

/-- Files in the latest folder. -/
theorem Dated.mem_latest_iff (hb : b.Dated) (hdate : findLatestSubDir b.tree [] = some date)
    (hhour : findLatestSubDir b.tree [date] = some hour) {p : TimedFile}
    (hp : p ∈ b.newestFirst ext) : p.2.dropLast ∈ [[date, hour]] ↔ [date, hour] ≤ p.2.dropLast := by
  rw [List.mem_singleton]
  exact ⟨fun heq => heq.ge, fun hle => le_antisymm (hb.folder_le_latest hdate hhour hp) hle⟩

/-- Files in the latest folder and the one of the hour before. -/
theorem Dated.mem_latestTwo_iff (hb : b.Dated) (hdate : findLatestSubDir b.tree [] = some date)
    (hhour : findLatestSubDir b.tree [date] = some hour) {prevHour : String}
    (hprev : previousHour b.tree [date] hour = some prevHour) {p : TimedFile}
    (hp : p ∈ b.newestFirst ext) :
    p.2.dropLast ∈ [[date, hour], [date, prevHour]] ↔ [date, prevHour] ≤ p.2.dropLast := by
  obtain ⟨f, h, -, -, hfolder, hmem⟩ := hb.folder_of_files (mem_newestFirst.mp hp)
  have hlatest := hb.mem_latest_iff hdate hhour hp
  rw [List.mem_singleton, hfolder] at hlatest
  rw [hfolder, List.mem_cons, List.mem_singleton, le_iff_eq_or_lt, after_previousHour hprev hmem,
    hlatest, or_comm, eq_comm]

/-- The folder of the day before is none of those of the date. -/
theorem Dated.previousDateFolder_ne (hb : b.Dated)
    (hdate : findLatestSubDir b.tree [] = some date) (hour : String) :
    previousDateFolder b date ≠ [date, hour] := by
  obtain ⟨-, d, hd, rfl⟩ := hb.date (latestDir_eq_some hdate).1
  intro heq
  have hname : String.ofList (putTime d.previous) = dateName d :=
    (getPreviousDate_dateName hd).symm.trans (List.cons.inj heq).1
  have hsame := eq_of_putTime_eq (Date.previous_month hd).2 (Date.previous_day hd) hd hname
  exact (Date.number_previous_lt hd).ne (congrArg Date.number hsame)

/-- The second newest file of some folders. -/
def secondIn (b : BaseDir) (ext : String) (folders : List (List String)) : Option (List String) :=
  ((Descending.sort TimedFile.key (folders.flatMap (b.getFiles · ext)))[1]?).map Prod.snd

/-- It is the second newest of all exactly if the folders hold the two newest. -/
theorem secondIn_eq_iff (hfiles : 2 ≤ (b.files ext).length) {folders : List (List String)}
    (hfolders : folders.Nodup) : b.secondIn ext folders = b.secondNewest ext ↔
      ∀ p ∈ (b.newestFirst ext).take 2, p.2.dropLast ∈ folders := by
  have hpaths : ((b.newestFirst ext).map Prod.snd).Nodup := by
    refine List.Nodup.map_on (fun p hp q hq heq => Prod.ext ?_ heq)
      ((List.perm_insertionSort _ _).nodup_iff.mpr nodup_files)
    rw [(mem_files.mp (mem_newestFirst.mp hp)).2.2, (mem_files.mp (mem_newestFirst.mp hq)).2.2, heq]
  rw [secondIn, secondNewest, sort_flatMap_getFiles hfolders,
    Descending.second_filter_eq_iff hpaths (length_newestFirst ▸ hfiles)]
  simp only [decide_eq_true_eq]

/-- The latest hour folder of the latest day, and the one before it. -/
def latestHours (b : BaseDir) (date hour : String) : List (List String) :=
  [date, hour] :: (previousHour b.tree [date] hour).toList.map ([date, ·])

theorem latestFolders_eq (hdate : findLatestSubDir b.tree [] = some date)
    (hhour : findLatestSubDir b.tree [date] = some hour) :
    b.latestFolders = b.latestHours date hour ++ [previousDateFolder b date] := by
  rw [latestFolders, hdate]
  simp only [hhour, latestHours]

theorem flatMap_latestHours : (b.latestHours date hour).flatMap (b.getFiles · ext)
    = b.getFiles [date, hour] ext ++ previousHourFiles b ext date hour := by
  rw [latestHours, List.flatMap_cons, previousHourFiles]
  cases previousHour b.tree [date] hour with
  | none => rfl
  | some prevHour => exact congrArg _ (List.flatMap_singleton ..)

/-- The folders that the search comes to. -/
theorem findLatestCompleteFile_eq (hdate : findLatestSubDir b.tree [] = some date)
    (hhour : findLatestSubDir b.tree [date] = some hour) :
    findLatestCompleteFile b ext = b.secondIn ext
      (if (b.getFiles [date, hour] ext).length < 2 then
        if ((b.latestHours date hour).flatMap (b.getFiles · ext)).length < 2 then b.latestFolders
        else b.latestHours date hour
      else [[date, hour]]) := by
  rw [findLatestCompleteFile, hdate]
  simp only [hhour, ← flatMap_latestHours]
  by_cases h1 : (b.getFiles [date, hour] ext).length < 2
  · simp only [if_pos h1]
    by_cases h2 : ((b.latestHours date hour).flatMap (b.getFiles · ext)).length < 2
    · rw [if_pos h2, if_pos h2, secondIn, latestFolders_eq hdate hhour, List.flatMap_append,
        List.flatMap_singleton]
    · rw [if_neg h2, if_neg h2, secondIn]
  · simp only [if_neg h1]
    rw [secondIn, List.flatMap_singleton]

theorem Dated.nodup_latestFolders (hb : b.Dated) (hdate : findLatestSubDir b.tree [] = some date)
    (hhour : findLatestSubDir b.tree [date] = some hour) : b.latestFolders.Nodup := by
  rw [latestFolders_eq hdate hhour, List.nodup_append, latestHours]
  have hne := hb.previousDateFolder_ne hdate
  cases hprev : previousHour b.tree [date] hour with
  | none => simp [(hne hour).symm]
  | some prevHour =>
    have hlt := of_decide_eq_true (latestDir_eq_some hprev).2.1
    simp [(hne hour).symm, (hne prevHour).symm, hlt.ne']

/-- Folders of the latest day that hold two files hold the two newest. -/
theorem Dated.take_two_mem_latestHours (hb : b.Dated)
    (hdate : findLatestSubDir b.tree [] = some date)
    (hhour : findLatestSubDir b.tree [date] = some hour) {folders : List (List String)}
    (hfolders : folders = [[date, hour]] ∨ folders = b.latestHours date hour)
    (hnodup : folders.Nodup) (htwo : 2 ≤ (folders.flatMap (b.getFiles · ext)).length) :
    ∀ p ∈ (b.newestFirst ext).take 2, p.2.dropLast ∈ folders := by
  have hlen := List.length_insertionSort (fun p q => TimedFile.key q ≤ TimedFile.key p)
    (folders.flatMap (b.getFiles · ext))
  rw [← hlen, ← Descending.sort, sort_flatMap_getFiles hnodup] at htwo
  rcases hfolders with rfl | rfl
  · exact hb.take_two_mem (fun p hp => hb.mem_latest_iff hdate hhour hp) htwo
  · cases hprev : previousHour b.tree [date] hour with
    | none =>
      rw [latestHours, hprev] at htwo ⊢
      exact hb.take_two_mem (fun p hp => hb.mem_latest_iff hdate hhour hp) htwo
    | some prevHour =>
      rw [latestHours, hprev] at htwo ⊢
      exact hb.take_two_mem (fun p hp => hb.mem_latestTwo_iff hdate hhour hprev hp) htwo

/-- **In a tree whose latest day has an hour folder**, the search is right exactly if the two
    newest files lie in the latest folders. -/
theorem Dated.secondNewest_iff_of_hour (hb : b.Dated) (hfiles : 2 ≤ (b.files ext).length)
    (hdate : findLatestSubDir b.tree [] = some date)
    (hhour : findLatestSubDir b.tree [date] = some hour) :
    findLatestCompleteFile b ext = b.secondNewest ext ↔ b.TwoNewestLatest ext := by
  have hall := hb.nodup_latestFolders hdate hhour
  have hfolders := latestFolders_eq hdate hhour
  have htwo : (b.latestHours date hour).Nodup := (hfolders ▸ hall).of_append_left
  -- the search may stop early, with two files of the latest day
  have hstop : ∀ folders, folders = [[date, hour]] ∨ folders = b.latestHours date hour →
      folders ⊆ b.latestFolders → folders.Nodup →
      ¬ (folders.flatMap (b.getFiles · ext)).length < 2 →
      (b.secondIn ext folders = b.secondNewest ext ↔ b.TwoNewestLatest ext) := by
    intro folders hwhich hsub hnodup hlen
    have hmem := hb.take_two_mem_latestHours hdate hhour hwhich hnodup (not_lt.mp hlen)
    exact iff_of_true ((secondIn_eq_iff hfiles hnodup).mpr hmem) fun p hp => hsub (hmem p hp)
  rw [findLatestCompleteFile_eq hdate hhour]
  split_ifs with h1 h2
  · exact secondIn_eq_iff hfiles hall
  · exact hstop _ (.inr rfl) (hfolders ▸ List.subset_append_left ..) htwo h2
  · refine hstop _ (.inl rfl) ?_ (List.nodup_singleton _) (by rwa [List.flatMap_singleton])
    rw [hfolders, latestHours]
    exact List.cons_subset.mpr ⟨List.mem_cons_self, List.nil_subset _⟩

end Collected

/-! ### The answer -/

section Answer

variable {b} {ext : String}

/-- A recorder's tree with a file has a date folder. -/
theorem Dated.findLatestSubDir_isSome (hb : b.Dated) {p : TimedFile}
    (hp : p ∈ b.newestFirst ext) : ∃ date, findLatestSubDir b.tree [] = some date := by
  obtain ⟨f, h, hf, -, -, hmem⟩ := hb.folder_of_files (mem_newestFirst.mp hp)
  have hdir := (b.tree.parent_mem (p := [dateName f]) hmem).resolve_left (by simp)
  refine Option.ne_none_iff_exists'.mp fun hnone => ?_
  exact Bool.false_ne_true ((latestDir_eq_none hnone hdir).symm.trans (isDateOrHour_dateName hf))

/-- **The latest-file query, exactly.** In a recorder's tree with two files at least, it returns
    the second newest of them if and only if the two newest lie in the latest hour folder of the
    latest day, the one before it, and the latest one of the day before. -/
theorem findLatestCompleteFile_eq_iff (hb : b.Dated) (hfiles : 2 ≤ (b.files ext).length) :
    findLatestCompleteFile b ext = b.secondNewest ext ↔ b.TwoNewestLatest ext := by
  have hlen : 1 < (b.newestFirst ext).length := length_newestFirst ▸ hfiles
  have hfirst : (b.newestFirst ext)[0] ∈ b.newestFirst ext := List.getElem_mem _
  obtain ⟨date, hdate⟩ := hb.findLatestSubDir_isSome hfirst
  cases hhour : findLatestSubDir b.tree [date] with
  | some hour => exact hb.secondNewest_iff_of_hour hfiles hdate hhour
  | none =>
    -- a latest day without an hour folder: nothing is found
    have hnone : findLatestCompleteFile b ext = none := by
      rw [findLatestCompleteFile, hdate]
      simp only [hhour]
    have hempty : b.latestFolders = [] := by
      rw [latestFolders, hdate]
      simp only [hhour]
    refine iff_of_false (fun heq => ?_) fun hall => ?_
    · rw [hnone, secondNewest, List.getElem?_eq_getElem hlen] at heq
      nomatch heq
    · have hin := hall (b.newestFirst ext)[0] ?_
      · rw [hempty] at hin
        exact List.not_mem_nil hin
      · exact List.mem_take_iff_getElem.mpr ⟨0, by omega, rfl⟩

/-- With two recordings on the third day, the missing day before does no harm. -/
theorem findLatestCompleteFile_missingDay :
    findLatestCompleteFile missingDay ".mp4" = missingDay.secondNewest ".mp4" :=
  (findLatestCompleteFile_eq_iff dated_missingDay (by decide)).mpr (by decide +kernel)

/-- One recording on the first and one on the third day of a year. -/
def loneFiles : BaseDir :=
  { missingDay with
    tree := missingDay.tree.removeAll ["20260103", "10", "20260103_100100.mp4"] }

theorem dated_loneFiles : loneFiles.Dated where
  date h := dated_missingDay.date (missingDay.tree.mem_removeAll.mp h).1
  hour h := dated_missingDay.hour (missingDay.tree.mem_removeAll.mp h).1
  file h := dated_missingDay.file (missingDay.tree.mem_removeAll.mp h).1
  increasing hp hq := dated_missingDay.increasing (missingDay.tree.mem_removeAll.mp hp).1
    (missingDay.tree.mem_removeAll.mp hq).1

/-- The search finds too few files, although there are two. -/
theorem loneFiles_not_found :
    ¬ ∀ (b : BaseDir) (ext : String), b.Dated → 2 ≤ (b.files ext).length →
      findLatestCompleteFile b ext = b.secondNewest ext := by
  intro hexact
  exact absurd (hexact loneFiles ".mp4" dated_loneFiles (by decide +kernel)) (by decide +kernel)

end Answer

end BaseDir

end PiWebrtc.Recorder
