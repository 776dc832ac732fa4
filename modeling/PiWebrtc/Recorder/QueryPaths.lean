import PiWebrtc.Lib.FilePath
import PiWebrtc.Recorder.BeforeTime

namespace PiWebrtc.Recorder

open FileTree FilePath

/-!
# Where the queries look

The queries on the whole disk, with the paths that they build: `FindOlderFiles` takes the path of
a file from the client and goes on to the folders beside that of the file, and
`FindFilesFromDatetime` cuts the names of the first folder out of what the client sends.  Nothing
compares these paths with the directory that is to be searched.

* `findLatestCompleteFile_confined` — the query without a parameter stays in the directory.
* `findOlderFiles_confined`, `findFilesFromDatetime_confined` — so do the other two, if the folder
  that they start with and the two above it lie there.

Strings are strings of bytes: a character stands for one byte.  `GetPreviousDate` and
`ParseDatetime` are parameters here, since a client can have them read any name.
-/

/-- The files of the machine: the tree from the root directory, and when each file was last
    written. -/
structure Disk where
  tree : Dir
  lastWriteTime : List String → ℤ
  plain : ∀ e ∈ tree.entries, ∀ x ∈ e.1, Plain x

/-- `path::extension`. -/
def fileExtension (p : Path) : String := if filename p = ".." then "" else extension (filename p)

namespace Disk

variable (d : Disk) (cwd : List String) (previousDate : String → String)

/-- `fs::exists`. -/
def pathExists (p : Path) : Bool := (status d.tree cwd p).isSome

/-- `fs::equivalent`; where a path leads nowhere, it is an error. -/
def equivalent (p q : Path) : Bool :=
  match status d.tree cwd p, status d.tree cwd q with
  | some (loc, _), some (loc', _) => loc = loc'
  | _, _ => false

/-- `GetFiles`; the path of an entry is the path of the directory and its name. -/
def getFiles (p : Path) (ext : String) : List TimedFile :=
  match directory d.tree cwd p with
  | some loc => (d.tree.list loc).filterMap fun e =>
      if e.2 = .regular ∧ extension e.1 = ext
      then some (d.lastWriteTime (loc ++ [e.1]), join p [e.1]) else none
  | none => []

/-- `std::sort` of what `GetFiles` found, by `std::greater<>`. -/
def sortedFiles (p : Path) (ext : String) : List TimedFile :=
  Descending.sort TimedFile.key (d.getFiles cwd p ext)

/-- `FindLatestSubDir`; `none` is the empty name. -/
def findLatestSubDir (p : Path) : Option String :=
  (directory d.tree cwd p).bind (Recorder.findLatestSubDir d.tree)

/-- The latest hour folder of a date before `hour`. -/
def previousHour (datePath : Path) (hour : String) : Option String :=
  (directory d.tree cwd datePath).bind (Recorder.previousHour d.tree · hour)

/-- `FindLatestCompleteFile`; `none` is the empty path. -/
def findLatestCompleteFile (base : Path) (ext : String) : Option Path :=
  match d.findLatestSubDir cwd base with
  | none => ((d.sortedFiles cwd base ext)[0]?).map Prod.snd
  | some latestDate =>
    let datePath := join base [latestDate]
    match d.findLatestSubDir cwd datePath with
    | none => none
    | some latestHour =>
      let files := d.getFiles cwd (join datePath [latestHour]) ext
      let files :=
        if files.length < 2 then
          files ++ (d.previousHour cwd datePath latestHour).elim [] fun prevHour =>
            d.getFiles cwd (join datePath [prevHour]) ext
        else files
      let files :=
        if files.length < 2 then
          let prevDatePath := join base [previousDate latestDate]
          files ++ d.getFiles cwd
            (join prevDatePath (d.findLatestSubDir cwd prevDatePath).toList) ext
        else files
      ((Descending.sort TimedFile.key files)[1]?).map Prod.snd

/-- The loop of `FindOlderFiles`; `none` when the fuel is used up. -/
def findBackwards (rootPath : Path) (ext : String) (time : ℤ) (num : ℕ) :
    ℕ → (datePath hourPath : Path) → List Path → Option (List Path)
  | 0, _, _, _ => none
  | fuel + 1, datePath, hourPath, result =>
    if result.length < num then
      match pushOlder time num (d.sortedFiles cwd hourPath ext) result with
      | (true, result) => some result
      | (false, result) =>
        match d.previousHour cwd datePath (filename hourPath) with
        | some prevHour =>
          findBackwards rootPath ext time num fuel datePath (join datePath [prevHour]) result
        | none =>
          let datePath := join rootPath [previousDate (filename datePath)]
          if d.pathExists cwd datePath then
            match d.findLatestSubDir cwd datePath with
            | some latestHour =>
              findBackwards rootPath ext time num fuel datePath (join datePath [latestHour]) result
            | none => some result
          else some result
    else some result

/-- `FindOlderFiles`; `none` stands for a search that has not ended. -/
def findOlderFiles (base file : Path) (num fuel : ℕ) : Option (List Path) :=
  match status d.tree cwd file with
  | none => some []
  | some (loc, _) =>
    let time := d.lastWriteTime loc
    if d.equivalent cwd (parentPath file) base then
      some (pushOlder time num (d.sortedFiles cwd base (fileExtension file)) []).2
    else
      let hourPath := parentPath file
      let datePath := parentPath hourPath
      d.findBackwards cwd previousDate (parentPath datePath) (fileExtension file) time num fuel
        datePath hourPath []

/-- A folder of the root has a name that matches `^[0-9]{8}$`. -/
def isNested (root : Path) : Bool :=
  match directory d.tree cwd root with
  | some loc => (d.tree.list loc).any fun e =>
      e.2 = .directory ∧ e.1.toList.length = 8 ∧ e.1.toList.all (·.isDigit)
  | none => false

/-- The loop of `FindFilesFromDatetime`, with the number of folders left. -/
def findFrom (limit : ℤ) : ℕ → (hourPath : Path) → Option Path
  | 0, _ => none
  | count + 1, hourPath =>
    match firstBefore limit (d.sortedFiles cwd hourPath ".mp4") with
    | some p => some p
    | none =>
      let datePath := parentPath hourPath
      match d.previousHour cwd datePath (filename hourPath) with
      | some prevHour => findFrom limit count (join datePath [prevHour])
      | none =>
        let datePath := join (parentPath datePath) [previousDate (filename datePath)]
        if d.pathExists cwd datePath then
          match d.findLatestSubDir cwd datePath with
          | some latestHour => findFrom limit count (join datePath [latestHour])
          | none => none
        else none

/-- The folder that a time names. -/
def hourPath (root : Path) (basename : String) : Path :=
  let date := .ofList (basename.toList.take 8)
  let hour := .ofList ((basename.toList.drop 9).take 2)
  join (join root (parse date)) (parse hour)

/-- `FindFilesFromDatetime`; `none` is the empty path. -/
def findFilesFromDatetime (parseDatetime : String → ℤ) (root : Path) (basename : String) :
    Option Path :=
  if basename.toList.length < 15 then none
  else
    let limit := parseDatetime basename
    if d.isNested cwd root then d.findFrom cwd previousDate limit 10 (hourPath root basename)
    else firstBefore limit (d.sortedFiles cwd root ".mp4")

end Disk

/-! ### Staying in a directory -/

/-- The path leads to the directory or below it. -/
def Within (cwd : List String) (base p : Path) : Prop := location cwd base <+: location cwd p

instance (cwd : List String) (base p : Path) : Decidable (Within cwd base p) :=
  inferInstanceAs (Decidable (location cwd base <+: location cwd p))

/-- The path leads below the directory. -/
def Confined (cwd : List String) (base p : Path) : Prop :=
  Below (location cwd base) (location cwd p)

/-- A folder in the directory, like the two above it. -/
structure FolderWithin (cwd : List String) (base hourPath : Path) : Prop where
  hour : Within cwd base hourPath
  date : Within cwd base (parentPath hourPath)
  root : Within cwd base (parentPath (parentPath hourPath))

/-- The directory can be opened where the file can. -/
def SpeltOn (cwd : List String) (base file : Path) : Prop :=
  ".." ∉ base ∨ SpeltAlong cwd base file

/-- The condition on the file that `FindOlderFiles` is given: there is none, or it lies right in the
    directory, or its folder and the two above it lie in the directory. -/
def OlderWithin (cwd : List String) (base file : Path) : Prop :=
  file = [] ∨
    (base ≠ [] ∧ SpeltOn cwd base file ∧ location cwd (parentPath file) = location cwd base) ∨
    FolderWithin cwd base (parentPath file)

/-- The condition on the time that `FindFilesFromDatetime` is given: it is too short to be one, or
    the folder that it names and the two above it lie in the directory. -/
def DatetimeWithin (cwd : List String) (base : Path) (basename : String) : Prop :=
  basename.toList.length < 15 ∨ FolderWithin cwd base (Disk.hourPath base basename)

section Within

variable {cwd : List String} {base p : Path} {x : String}

theorem Within.self : Within cwd base base := List.prefix_refl _

theorem Within.confined_join (h : Within cwd base p) (hx : Plain x) :
    Confined cwd base (join p [x]) := by
  rw [Confined, location_join hx]
  refine ⟨List.IsPrefix.trans h (List.prefix_append _ [x]), fun heq => ?_⟩
  have hlen := h.length_le
  rw [← heq, List.length_append, List.length_singleton] at hlen
  omega

theorem Within.join (h : Within cwd base p) (hx : Plain x) : Within cwd base (join p [x]) :=
  (h.confined_join hx).1

end Within

/-! ### What the queries come to -/

namespace Disk

section Folders

variable {d : Disk} {cwd : List String} {previousDate : String → String}
  {p rootPath datePath hourPath datePath' hourPath' : Path} {x ext : String}

/-- What is found in a folder is a name in it. -/
theorem mem_getFiles {f : TimedFile} (h : f ∈ d.getFiles cwd p ext) :
    ∃ x, Plain x ∧ f.2 = join p [x] := by
  unfold getFiles at h
  split at h
  case h_1 loc _ =>
    obtain ⟨⟨x, k⟩, hmem, hf⟩ := List.mem_filterMap.mp h
    split_ifs at hf
    obtain rfl := Option.some.inj hf
    have hentry := d.tree.mem_list.mp hmem
    exact ⟨x, d.plain _ hentry x (List.mem_append_right _ (List.mem_singleton_self x)), rfl⟩
  case h_2 => cases h

theorem confined_getFiles {base : Path} (h : Within cwd base p) {f : TimedFile}
    (hf : f ∈ d.getFiles cwd p ext) : Confined cwd base f.2 := by
  obtain ⟨x, hx, heq⟩ := mem_getFiles hf
  exact heq ▸ h.confined_join hx

theorem confined_sortedFiles {base : Path} (h : Within cwd base p) {f : TimedFile}
    (hf : f ∈ d.sortedFiles cwd p ext) : Confined cwd base f.2 :=
  confined_getFiles h (Descending.mem_sort.mp hf)

/-- A folder that a scan ends with has a plain name. -/
theorem plain_latestDir {loc : List String} {keep : String → Bool}
    (h : latestDir d.tree loc keep = some x) : Plain x :=
  d.plain _ (latestDir_eq_some h).1 x (List.mem_append_right _ (List.mem_singleton_self x))

theorem plain_findLatestSubDir (h : d.findLatestSubDir cwd p = some x) : Plain x := by
  obtain ⟨loc, -, hx⟩ := Option.bind_eq_some_iff.mp h
  exact plain_latestDir hx

theorem plain_previousHour {hour : String} (h : d.previousHour cwd p hour = some x) : Plain x := by
  obtain ⟨loc, -, hx⟩ := Option.bind_eq_some_iff.mp h
  exact plain_latestDir hx

variable (d cwd previousDate) in
/-- The folder that both loops go on with, and its date folder. -/
def nextFolder (rootPath datePath hourPath : Path) : Option (Path × Path) :=
  match d.previousHour cwd datePath (filename hourPath) with
  | some prevHour => some (datePath, join datePath [prevHour])
  | none =>
    let datePath := join rootPath [previousDate (filename datePath)]
    if d.pathExists cwd datePath then
      (d.findLatestSubDir cwd datePath).map fun latestHour => (datePath, join datePath [latestHour])
    else none

theorem findBackwards_succ {time : ℤ} {num fuel : ℕ} {result : List Path} :
    d.findBackwards cwd previousDate rootPath ext time num (fuel + 1) datePath hourPath result =
      if result.length < num then
        match pushOlder time num (d.sortedFiles cwd hourPath ext) result with
        | (true, result) => some result
        | (false, result) =>
          match d.nextFolder cwd previousDate rootPath datePath hourPath with
          | some (datePath, hourPath) =>
            d.findBackwards cwd previousDate rootPath ext time num fuel datePath hourPath result
          | none => some result
      else some result := by
  rw [findBackwards, nextFolder]
  split_ifs
  · rcases pushOlder time num (d.sortedFiles cwd hourPath ext) result with ⟨full, result'⟩
    cases full with
    | true => rfl
    | false =>
      cases d.previousHour cwd datePath (filename hourPath) with
      | some prevHour => rfl
      | none =>
        dsimp only
        split_ifs
        · cases d.findLatestSubDir cwd (join rootPath [previousDate (filename datePath)]) <;> rfl
        · rfl
  · rfl

theorem findFrom_succ {limit : ℤ} {count : ℕ} :
    d.findFrom cwd previousDate limit (count + 1) hourPath =
      match firstBefore limit (d.sortedFiles cwd hourPath ".mp4") with
      | some p => some p
      | none =>
        match d.nextFolder cwd previousDate (parentPath (parentPath hourPath))
          (parentPath hourPath) hourPath with
        | some (_, hourPath) => d.findFrom cwd previousDate limit count hourPath
        | none => none := by
  rw [findFrom, nextFolder]
  cases firstBefore limit (d.sortedFiles cwd hourPath ".mp4") with
  | some p => rfl
  | none =>
    dsimp only
    cases d.previousHour cwd (parentPath hourPath) (filename hourPath) with
    | some prevHour => rfl
    | none =>
      dsimp only
      split_ifs
      · cases d.findLatestSubDir cwd (join (parentPath (parentPath hourPath))
          [previousDate (filename (parentPath hourPath))]) <;> rfl
      · rfl

/-- The next folder lies in the same date folder, or in one beside it. -/
theorem nextFolder_eq_some (hdate : ∀ s, Plain (previousDate s))
    (h : d.nextFolder cwd previousDate rootPath datePath hourPath = some (datePath', hourPath')) :
    (∃ x, Plain x ∧ hourPath' = join datePath' [x]) ∧
      (datePath' = datePath ∨ ∃ x, Plain x ∧ datePath' = join rootPath [x]) := by
  unfold nextFolder at h
  split at h
  case h_1 prevHour hprev =>
    obtain ⟨rfl, rfl⟩ := Prod.mk.inj (Option.some.inj h)
    exact ⟨⟨prevHour, plain_previousHour hprev, rfl⟩, .inl rfl⟩
  case h_2 =>
    obtain ⟨-, h⟩ := Option.ite_none_right_eq_some.mp h
    obtain ⟨latestHour, hlatest, heq⟩ := Option.map_eq_some_iff.mp h
    obtain ⟨rfl, rfl⟩ := Prod.mk.inj heq
    exact ⟨⟨latestHour, plain_findLatestSubDir hlatest, rfl⟩, .inr ⟨_, hdate _, rfl⟩⟩

/-- The loop that takes the folders above from the path finds them again. -/
theorem nextFolder_parents (hdate : ∀ s, Plain (previousDate s)) (hformed : Formed hourPath)
    (h : d.nextFolder cwd previousDate (parentPath (parentPath hourPath)) (parentPath hourPath)
      hourPath = some (datePath', hourPath')) :
    Formed hourPath' ∧ parentPath hourPath' = datePath' ∧
      parentPath datePath' = parentPath (parentPath hourPath) := by
  obtain ⟨⟨x, hx, rfl⟩, hdatePath⟩ := nextFolder_eq_some hdate h
  have hname : ∀ {y : String}, Plain y → Formed [y] := fun hy =>
    ⟨List.not_mem_nil, List.not_mem_nil, fun z hz => .inr (List.mem_singleton.mp hz ▸ hy.noSlash)⟩
  rcases hdatePath with rfl | ⟨y, hy, rfl⟩
  · refine ⟨hformed.parent.join (hname hx), ?_, rfl⟩
    rw [parentPath_join hx, hformed.withoutSlash_parentPath]
  · refine ⟨(hformed.parent.parent.join (hname hy)).join (hname hx), ?_, ?_⟩
    · rw [parentPath_join hx, withoutSlash_join hy]
    · rw [parentPath_join hy, hformed.parent.withoutSlash_parentPath]

end Folders

/-! ### Confined queries -/

section Confined

variable {d : Disk} {cwd : List String} {previousDate : String → String}
  {base rootPath datePath hourPath : Path} {ext : String}

/-- The files of a folder, with more files if they are too few. -/
theorem confined_of_more {files more : List TimedFile} {n : ℕ}
    (hfiles : ∀ f ∈ files, Confined cwd base f.2) (hmore : ∀ f ∈ more, Confined cwd base f.2) :
    ∀ f ∈ if files.length < n then files ++ more else files, Confined cwd base f.2 := by
  split_ifs
  · exact fun f hf => (List.mem_append.mp hf).elim (hfiles f) (hmore f)
  · exact hfiles

/-- **The query without a parameter** stays in the directory. -/
theorem findLatestCompleteFile_confined (hdate : ∀ s, Plain (previousDate s)) {p : Path}
    (h : d.findLatestCompleteFile cwd previousDate base ext = some p) : Confined cwd base p := by
  unfold findLatestCompleteFile at h
  split at h
  · obtain ⟨f, hf, rfl⟩ := Option.map_eq_some_iff.mp h
    exact confined_sortedFiles .self (List.mem_of_getElem? hf)
  case h_2 latestDate hlatest =>
    have hdatePath : Within cwd base (join base [latestDate]) :=
      Within.self.join (plain_findLatestSubDir hlatest)
    dsimp only at h
    split at h
    · cases h
    case h_2 latestHour hhour =>
      obtain ⟨f, hf, rfl⟩ := Option.map_eq_some_iff.mp h
      refine confined_of_more (confined_of_more ?_ ?_) ?_ f
        (Descending.mem_sort.mp (List.mem_of_getElem? hf))
      · exact fun g hg => confined_getFiles (hdatePath.join (plain_findLatestSubDir hhour)) hg
      · intro g hg
        cases hprev : d.previousHour cwd (join base [latestDate]) latestHour with
        | none =>
          rw [hprev] at hg
          cases hg
        | some prevHour =>
          rw [hprev] at hg
          exact confined_getFiles (hdatePath.join (plain_previousHour hprev)) hg
      · refine fun g hg => confined_getFiles ?_ hg
        have hprevDate : Within cwd base (join base [previousDate latestDate]) :=
          Within.self.join (hdate latestDate)
        cases hprev : d.findLatestSubDir cwd (join base [previousDate latestDate]) with
        | none =>
          rw [Option.toList_none, Within, location_join_nil]
          exact hprevDate
        | some prevHour => exact hprevDate.join (plain_findLatestSubDir hprev)

/-- The loop adds files of the folder only. -/
theorem mem_pushOlder {time : ℤ} {num : ℕ} {files : List TimedFile} {result : List Path} {p : Path}
    (h : p ∈ (pushOlder time num files result).2) : p ∈ result ∨ ∃ f ∈ files, f.2 = p := by
  induction files generalizing result with
  | nil => exact .inl h
  | cons f files ih =>
    have hsplit : p ∈ result ++ [f.2] → p ∈ result ∨ ∃ g ∈ f :: files, g.2 = p := fun hp =>
      (List.mem_append.mp hp).imp_right fun hp =>
        ⟨f, List.mem_cons_self, (List.mem_singleton.mp hp).symm⟩
    have hrest : (∃ g ∈ files, g.2 = p) → ∃ g ∈ f :: files, g.2 = p := fun ⟨g, hg, heq⟩ =>
      ⟨g, List.mem_cons_of_mem f hg, heq⟩
    unfold pushOlder at h
    split_ifs at h
    · exact hsplit h
    · exact (ih h).elim hsplit fun hg => .inr (hrest hg)
    · exact (ih h).imp_right hrest

theorem findBackwards_confined (hdate : ∀ s, Plain (previousDate s))
    (hroot : Within cwd base rootPath) {time : ℤ} {num fuel : ℕ} {result paths : List Path}
    (hdatePath : Within cwd base datePath) (hhourPath : Within cwd base hourPath)
    (hresult : ∀ p ∈ result, Confined cwd base p)
    (h : d.findBackwards cwd previousDate rootPath ext time num fuel datePath hourPath result =
      some paths) : ∀ p ∈ paths, Confined cwd base p := by
  induction fuel generalizing datePath hourPath result with
  | zero => cases h
  | succ fuel ih =>
    have hpushed : ∀ p ∈ (pushOlder time num (d.sortedFiles cwd hourPath ext) result).2,
        Confined cwd base p := by
      intro p hp
      rcases mem_pushOlder hp with hp | ⟨f, hf, rfl⟩
      · exact hresult p hp
      · exact confined_sortedFiles hhourPath hf
    rw [findBackwards_succ] at h
    split_ifs at h
    · split at h
      case h_1 result' hpush =>
        rw [hpush] at hpushed
        exact Option.some.inj h ▸ hpushed
      case h_2 result' hpush =>
        rw [hpush] at hpushed
        split at h
        case h_1 datePath' hourPath' hnext =>
          obtain ⟨⟨x, hx, rfl⟩, hdatePath'⟩ := nextFolder_eq_some hdate hnext
          have hwithin : Within cwd base datePath' := by
            rcases hdatePath' with rfl | ⟨y, hy, rfl⟩
            · exact hdatePath
            · exact hroot.join hy
          exact ih hwithin (hwithin.join hx) hpushed h
        case h_2 => exact Option.some.inj h ▸ hpushed
    · exact Option.some.inj h ▸ hresult

theorem findFrom_confined (hdate : ∀ s, Plain (previousDate s)) {limit : ℤ} {count : ℕ} {p : Path}
    (hformed : Formed hourPath) (hwithin : FolderWithin cwd base hourPath)
    (h : d.findFrom cwd previousDate limit count hourPath = some p) : Confined cwd base p := by
  induction count generalizing hourPath with
  | zero => cases h
  | succ count ih =>
    rw [findFrom_succ] at h
    split at h
    case h_1 q hq =>
      obtain ⟨f, hf, rfl⟩ := Option.map_eq_some_iff.mp hq
      exact Option.some.inj h ▸ confined_sortedFiles hwithin.hour (List.mem_of_find?_eq_some hf)
    case h_2 =>
      split at h
      case h_1 datePath' hourPath' hnext =>
        obtain ⟨hformed', hparent, hroot⟩ := nextFolder_parents hdate hformed hnext
        obtain ⟨⟨x, hx, rfl⟩, hdatePath'⟩ := nextFolder_eq_some hdate hnext
        have hdatePath : Within cwd base datePath' := by
          rcases hdatePath' with rfl | ⟨y, hy, rfl⟩
          · exact hwithin.date
          · exact hwithin.root.join hy
        refine ih hformed' ⟨hdatePath.join hx, ?_, ?_⟩ h
        · rwa [hparent]
        · rw [hparent, hroot]
          exact hwithin.root
      case h_2 => cases h

/-- **`FindOlderFiles`** stays in the directory. -/
theorem findOlderFiles_confined (hdate : ∀ s, Plain (previousDate s)) {file : Path}
    (hbase : Formed base) (hfile : Formed file) (hwithin : OlderWithin cwd base file) {num fuel : ℕ}
    {paths : List Path}
    (h : d.findOlderFiles cwd previousDate base file num fuel = some paths) :
    ∀ p ∈ paths, Confined cwd base p := by
  have hloop : FolderWithin cwd base (parentPath file) → ∀ time,
      d.findBackwards cwd previousDate (parentPath (parentPath (parentPath file)))
        (fileExtension file) time num fuel (parentPath (parentPath file)) (parentPath file) []
          = some paths → ∀ p ∈ paths, Confined cwd base p := fun hfolder _ =>
    findBackwards_confined hdate hfolder.root hfolder.date hfolder.hour (by simp)
  unfold findOlderFiles at h
  split at h
  case h_1 => exact Option.some.inj h ▸ fun p hp => absurd hp List.not_mem_nil
  case h_2 loc k hstatus =>
    dsimp only at h
    split_ifs at h with hflat
    · intro p hp
      rw [← Option.some.inj h] at hp
      rcases mem_pushOlder hp with hp | ⟨f, hf, rfl⟩
      · cases hp
      · exact confined_sortedFiles .self hf
    · rcases hwithin with rfl | ⟨hne, hspelt, heq⟩ | hfolder
      · cases hstatus
      · by_cases hnil : parentPath file = []
        · refine hloop ?_ _ h
          rw [hnil] at heq ⊢
          have hself : Within cwd base [] := by rw [Within, heq]
          exact ⟨hself, hself, hself⟩
        · -- the folder of the file is the directory itself
          have hdir := hfile.directory_parentPath hstatus hnil
          have hthere : isDirectory d.tree (location cwd base) = true :=
            heq ▸ isDirectory_of_directory hdir
          have hdir' : directory d.tree cwd base = some (location cwd base) :=
            hspelt.elim (fun hup => hbase.directory_of_location hne hup hthere) fun halong =>
              halong.directory hne hstatus hthere
          refine absurd ?_ hflat
          rw [equivalent, status_of_directory hdir, status_of_directory hdir']
          exact decide_eq_true heq
      · exact hloop hfolder _ h

/-- **`FindFilesFromDatetime`** stays in the directory. -/
theorem findFilesFromDatetime_confined (hdate : ∀ s, Plain (previousDate s))
    {parseDatetime : String → ℤ} {basename : String} (hbase : Formed base)
    (hwithin : DatetimeWithin cwd base basename) {p : Path}
    (h : d.findFilesFromDatetime cwd previousDate parseDatetime base basename = some p) :
    Confined cwd base p := by
  unfold findFilesFromDatetime at h
  dsimp only at h
  split_ifs at h with hshort hnested
  · refine findFrom_confined hdate ?_ (hwithin.resolve_left hshort) h
    exact (hbase.join (formed_parse _)).join (formed_parse _)
  · obtain ⟨f, hf, rfl⟩ := Option.map_eq_some_iff.mp h
    exact confined_sortedFiles .self (List.mem_of_find?_eq_some hf)

end Confined

end Disk

end PiWebrtc.Recorder
