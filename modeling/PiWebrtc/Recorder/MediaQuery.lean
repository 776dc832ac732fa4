import PiWebrtc.Lib.Calendar
import PiWebrtc.Lib.Descending
import PiWebrtc.Recorder.RotateFiles

namespace PiWebrtc.Recorder

open FileTree Decimal Calendar

/-!
# Querying recordings

`FindOlderFiles` lists the recordings older than a given one.  Where the file lies in the base
directory itself, it is a scan of that directory.  Otherwise it starts with the folder of the
file and steps back, first to the latest earlier hour folder of the date and then to the
latest hour folder of the day before; it gives up at the first day that has none.

* `findOlderFiles` — the search on the tree under the base directory.
* `newestOlder` — the answer it is to give, from the whole tree at once.
-/

/-- The tree under the base directory, and when each file of it was last written. -/
structure BaseDir where
  tree : Dir
  lastWriteTime : List String → ℤ

/-- A file and when it was written, as `GetFiles` pairs them. -/
abbrev TimedFile := ℤ × List String

/-- The order of the pairs: the time decides, then the path. -/
def TimedFile.key (p : TimedFile) : ℤ ×ₗ List String := toLex p

namespace BaseDir

variable (b : BaseDir)

/-- `fs::exists`. -/
def pathExists (path : List String) : Bool := path ∈ b.tree.entries.map Prod.fst

/-- `GetFiles`; a path that is no directory has no entries. -/
def getFiles (path : List String) (ext : String) : List TimedFile :=
  (b.tree.list path).filterMap fun e =>
    if e.2 = .regular ∧ extension e.1 = ext
    then some (b.lastWriteTime (path ++ [e.1]), path ++ [e.1]) else none

theorem pathExists_of_mem {path : List String} {k : Kind} (h : (path, k) ∈ b.tree.entries) :
    b.pathExists path = true := by
  rw [pathExists, decide_eq_true_eq]
  exact List.mem_map_of_mem h

/-- `std::sort` of what `GetFiles` found, by `std::greater<>`. -/
def sortedFiles (path : List String) (ext : String) : List TimedFile :=
  Descending.sort TimedFile.key (b.getFiles path ext)

end BaseDir

/-- The names that match `^([0-9]{8}|[0-9]{2})$`. -/
def isDateOrHour (name : String) : Bool :=
  (name.toList.length = 8 ∨ name.toList.length = 2) ∧ name.toList.all (·.isDigit)

/-- The directory that a scan of `folder` for its greatest one ends with, among those whose
    name is kept. -/
def latestDir (t : Dir) (folder : List String) (keep : String → Bool) : Option String :=
  (least (OrderDual.toDual ∘ Prod.fst) (fun e => e.2 = .directory ∧ keep e.1)
    (t.list folder)).map Prod.fst

section LatestDir

variable {t : Dir} {folder : List String} {keep : String → Bool}

theorem latestDir_eq_some {name : String} (h : latestDir t folder keep = some name) :
    (folder ++ [name], .directory) ∈ t.entries ∧ keep name ∧
      ∀ m, (folder ++ [m], .directory) ∈ t.entries → keep m → m ≤ name := by
  obtain ⟨⟨n, k⟩, hleast, rfl⟩ := Option.map_eq_some_iff.mp h
  obtain ⟨hmem, hkeep, hmax⟩ := least_eq_some _ _ hleast
  rw [decide_eq_true_eq] at hkeep
  obtain ⟨rfl, hkeep⟩ := hkeep
  refine ⟨t.mem_list.mp hmem, hkeep, fun m hm hkm => ?_⟩
  exact hmax (m, .directory) (t.mem_list.mpr hm) (by simpa using hkm)

theorem latestDir_eq_none (h : latestDir t folder keep = none) {m : String}
    (hm : (folder ++ [m], .directory) ∈ t.entries) : keep m = false := by
  have hnone := least_eq_none _ _ (Option.map_eq_none_iff.mp h) _ (t.mem_list.mpr hm)
  simpa using hnone

end LatestDir

/-- `FindLatestSubDir`; `none` is the empty name. -/
def findLatestSubDir (t : Dir) (folder : List String) : Option String :=
  latestDir t folder isDateOrHour

/-- The latest hour folder of a date before `hour`. -/
def previousHour (t : Dir) (date : List String) (hour : String) : Option String :=
  latestDir t date (· < hour)

/-- `std::get_time` with `%Y%m%d`, on eight digits. -/
def getTime (cs : List Char) : Date where
  year := value (cs.take 4)
  month := value ((cs.drop 4).take 2)
  day := value ((cs.drop 6).take 2)

/-- `std::put_time` with `%Y%m%d`, which writes a year without zeros in front. -/
def putTime (d : Date) : List Char :=
  decimal 1 d.year ++ decimal 2 d.month ++ decimal 2 d.day

/-- `GetPreviousDate`.  A day less and `mktime` make the day before of a calendar date,
    unless the time zone takes an hour off in winter. -/
def getPreviousDate (dateStr : String) : String :=
  .ofList (putTime (getTime dateStr.toList).previous)

/-- The loop over the files of a folder, with the files it has so far.  The flag is set where
    it stops because the request is met. -/
def pushOlder (time : ℤ) (num : ℕ) : List TimedFile → List (List String) → Bool × List (List String)
  | [], result => (false, result)
  | p :: files, result =>
    if p.1 < time then
      if (result ++ [p.2]).length = num then (true, result ++ [p.2])
      else pushOlder time num files (result ++ [p.2])
    else pushOlder time num files result

/-- The loop adds the older files up to the number asked for. -/
theorem pushOlder_eq {time : ℤ} {num : ℕ} {files : List TimedFile} {result : List (List String)}
    (hlen : result.length < num) :
    pushOlder time num files result =
      (decide (num ≤ (result ++ (files.filter (·.1 < time)).map Prod.snd).length),
        (result ++ (files.filter (·.1 < time)).map Prod.snd).take num) := by
  induction files generalizing result with
  | nil => simp [pushOlder, hlen.not_ge, List.take_of_length_le hlen.le]
  | cons p files ih =>
    generalize hrest : (files.filter fun p => decide (p.1 < time)).map Prod.snd = rest at ih
    unfold pushOlder
    split_ifs with htime hfull
    · -- the request is met
      rw [List.filter_cons_of_pos (by simpa using htime), List.map_cons, hrest,
        List.append_cons result p.2 rest, List.take_append_of_le_length hfull.ge, ← hfull,
        List.take_length]
      simp
    · have hlen' : (result ++ [p.2]).length < num := by
        rw [List.length_append, List.length_singleton] at hfull ⊢
        omega
      rw [ih hlen', List.filter_cons_of_pos (by simpa using htime), List.map_cons, hrest,
        List.append_cons result p.2 rest]
    · rw [ih hlen, List.filter_cons_of_neg (by simpa using htime), hrest]

/-- The loop from folder to folder; `none` when the fuel is used up. -/
def findBackwards (b : BaseDir) (root : List String) (ext : String) (time : ℤ) (num : ℕ) :
    ℕ → (date hour : String) → List (List String) → Option (List (List String))
  | 0, _, _, _ => none
  | fuel + 1, date, hour, result =>
    if result.length < num then
      match pushOlder time num (b.sortedFiles (root ++ [date, hour]) ext) result with
      | (true, result) => some result
      | (false, result) =>
        match previousHour b.tree (root ++ [date]) hour with
        | some prevHour => findBackwards b root ext time num fuel date prevHour result
        | none =>
          let prevDate := getPreviousDate date
          if b.pathExists (root ++ [prevDate]) then
            match findLatestSubDir b.tree (root ++ [prevDate]) with
            | some latestHour =>
              findBackwards b root ext time num fuel prevDate latestHour result
            | none => some result
          else some result
    else some result

/-- `FindOlderFiles`; the file is named by its path from the base directory, and `none` stands
    for a search that has not ended.  A file right below a folder of the base directory would
    have the search leave the base directory, where the tree does not reach. -/
def findOlderFiles (b : BaseDir) (file : List String) (num fuel : ℕ) :
    Option (List (List String)) :=
  if !b.pathExists file then some []
  else
    match file.reverse with
    | [name] => some (pushOlder (b.lastWriteTime file) num (b.sortedFiles [] (extension name)) []).2
    | name :: hour :: date :: root =>
      findBackwards b root.reverse (extension name) (b.lastWriteTime file) num fuel date hour []
    | _ => none

end PiWebrtc.Recorder
