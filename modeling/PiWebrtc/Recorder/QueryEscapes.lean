import PiWebrtc.Recorder.QueryPaths
import Mathlib.Algebra.Order.BigOperators.Group.List
import Mathlib.Data.List.TakeWhile

namespace PiWebrtc.Recorder

open FileTree FilePath

/-!
# Where the queries leave the directory

The conditions under which `FindOlderFiles` and `FindFilesFromDatetime` stay in the directory
cannot be dropped.  The disks that show it have a file from before in every folder outside the
directory, and none in it, so that a loop leaves the directory with the first folder outside
that it comes to.

* `Baited` — such a disk, and `exists_baited` that there is one with any given folders.
* `Escapes` — the loop from folder to folder comes to a folder outside; then
  `Escapes.findBackwards` and `Escapes.findFrom` have the queries return a file there.
* `escapes_hours` — the loop leaves a date folder after the hours before.
* `exists_older_outside` — a file to ask `FindOlderFiles` for, unless the condition holds.
-/

/-- What `GetPreviousDate` writes: the day before, by `put_time` with `%Y%m%d`, which is a sequence
    of at least five digits and signs. -/
structure PutsDate (previousDate : String → String) : Prop where
  plain : ∀ s, Plain (previousDate s)
  length : ∀ s, 5 ≤ (previousDate s).toList.length
  earlier : ∀ s, previousDate s ≠ s

/-! ### Baits -/

/-- The extension of a name is empty, or it is what follows the last dot, with it. -/
theorem splitExtension_snd (cs : List Char) : (splitExtension cs).2 = [] ∨
    ∃ e, (splitExtension cs).2 = '.' :: e ∧ '.' ∉ e ∧ '.' :: e <:+ cs := by
  unfold splitExtension
  split
  case h_1 dot c stem heq =>
    have hdot : dot = '.' := by
      have hhead := List.head?_dropWhile_not (· ≠ '.') cs.reverse
      rw [heq] at hhead
      simpa using hhead
    refine .inr ⟨_, rfl, fun hmem => ?_, ?_⟩
    · simpa using List.mem_takeWhile_imp (List.mem_reverse.mp hmem)
    · have happend := List.takeWhile_append_dropWhile (p := (· ≠ '.')) (l := cs.reverse)
      refine ⟨(c :: stem).reverse, ?_⟩
      rw [heq, hdot] at happend
      have := congrArg List.reverse happend
      simpa using this
  case h_2 => exact .inl rfl

theorem splitExtension_of_notMem {cs : List Char} (h : '.' ∉ cs) : (splitExtension cs).2 = [] :=
  (splitExtension_snd cs).resolve_right fun ⟨_, _, _, hsuffix⟩ =>
    h (hsuffix.subset List.mem_cons_self)

/-- A name with some extension that is none of the given ones. -/
theorem exists_fresh (names : List String) {name : String} (hname : '/' ∉ name.toList) :
    ∃ x, Plain x ∧ extension x = extension name ∧ x ∉ names := by
  -- the name is longer than all of them
  have hlong : ∀ y ∈ names, y.toList.length ≤ (names.map (·.toList.length)).sum := fun y hy =>
    List.single_le_sum (fun _ _ => Nat.zero_le _) _ (List.mem_map_of_mem hy)
  generalize (names.map (·.toList.length)).sum = n at hlong
  have hx : (String.ofList (List.replicate (n + 3) 'a' ++ (splitExtension name.toList).2)).toList =
      List.replicate (n + 3) 'a' ++ (splitExtension name.toList).2 := String.toList_ofList
  generalize String.ofList (List.replicate (n + 3) 'a' ++ (splitExtension name.toList).2) = x at hx
  have hlen : n + 3 ≤ x.toList.length := by
    rw [hx, List.length_append, List.length_replicate]
    exact Nat.le_add_right _ _
  have hother : ∀ {c}, c ≠ 'a' → c ∉ List.replicate (n + 3) 'a' := fun hc hmem =>
    hc (List.eq_of_mem_replicate hmem)
  have hne : ∀ {y : String}, y.toList.length < 3 → x ≠ y := by
    rintro y hy rfl
    omega
  refine ⟨x, ⟨hne (by decide), hne (by decide), hne (by decide), ?_⟩, ?_, fun hmem => ?_⟩
  · rw [hx, List.mem_append]
    rintro (hmem | hmem)
    · exact hother (by decide) hmem
    · rcases splitExtension_snd name.toList with hnil | ⟨e, he, -, hsuffix⟩
      · rw [hnil] at hmem
        cases hmem
      · exact hname (hsuffix.subset (he ▸ hmem))
  · rw [extension, extension, hx]
    rcases splitExtension_snd name.toList with hnil | ⟨e, he, hnot, -⟩
    · rw [hnil, List.append_nil, splitExtension_of_notMem (hother (by decide))]
    · rw [he, splitExtension_append (by simp) hnot]
  · have := hlong x hmem
    omega

/-- A disk with these folders, which were written at the time `limit`.  Each folder outside the
    directory has a file from before, and the directory has none. -/
structure Baited (d : Disk) (folders : List (List String)) (dir : List String) (ext : String)
    (limit : ℤ) : Prop where
  folder : ∀ {loc}, isDirectory d.tree loc = true ↔ loc = [] ∨ ∃ f ∈ folders, loc <+: f
  time : ∀ {loc}, isDirectory d.tree loc = true → d.lastWriteTime loc = limit
  bait : ∀ {loc}, isDirectory d.tree loc = true → ¬ dir <+: loc →
    ∃ x, (x, Kind.regular) ∈ d.tree.list loc ∧ extension x = ext
  outside : ∀ {loc x}, (x, Kind.regular) ∈ d.tree.list loc → ¬ dir <+: loc
  older : ∀ {loc x}, (x, Kind.regular) ∈ d.tree.list loc → d.lastWriteTime (loc ++ [x]) < limit

/-- Any folders can be those of such a disk. -/
theorem exists_baited (folders : List (List String)) (hplain : ∀ f ∈ folders, ∀ x ∈ f, Plain x)
    (dir : List String) {name : String} (hname : '/' ∉ name.toList) (limit : ℤ) :
    ∃ d, Baited d folders dir (extension name) limit := by
  obtain ⟨x, hx, hext, hfresh⟩ := exists_fresh folders.flatten hname
  have hnot : ∀ f ∈ folders, x ∉ f := fun f hf hmem =>
    hfresh (List.mem_flatten.mpr ⟨f, hf, hmem⟩)
  refine ⟨⟨.ofFolders folders x hnot fun p => ¬ dir <+: p,
    fun p => if p.getLast? = some x then limit - 1 else limit, fun e he y hy => ?_⟩,
    isDirectory_ofFolders hnot, fun h => if_neg ?_, fun h hout => ⟨x, ?_, hext⟩, fun h => ?_,
    fun h => ?_⟩
  · rcases Tree.eq_or_mem_of_mem_ofFolders hnot he hy with rfl | ⟨f, hf, hyf⟩
    · exact hx
    · exact hplain f hf y hyf
  · rcases (isDirectory_ofFolders hnot).mp h with rfl | ⟨f, hf, hpre⟩
    · exact nofun
    · exact fun hlast => hnot f hf (hpre.subset (List.mem_of_getLast? hlast))
  · exact (Tree.regular_mem_list_ofFolders hnot).mpr
      ⟨rfl, (isDirectory_ofFolders hnot).mp h, decide_eq_true hout⟩
  · exact of_decide_eq_true ((Tree.regular_mem_list_ofFolders hnot).mp h).2.2
  · obtain ⟨rfl, -⟩ := (Tree.regular_mem_list_ofFolders hnot).mp h
    dsimp only
    rw [List.getLast?_concat, if_pos rfl]
    omega

/-! ### Out of the directory -/

/-- The loop comes to a folder outside the directory, the first or one of the next. -/
inductive Escapes (d : Disk) (cwd : List String) (previousDate : String → String) (base : Path)
    (rootPath : Path) : ℕ → (datePath hourPath : Path) → Prop
  | here {n datePath hourPath loc} (h : directory d.tree cwd hourPath = some loc)
      (hout : ¬ location cwd base <+: loc) :
      Escapes d cwd previousDate base rootPath (n + 1) datePath hourPath
  | next {n datePath hourPath datePath' hourPath'}
      (hnext : d.nextFolder cwd previousDate rootPath datePath hourPath =
        some (datePath', hourPath'))
      (h : Escapes d cwd previousDate base rootPath n datePath' hourPath') :
      Escapes d cwd previousDate base rootPath (n + 1) datePath hourPath

section Loops

variable {d : Disk} {cwd : List String} {previousDate : String → String} {base rootPath : Path}
  {folders : List (List String)} {ext : String} {limit : ℤ} {datePath hourPath : Path} {n : ℕ}

/-- What is found is older, and lies outside. -/
theorem Baited.of_mem_getFiles (hb : Baited d folders (location cwd base) ext limit)
    {f : TimedFile} (hf : f ∈ d.getFiles cwd hourPath ext) :
    f.1 < limit ∧ ¬ Confined cwd base f.2 := by
  unfold Disk.getFiles at hf
  split at hf
  case h_1 loc hdir =>
    obtain ⟨⟨x, k⟩, hmem, heq⟩ := List.mem_filterMap.mp hf
    obtain ⟨⟨rfl, hext⟩, heq⟩ := Option.ite_none_right_eq_some.mp heq
    obtain rfl := Option.some.inj heq
    have hx : Plain x := d.plain _ (d.tree.mem_list.mp hmem) x
      (List.mem_append_right _ (List.mem_singleton_self x))
    refine ⟨hb.older hmem, fun hconfined => hb.outside hmem ?_⟩
    rw [Confined, location_join hx, ← directory_location hdir] at hconfined
    exact (List.prefix_concat_iff.mp hconfined.1).resolve_left hconfined.2.symm
  case h_2 => cases hf

/-- A folder has an older file outside the directory to show, or nothing. -/
theorem Baited.sortedFiles_cases (hb : Baited d folders (location cwd base) ext limit)
    (hourPath : Path) :
    (∃ f rest, d.sortedFiles cwd hourPath ext = f :: rest ∧ f.1 < limit ∧
      ¬ Confined cwd base f.2) ∨
    d.sortedFiles cwd hourPath ext = [] ∧
      ∀ loc, directory d.tree cwd hourPath = some loc → location cwd base <+: loc := by
  cases hfiles : d.sortedFiles cwd hourPath ext with
  | cons f rest =>
    have hf : f ∈ d.sortedFiles cwd hourPath ext := hfiles ▸ List.mem_cons_self
    exact .inl ⟨f, rest, rfl, hb.of_mem_getFiles (Descending.mem_sort.mp hf)⟩
  | nil =>
    refine .inr ⟨rfl, fun loc hdir => by_contra fun hout => ?_⟩
    obtain ⟨x, hx, hext⟩ := hb.bait (isDirectory_of_directory hdir) hout
    have hf : (d.lastWriteTime (loc ++ [x]), join hourPath [x]) ∈ d.getFiles cwd hourPath ext := by
      rw [Disk.getFiles, hdir]
      exact List.mem_filterMap.mpr ⟨_, hx, if_pos ⟨rfl, hext⟩⟩
    have hsorted : (d.lastWriteTime (loc ++ [x]), join hourPath [x]) ∈
        d.sortedFiles cwd hourPath ext := Descending.mem_sort.mpr hf
    rw [hfiles] at hsorted
    cases hsorted

/-- `FindOlderFiles` returns what it finds there. -/
theorem Escapes.findBackwards (h : Escapes d cwd previousDate base rootPath n datePath hourPath)
    (hb : Baited d folders (location cwd base) ext limit) :
    ∃ p, d.findBackwards cwd previousDate rootPath ext limit 1 n datePath hourPath [] = some [p] ∧
      ¬ Confined cwd base p := by
  have hbait : ∀ {n datePath hourPath f rest}, d.sortedFiles cwd hourPath ext = f :: rest →
      f.1 < limit → ¬ Confined cwd base f.2 →
      ∃ p, d.findBackwards cwd previousDate rootPath ext limit 1 (n + 1) datePath hourPath [] =
        some [p] ∧ ¬ Confined cwd base p := by
    intro n datePath hourPath f rest hfiles holder hout
    refine ⟨f.2, ?_, hout⟩
    rw [Disk.findBackwards_succ, hfiles]
    simp [pushOlder, holder]
  induction h with
  | here hdir hout =>
    rcases hb.sortedFiles_cases _ with ⟨f, rest, hfiles, holder, hf⟩ | ⟨-, hin⟩
    · exact hbait hfiles holder hf
    · exact absurd (hin _ hdir) hout
  | next hnext _ ih =>
    rcases hb.sortedFiles_cases _ with ⟨f, rest, hfiles, holder, hf⟩ | ⟨hnone, -⟩
    · exact hbait hfiles holder hf
    · obtain ⟨p, hp, hout⟩ := ih
      refine ⟨p, ?_, hout⟩
      rw [Disk.findBackwards_succ, hnone, hnext]
      exact hp

/-- `FindFilesFromDatetime` returns what it finds there. -/
theorem Escapes.findFrom (h : Escapes d cwd previousDate base rootPath n datePath hourPath)
    (hdate : ∀ s, Plain (previousDate s))
    (hb : Baited d folders (location cwd base) ".mp4" limit) (hformed : Formed hourPath)
    (hdatePath : parentPath hourPath = datePath) (hroot : parentPath datePath = rootPath) :
    ∃ p, d.findFrom cwd previousDate limit n hourPath = some p ∧ ¬ Confined cwd base p := by
  have hbait : ∀ {n hourPath f rest}, d.sortedFiles cwd hourPath ".mp4" = f :: rest →
      f.1 < limit → ¬ Confined cwd base f.2 →
      ∃ p, d.findFrom cwd previousDate limit (n + 1) hourPath = some p ∧ ¬ Confined cwd base p := by
    intro n hourPath f rest hfiles holder hout
    refine ⟨f.2, ?_, hout⟩
    rw [Disk.findFrom_succ, hfiles]
    simp [firstBefore, holder]
  induction h with
  | here hdir hout =>
    rcases hb.sortedFiles_cases _ with ⟨f, rest, hfiles, holder, hf⟩ | ⟨-, hin⟩
    · exact hbait hfiles holder hf
    · exact absurd (hin _ hdir) hout
  | next hnext _ ih =>
    rcases hb.sortedFiles_cases _ with ⟨f, rest, hfiles, holder, hf⟩ | ⟨hnone, -⟩
    · exact hbait hfiles holder hf
    · rw [← hroot, ← hdatePath] at hnext
      obtain ⟨hformed', hparent, hroot'⟩ := Disk.nextFolder_parents hdate hformed hnext
      obtain ⟨p, hp, hout⟩ := ih hformed' hparent (hroot'.trans (hdatePath ▸ hroot))
      refine ⟨p, ?_, hout⟩
      rw [Disk.findFrom_succ, hnone, hnext]
      exact hp

/-! ### From folder to folder -/

/-- The folders of a date before an hour. -/
def hoursBefore (d : Disk) (cwd : List String) (datePath : Path) (hour : String) : ℕ :=
  ((directory d.tree cwd datePath).elim [] d.tree.list).countP fun e =>
    e.2 = .directory ∧ e.1 < hour

/-- The hour before leaves fewer folders. -/
theorem hoursBefore_lt {hour prevHour : String}
    (h : d.previousHour cwd datePath hour = some prevHour) :
    hoursBefore d cwd datePath prevHour < hoursBefore d cwd datePath hour := by
  obtain ⟨loc, hdir, hprev⟩ := Option.bind_eq_some_iff.mp h
  obtain ⟨hmem, hlt, -⟩ := latestDir_eq_some hprev
  rw [hoursBefore, hoursBefore, hdir, Option.elim_some]
  have hsub : (d.tree.list loc).countP (fun e => e.2 = .directory ∧ e.1 < prevHour)
      = ((d.tree.list loc).filter fun e => e.2 = .directory ∧ e.1 < hour).countP
          fun e => e.1 < prevHour := by
    rw [List.countP_filter]
    refine List.countP_congr fun e _ => ?_
    simp only [decide_eq_true_eq, Bool.and_eq_true]
    exact ⟨fun ⟨hk, hlt'⟩ => ⟨hlt', hk, hlt'.trans (of_decide_eq_true hlt)⟩,
      fun ⟨hlt', hk, _⟩ => ⟨hk, hlt'⟩⟩
  -- the hour itself is left out
  rw [hsub, List.countP_eq_length_filter (l := d.tree.list loc), List.countP_lt_length_iff]
  exact ⟨(prevHour, .directory), List.mem_filter.mpr ⟨d.tree.mem_list.mpr hmem, by simpa using hlt⟩,
    by simp⟩

theorem nextFolder_of_previousHour {prevHour : String}
    (h : d.previousHour cwd datePath (filename hourPath) = some prevHour) :
    d.nextFolder cwd previousDate rootPath datePath hourPath =
      some (datePath, join datePath [prevHour]) := by
  rw [Disk.nextFolder, h]

theorem nextFolder_of_latest {latestHour : String}
    (h : d.previousHour cwd datePath (filename hourPath) = none)
    (hlatest : d.findLatestSubDir cwd (join rootPath [previousDate (filename datePath)]) =
      some latestHour) :
    d.nextFolder cwd previousDate rootPath datePath hourPath =
      some (join rootPath [previousDate (filename datePath)],
        join (join rootPath [previousDate (filename datePath)]) [latestHour]) := by
  obtain ⟨loc, hdir, -⟩ := Option.bind_eq_some_iff.mp hlatest
  have hexists : d.pathExists cwd (join rootPath [previousDate (filename datePath)]) = true := by
    rw [Disk.pathExists, status_of_directory hdir]
    rfl
  rw [Disk.nextFolder, h]
  dsimp only
  rw [if_pos hexists, hlatest]
  rfl

/-- **Out of a date folder.** The loop goes through the hours before, and then leaves the date. -/
theorem escapes_hours {latestHour : String} {loc : List String}
    (hlatest : d.findLatestSubDir cwd (join rootPath [previousDate (filename datePath)]) =
      some latestHour)
    (hloc : directory d.tree cwd
      (join (join rootPath [previousDate (filename datePath)]) [latestHour]) = some loc)
    (hout : ¬ location cwd base <+: loc)
    (hn : hoursBefore d cwd datePath (filename hourPath) + 2 ≤ n) :
    Escapes d cwd previousDate base rootPath n datePath hourPath := by
  induction n generalizing hourPath with
  | zero => omega
  | succ n ih =>
    obtain ⟨n, rfl⟩ : ∃ m, n = m + 1 := ⟨n - 1, by omega⟩
    cases hprev : d.previousHour cwd datePath (filename hourPath) with
    | none => exact .next (nextFolder_of_latest hprev hlatest) (.here hloc hout)
    | some prevHour =>
      have hlt := hoursBefore_lt hprev
      refine .next (nextFolder_of_previousHour hprev) (ih ?_)
      rw [filename_join (Disk.plain_previousHour hprev)]
      omega

/-- The previous date's folder has a latest hour, if there is an hour in it. -/
theorem Baited.latest (hb : Baited d folders (location cwd base) ext limit)
    (hroot : Reachable d.tree cwd rootPath) {x : String} (hx : Plain x)
    (hmem : location cwd rootPath ++ [x, "99"] ∈ folders) :
    ∃ latestHour, d.findLatestSubDir cwd (join rootPath [x]) = some latestHour ∧
      directory d.tree cwd (join (join rootPath [x]) [latestHour]) =
        some (location cwd rootPath ++ [x, latestHour]) := by
  have hdir : isDirectory d.tree (location cwd rootPath ++ [x]) = true :=
    hb.folder.mpr (.inr ⟨_, hmem, ⟨["99"], by simp⟩⟩)
  have hjoin := hroot.join hx hdir
  have hloc := hjoin.directory_eq (join_ne_nil (List.cons_ne_nil x []))
  rw [location_join hx] at hloc
  have hhour : (location cwd rootPath ++ [x] ++ ["99"], Kind.directory) ∈ d.tree.entries := by
    have hfolder : isDirectory d.tree (location cwd rootPath ++ [x] ++ ["99"]) = true :=
      hb.folder.mpr (.inr ⟨_, hmem, by simp⟩)
    rw [isDirectory, decide_eq_true_eq] at hfolder
    exact hfolder.resolve_left (by simp)
  cases hlatest : d.findLatestSubDir cwd (join rootPath [x]) with
  | none =>
    rw [Disk.findLatestSubDir, hloc, Option.bind_some] at hlatest
    exact absurd (latestDir_eq_none hlatest hhour) (by decide)
  | some latestHour =>
    refine ⟨latestHour, rfl, ?_⟩
    have hplain := Disk.plain_findLatestSubDir hlatest
    rw [Disk.findLatestSubDir, hloc, Option.bind_some] at hlatest
    have hdir' : isDirectory d.tree (location cwd (join rootPath [x]) ++ [latestHour]) = true := by
      rw [isDirectory, decide_eq_true_eq, location_join hx]
      exact .inr (latestDir_eq_some hlatest).1
    have hne : join (join rootPath [x]) [latestHour] ≠ [] := join_ne_nil (List.cons_ne_nil _ [])
    rw [(hjoin.join hplain hdir').directory_eq hne, location_join hplain, location_join hx,
      List.append_assoc]
    rfl

end Loops

/-! ### The file of the client -/

/-- Two ways out of a folder that lead into the directory begin alike. -/
theorem eq_of_prefix_append {dir loc s t : List String} {x y : String} (hout : ¬ dir <+: loc)
    (h : dir <+: loc ++ x :: s) (h' : dir <+: loc ++ y :: t) : x = y := by
  obtain ⟨r, rfl⟩ : loc <+: dir :=
    (List.prefix_or_prefix_of_prefix (List.prefix_append loc (x :: s)) h).resolve_right hout
  rw [List.prefix_append_right_inj] at h h'
  cases r with
  | nil => exact absurd (by rw [List.append_nil]) hout
  | cons z r =>
    exact (List.cons_prefix_cons.mp h).1.symm.trans (List.cons_prefix_cons.mp h').1

/-- The name that a path's extension is that of. -/
theorem exists_name_of_formed {p : Path} (h : Formed p) :
    ∃ name : String, '/' ∉ name.toList ∧ extension name = fileExtension p := by
  unfold fileExtension
  split_ifs
  · exact ⟨"", by decide, by decide⟩
  · refine ⟨filename p, ?_, rfl⟩
    unfold filename
    split
    case h_1 x hx =>
      split_ifs with hslash
      · decide
      · exact (h.names x (List.mem_of_getLast? hx)).resolve_left hslash
    case h_2 => decide

section Escape

variable {d : Disk} {cwd : List String} {previousDate : String → String} {base hourPath : Path}
  {folders : List (List String)} {ext : String} {limit : ℤ} {n : ℕ}

/-- Above a folder in the directory lies one in the directory, but for the directory itself. -/
theorem Within.above (hformed : Formed hourPath) (h : Within cwd base hourPath)
    (hne : location cwd base ≠ location cwd hourPath) :
    Within cwd base (parentPath hourPath) := by
  rcases hformed.location_eq cwd with hself | hstep
  · rwa [Within, hself]
  · rw [Within, hstep] at h
    refine (prefix_next h).resolve_right fun hup => hne ?_
    rw [hstep, hup.2]

/-- A folder in the directory, below one that is not, is the directory. -/
theorem Within.eq_of_above (hformed : Formed hourPath) (h : Within cwd base hourPath)
    (hnot : ¬ Within cwd base (parentPath hourPath)) :
    location cwd base = location cwd (parentPath hourPath) ++ [filename hourPath] ∧
      location cwd hourPath = location cwd base := by
  rcases hformed.location_eq cwd with hself | hstep
  · rw [Within, hself] at hnot
    exact absurd h hnot
  · rw [Within, hstep] at h
    exact ((prefix_next h).resolve_left hnot).imp_right hstep.trans

/-- The loop leaves the directory with the date, if that is the directory itself. -/
theorem Baited.escapes_date (hdate : PutsDate previousDate)
    (hb : Baited d folders (location cwd base) ext limit)
    (hroot : Reachable d.tree cwd (parentPath (parentPath hourPath)))
    (hmem : location cwd (parentPath (parentPath hourPath)) ++
      [previousDate (filename (parentPath hourPath)), "99"] ∈ folders)
    (hself : location cwd base =
      location cwd (parentPath (parentPath hourPath)) ++ [filename (parentPath hourPath)])
    (hn : hoursBefore d cwd (parentPath hourPath) (filename hourPath) + 2 ≤ n) :
    Escapes d cwd previousDate base (parentPath (parentPath hourPath)) n
      (parentPath hourPath) hourPath := by
  obtain ⟨latestHour, hlatest, hloc⟩ := hb.latest hroot (hdate.plain _) hmem
  refine escapes_hours hlatest hloc (fun hpre => ?_) hn
  rw [hself, List.prefix_append_right_inj] at hpre
  exact hdate.earlier _ (List.cons_prefix_cons.mp hpre).1.symm

/-- **Out of the directory** from a folder other than it. -/
theorem Baited.exists_escapes (hdate : PutsDate previousDate)
    (hb : Baited d folders (location cwd base) ext limit) (hformed : Formed hourPath)
    (hreach : Reachable d.tree cwd hourPath)
    (hmem : ∀ date ∈ [filename (parentPath hourPath),
      previousDate (filename (parentPath hourPath))],
      location cwd (parentPath (parentPath hourPath)) ++ [previousDate date, "99"] ∈ folders)
    (hother : location cwd base ≠ location cwd hourPath)
    (h : ¬ FolderWithin cwd base hourPath) :
    ∃ n, Escapes d cwd previousDate base (parentPath (parentPath hourPath)) n
      (parentPath hourPath) hourPath := by
  have hroot : Reachable d.tree cwd (parentPath (parentPath hourPath)) :=
    hreach.start ((parentPath_start _).trans (parentPath_start _))
  rcases eq_or_ne hourPath [] with rfl | hne
  · -- the loop begins with the folder of the day before
    have hout : ¬ location cwd base <+: cwd := fun hpre => h ⟨hpre, hpre, hpre⟩
    obtain ⟨latestHour, hlatest, hloc⟩ :=
      hb.latest hroot (hdate.plain _) (hmem _ List.mem_cons_self)
    have hnext : d.nextFolder cwd previousDate [] [] [] = some (_, _) :=
      nextFolder_of_latest rfl hlatest
    by_cases hin : location cwd base <+: cwd ++ [previousDate "", latestHour]
    · have hname : filename (join [] [previousDate ""]) = previousDate "" :=
        filename_join (hdate.plain _)
      obtain ⟨latestHour', hlatest', hloc'⟩ :=
        hb.latest hroot (hdate.plain (filename (join [] [previousDate ""]))) (by
          rw [hname]
          exact hmem _ (List.mem_cons_of_mem _ List.mem_cons_self))
      refine ⟨_, .next hnext (escapes_hours hlatest' hloc' (fun hpre => ?_) le_rfl)⟩
      rw [hname] at hpre
      exact hdate.earlier _ (eq_of_prefix_append hout hpre hin)
    · exact ⟨2, .next hnext (.here hloc hin)⟩
  · by_cases hin : Within cwd base hourPath
    · have hdatePath := hin.above hformed hother
      exact ⟨_, hb.escapes_date hdate hroot (hmem _ List.mem_cons_self)
        (hdatePath.eq_of_above hformed.parent fun hrootPath =>
          h ⟨hin, hdatePath, hrootPath⟩).1 le_rfl⟩
    · exact ⟨1, .here (hreach.directory_eq hne) hin⟩

end Escape

/-- The locations on the way along a path. -/
def locations (cwd : List String) (p : Path) : List (List String) := p.inits.map (location cwd)

section Locations

variable {d : Disk} {cwd : List String} {previousDate : String → String} {p : Path}
  {folders : List (List String)} {dir : List String} {ext : String} {limit : ℤ}

theorem plain_locations (hcwd : ∀ x ∈ cwd, Plain x) (hp : Formed p) :
    ∀ f ∈ locations cwd p, ∀ x ∈ f, Plain x := by
  intro f hf
  obtain ⟨q, hq, rfl⟩ := List.mem_map.mp hf
  exact (hp.start ((List.mem_inits q p).mp hq)).plain_location hcwd

theorem Baited.reachable (hb : Baited d folders dir ext limit)
    (h : locations cwd p ⊆ folders) : Reachable d.tree cwd p := by
  intro q hq
  refine hb.folder.mpr (.inr ⟨_, h (List.mem_map_of_mem ?_), List.prefix_refl _⟩)
  exact (List.mem_inits q p).mpr hq

/-- An hour of a previous date. -/
theorem plain_previousHour (hdate : PutsDate previousDate) (hcwd : ∀ x ∈ cwd, Plain x)
    (hp : Formed p) (date : String) :
    ∀ x ∈ location cwd p ++ [previousDate date, "99"], Plain x := by
  intro x hx
  rcases List.mem_append.mp hx with hx | hx
  · exact hp.plain_location hcwd x hx
  · rcases List.mem_pair.mp hx with rfl | rfl
    · exact hdate.plain date
    · exact ⟨by decide, by decide, by decide, by decide⟩

end Locations

section OlderFiles

variable {cwd : List String} {previousDate : String → String} {base file : Path}

/-- **`FindOlderFiles` leaves the directory** on some disk, unless the condition holds. -/
theorem exists_older_outside (hdate : PutsDate previousDate) (hcwd : ∀ x ∈ cwd, Plain x)
    (hfile : Formed file) (hne' : base ≠ [])
    (hspelt : location cwd (parentPath file) = location cwd base → SpeltOn cwd base file)
    (h : ¬ OlderWithin cwd base file) :
    ∃ (d : Disk) (fuel : ℕ) (p : Path),
      d.findOlderFiles cwd previousDate base file 1 fuel = some [p] ∧ ¬ Confined cwd base p := by
  obtain ⟨hne, hother, hfolder⟩ : file ≠ [] ∧ location cwd (parentPath file) ≠ location cwd base ∧
      ¬ FolderWithin cwd base (parentPath file) := by
    simp only [OlderWithin, not_or, not_and] at h
    exact ⟨h.1, fun heq => h.2.1 hne' (hspelt heq) heq, h.2.2⟩
  generalize hroot : parentPath (parentPath (parentPath file)) = rootPath
  have hrootFormed : Formed rootPath := hroot ▸ hfile.parent.parent.parent
  let date := filename (parentPath (parentPath file))
  let folders := locations cwd file ++
    [date, previousDate date].map fun date => location cwd rootPath ++ [previousDate date, "99"]
  have hplain : ∀ f ∈ folders, ∀ x ∈ f, Plain x := by
    intro f hf
    rcases List.mem_append.mp hf with hf | hf
    · exact plain_locations hcwd hfile f hf
    · obtain ⟨date', -, rfl⟩ := List.mem_map.mp hf
      exact plain_previousHour hdate hcwd hrootFormed date'
  obtain ⟨name, hname, hext⟩ := exists_name_of_formed hfile
  obtain ⟨d, hb⟩ := exists_baited folders hplain (location cwd base) hname 0
  rw [hext] at hb
  have hreach : Reachable d.tree cwd file := hb.reachable (List.subset_append_left _ _)
  obtain ⟨n, hn⟩ := hb.exists_escapes hdate hfile.parent
    (hreach.start (parentPath_start file)) (fun date' hmem => hroot ▸ List.mem_append_right _
      (List.mem_map_of_mem hmem)) hother.symm hfolder
  obtain ⟨p, hp, hout⟩ := hn.findBackwards hb
  have hflat : ¬ d.equivalent cwd (parentPath file) base = true := by
    intro hflat
    unfold Disk.equivalent at hflat
    split at hflat
    case h_1 loc k loc' k' hfolder' hbase' =>
      have heq : loc = loc' := of_decide_eq_true hflat
      rw [status_location hfolder', status_location hbase'] at heq
      exact hother heq
    case h_2 => cases hflat
  refine ⟨d, n, p, ?_, hout⟩
  rw [Disk.findOlderFiles, status_of_directory (hreach.directory_eq hne)]
  dsimp only
  rw [if_neg hflat, hb.time hreach.isDirectory]
  exact hp

end OlderFiles

end PiWebrtc.Recorder
