import PiWebrtc.Recorder.QueryEscapes

namespace PiWebrtc.Recorder

open FileTree FilePath

/-!
# Which queries are confined

The time that a client sends is cut into the names of two folders, whatever it spells.  Of ten
folders that the search looks into, few can lie in the directory if it does not start with one
of the recorder's: so it leaves the directory in time, unless the condition holds.

`queries_confined_iff` says for all three queries when they stay in the directory on every disk.
-/

/-! ### The time of the client -/

/-- A name that sorts before an hour. -/
def smaller (hour : String) : String :=
  match hour.toList with
  | c :: _ => if c = '.' ∨ c = '/' then "-" else .ofList [c]
  | [] => "-"

theorem plain_smaller (hour : String) : Plain (smaller hour) := by
  have hdash : Plain "-" := ⟨by decide, by decide, by decide, by decide⟩
  unfold smaller
  split
  case h_1 c _ _ =>
    split_ifs with h
    · exact hdash
    · obtain ⟨hdot, hslash⟩ := not_or.mp h
      refine ⟨fun heq => ?_, fun heq => hdot ?_, fun heq => ?_, ?_⟩
      · simpa using congrArg String.toList heq
      · simpa using congrArg String.toList heq
      · simpa using congrArg String.toList heq
      · simpa using Ne.symm hslash
  case h_2 => exact hdash

theorem smaller_lt {hour : String} {a b : Char} (h : hour.toList = [a, b])
    (hslash : '/' ∉ hour.toList) : smaller hour < hour := by
  rw [String.lt_iff_toList_lt, smaller, h]
  rw [h] at hslash
  have ha : a ≠ '/' := fun heq => hslash (heq ▸ List.mem_cons_self)
  dsimp only
  by_cases hdot : a = '.'
  · rw [if_pos (.inl hdot), hdot]
    exact List.Lex.rel (by decide)
  · rw [if_neg (not_or.mpr ⟨hdot, ha⟩), String.toList_ofList]
    exact List.Lex.cons .nil

section Datetime

variable {cwd : List String} {previousDate : String → String} {base hourPath : Path}
  {date hour : String} {limit : ℤ} {d : Disk}

/-- The folders of a disk on which the search for a time leaves the directory. -/
def datetimeFolders (cwd : List String) (previousDate : String → String) (base hourPath : Path)
    (hour : String) : List (List String) :=
  locations cwd base ++ locations cwd hourPath ++
    [location cwd base ++ ["00000000"],
      location cwd (parentPath (parentPath hourPath)) ++
        [previousDate (filename (parentPath hourPath)), "99"],
      location cwd (parentPath hourPath) ++ [smaller hour]]

theorem plain_datetimeFolders (hdate : PutsDate previousDate) (hcwd : ∀ x ∈ cwd, Plain x)
    (hbase : Formed base) (hhour : Formed hourPath) :
    ∀ f ∈ datetimeFolders cwd previousDate base hourPath hour, ∀ x ∈ f, Plain x := by
  have hconcat : ∀ {p : Path} {y : String}, Formed p → Plain y →
      ∀ x ∈ location cwd p ++ [y], Plain x := by
    intro p y hp hy x hx
    rcases List.mem_append.mp hx with hx | hx
    · exact hp.plain_location hcwd x hx
    · exact List.mem_singleton.mp hx ▸ hy
  intro f hf
  rcases List.mem_append.mp hf with hf | hf
  · rcases List.mem_append.mp hf with hf | hf
    · exact plain_locations hcwd hbase f hf
    · exact plain_locations hcwd hhour f hf
  · simp only [List.mem_cons, List.not_mem_nil, or_false] at hf
    rcases hf with rfl | rfl | rfl
    · exact hconcat hbase ⟨by decide, by decide, by decide, by decide⟩
    · exact plain_previousHour hdate hcwd hhour.parent.parent _
    · exact hconcat hhour.parent (plain_smaller hour)

/-- The names that a folder of the directory can have there. -/
def candidates (cwd : List String) (base : Path) (date hour : String) : List String :=
  (cwd.drop (location cwd base).length).head?.toList ++ names date.toList ++ names hour.toList ++
    ["00000000", smaller hour]

theorem length_candidates (cwd : List String) (base : Path) (hdate : date.toList.length = 8)
    (hhour : hour.toList.length = 2) :
    (candidates cwd base date hour).length ≤ 8 := by
  have hd := two_mul_length_names date.toList
  have hh := two_mul_length_names hour.toList
  have hc : (cwd.drop (location cwd base).length).head?.toList.length ≤ 1 := by
    cases (cwd.drop (location cwd base).length).head? <;> simp
  simp only [candidates, List.length_append, List.length_cons, List.length_nil]
  omega

/-- No step of the directory's spelling lies below it. -/
def NeverBelow (cwd : List String) (base : Path) : Prop :=
  ".." ∉ base ∨ ∀ q, q <+: base → q ≠ [] → ¬ Below (location cwd base) (location cwd q)

theorem NeverBelow.not_below (h : NeverBelow cwd base) (hbase : Formed base) {q : Path}
    (hq : q <+: base) (hne : q ≠ []) : ¬ Below (location cwd base) (location cwd q) := by
  refine h.elim (fun hup hbelow => ?_) fun h => h q hq hne
  obtain ⟨rest, rfl⟩ := hq
  have hroot : "/" ∉ rest := by
    obtain ⟨y, q, rfl⟩ := List.exists_cons_of_ne_nil hne
    exact fun hmem => hbase.root (List.mem_append_right _ hmem)
  have hdown : location cwd q <+: location cwd (q ++ rest) := by
    rw [location_append]
    exact prefix_location hroot fun hmem => hup (List.mem_append_right _ hmem)
  exact hbelow.2 (hdown.eq_of_length_le hbelow.1.length_le)

theorem mem_candidates (hputs : PutsDate previousDate) (hbase : Formed base)
    (hnever : NeverBelow cwd base)
    (hself : location cwd base =
      location cwd (parentPath (parentPath hourPath)) ++ [filename (parentPath hourPath)])
    (hdatePath : location cwd (parentPath hourPath) = location cwd base)
    (hhourPath : join (join base (parse date)) (parse hour) = hourPath) {f : List String}
    (hf : f ∈ datetimeFolders cwd previousDate base hourPath hour) {x : String}
    (hx : location cwd base ++ [x] <+: f) : x ∈ candidates cwd base date hour := by
  have hnames : ∀ {s : String}, x ∈ parse s ∧ x ≠ "" ∧ x ≠ "/" → x ∈ names s.toList :=
    fun h => filter_parse _ ▸ List.mem_filter.mpr ⟨h.1, decide_eq_true h.2⟩
  -- the way to the directory itself does not go below it
  have hway : ∀ {q}, q <+: base → location cwd base ++ [x] <+: location cwd q →
      x ∈ candidates cwd base date hour := by
    intro q hqbase hq
    cases q with
    | nil =>
      obtain ⟨below, hbelow⟩ := hq
      have hdrop : ∀ dir, dir ++ [x] ++ below = cwd → cwd.drop dir.length = x :: below := by
        rintro dir rfl
        rw [List.append_assoc, List.drop_left]
        rfl
      simp [candidates, hdrop _ hbelow]
    | cons y q =>
      refine absurd ⟨(List.prefix_append _ [x]).trans hq, fun heq => ?_⟩
        (hnever.not_below hbase hqbase (List.cons_ne_nil y q))
      have hlen := hq.length_le
      rw [heq, List.length_append, List.length_singleton] at hlen
      omega
  simp only [datetimeFolders, locations, List.mem_append, List.mem_map, List.mem_inits,
    List.mem_cons, List.not_mem_nil, or_false] at hf
  rcases hf with (⟨q, hq, rfl⟩ | ⟨q, hq, rfl⟩) | rfl | rfl | rfl
  · exact hway hq hx
  · rw [← hhourPath] at hq
    rcases mem_of_prefix_join hq hx with ⟨q', hq', hx'⟩ | hhour
    · rcases mem_of_prefix_join hq' hx' with ⟨q'', hq'', hx''⟩ | hdate
      · exact hway hq'' hx''
      · exact List.mem_append_left _ (List.mem_append_left _
          (List.mem_append_right _ (hnames hdate)))
    · exact List.mem_append_left _ (List.mem_append_right _ (hnames hhour))
  · rw [List.prefix_append_right_inj] at hx
    obtain rfl := (List.cons_prefix_cons.mp hx).1
    simp [candidates]
  · rw [hself, List.append_assoc, List.prefix_append_right_inj] at hx
    exact absurd (List.cons_prefix_cons.mp hx).1.symm (hputs.earlier _)
  · rw [hdatePath, List.prefix_append_right_inj] at hx
    obtain rfl := (List.cons_prefix_cons.mp hx).1
    simp [candidates]

/-- **Few folders.** A date folder that is the directory itself has eight of them at most. -/
theorem hoursBefore_le (hputs : PutsDate previousDate) (hbase : Formed base)
    (hnever : NeverBelow cwd base)
    (hb : Baited d (datetimeFolders cwd previousDate base hourPath hour) (location cwd base) ".mp4"
      limit)
    (hself : location cwd base =
      location cwd (parentPath (parentPath hourPath)) ++ [filename (parentPath hourPath)])
    (hdatePath : location cwd (parentPath hourPath) = location cwd base)
    (hhourPath : join (join base (parse date)) (parse hour) = hourPath)
    (hdate : date.toList.length = 8) (hhour : hour.toList.length = 2) (cur : String) :
    hoursBefore d cwd (parentPath hourPath) cur ≤ 8 := by
  unfold hoursBefore
  cases hdir : directory d.tree cwd (parentPath hourPath) with
  | none => exact Nat.zero_le 8
  | some loc =>
    have hloc : loc = location cwd base := (directory_location hdir).trans hdatePath
    rw [Option.elim_some, List.countP_eq_length_filter, ← List.length_map (f := Prod.fst)]
    refine le_trans (List.subperm_of_subset ?_ fun x hx => ?_).length_le
      (length_candidates cwd base hdate hhour)
    · refine List.Nodup.map_on (fun e he e' he' heq => Prod.ext heq ?_)
        ((d.tree.nodup_list loc).filter _)
      have hk := of_decide_eq_true (List.mem_filter.mp he).2
      have hk' := of_decide_eq_true (List.mem_filter.mp he').2
      exact hk.1.trans hk'.1.symm
    · obtain ⟨⟨x, k⟩, he, rfl⟩ := List.mem_map.mp hx
      obtain ⟨hmem, hkeep⟩ := List.mem_filter.mp he
      obtain ⟨rfl, -⟩ := of_decide_eq_true hkeep
      have hfolder : isDirectory d.tree (loc ++ [x]) = true := by
        rw [isDirectory, decide_eq_true_eq]
        exact .inr (d.tree.mem_list.mp hmem)
      obtain ⟨f, hf, hpre⟩ := (hb.folder.mp hfolder).resolve_left (by simp)
      exact mem_candidates hputs hbase hnever hself hdatePath hhourPath hf (hloc ▸ hpre)

/-- From the directory itself to the hour before. -/
theorem escapes_previousHour {rootPath datePath : Path} {prevHour : String}
    (hreach : Reachable d.tree cwd datePath)
    (hself : location cwd base = location cwd datePath ++ [filename hourPath])
    (hprev : d.previousHour cwd datePath (filename hourPath) = some prevHour) (n : ℕ) :
    Escapes d cwd previousDate base rootPath (n + 2) datePath hourPath := by
  have hplain := Disk.plain_previousHour hprev
  obtain ⟨loc, hdir, hlast⟩ := Option.bind_eq_some_iff.mp hprev
  obtain rfl := directory_location hdir
  obtain ⟨hmem, hlt, -⟩ := latestDir_eq_some hlast
  have hbeside : Reachable d.tree cwd (join datePath [prevHour]) := by
    refine hreach.join hplain ?_
    rw [isDirectory, decide_eq_true_eq]
    exact .inr hmem
  refine .next (nextFolder_of_previousHour hprev)
    (.here (hbeside.directory_eq (join_ne_nil (List.cons_ne_nil _ []))) fun hpre => ?_)
  rw [location_join hplain, hself, List.prefix_append_right_inj] at hpre
  exact (of_decide_eq_true hlt).ne (List.cons_prefix_cons.mp hpre).1.symm

/-- From the directory itself to the day before, whose name is longer than that of an hour. -/
theorem Baited.escapes_previousDate {folders : List (List String)} {ext : String}
    {rootPath datePath : Path} (hputs : PutsDate previousDate)
    (hb : Baited d folders (location cwd base) ext limit) (hroot : Reachable d.tree cwd rootPath)
    (hmem : location cwd rootPath ++ [previousDate (filename datePath), "99"] ∈ folders)
    (hself : location cwd base = location cwd rootPath ++ [filename hourPath])
    (hshort : (filename hourPath).toList.length < 5)
    (hprev : d.previousHour cwd datePath (filename hourPath) = none) (n : ℕ) :
    Escapes d cwd previousDate base rootPath (n + 2) datePath hourPath := by
  obtain ⟨latestHour, hlatest, hloc⟩ := hb.latest hroot (hputs.plain _) hmem
  refine .next (nextFolder_of_latest hprev hlatest) (.here hloc fun hpre => ?_)
  rw [hself, List.prefix_append_right_inj] at hpre
  have hlen := hputs.length (filename datePath)
  rw [← (List.cons_prefix_cons.mp hpre).1] at hlen
  omega

/-- **Out of the directory** from the directory itself. -/
theorem escapes_beside (hputs : PutsDate previousDate)
    (hb : Baited d (datetimeFolders cwd previousDate base hourPath hour) (location cwd base) ".mp4"
      limit)
    (hreach : Reachable d.tree cwd hourPath)
    (hself : location cwd base = location cwd (parentPath hourPath) ++ [filename hourPath])
    (hhourPath : location cwd hourPath = location cwd base) {root : Path}
    (hspelt : join root (parse hour) = hourPath) {a b : Char} (hhour : hour.toList = [a, b])
    (hnot : ¬ Within cwd base (parentPath hourPath)) (n : ℕ) :
    Escapes d cwd previousDate base (parentPath (parentPath hourPath)) (n + 2)
      (parentPath hourPath) hourPath := by
  have hreach' := hreach.start (parentPath_start hourPath)
  cases hprev : d.previousHour cwd (parentPath hourPath) (filename hourPath) with
  | some prevHour => exact escapes_previousHour hreach' hself hprev n
  | none =>
    have hleave : location cwd (parentPath (parentPath hourPath)) =
        location cwd (parentPath hourPath) → (filename hourPath).toList.length < 5 →
        Escapes d cwd previousDate base (parentPath (parentPath hourPath)) (n + 2)
          (parentPath hourPath) hourPath := fun hup hshort =>
      hb.escapes_previousDate hputs (hreach'.start (parentPath_start _))
        (List.mem_append_right _ (List.mem_cons_of_mem _ List.mem_cons_self)) (hup ▸ hself) hshort
        hprev n
    have hstay : location cwd (parentPath hourPath) ≠ location cwd hourPath := by
      intro heq
      refine hnot ?_
      rw [Within, heq, hhourPath]
    rcases parse_pair hhour with hparse | ⟨x, hx, hlen, hparse⟩ | ⟨x, hx, hparse⟩ | ⟨hparse, hslash⟩
    · rw [hparse] at hspelt
      obtain rfl : ["/"] = hourPath := hspelt
      exact absurd rfl hstay
    · rw [hparse] at hspelt
      obtain rfl : ["/", x] = hourPath := hspelt
      have hparent : parentPath ["/", x] = ["/"] := parentPath_concat (p := ["/"]) hx
      have hname : filename ["/", x] = x := filename_concat (p := ["/"]) hx
      refine hleave ?_ ?_
      · rw [hparent]
        rfl
      · rw [hname]
        omega
    · have hjoin : hourPath = withoutSlash root ++ [x] ++ [""] := by
        rw [← hspelt, hparse, join, if_neg (by simpa using hx), if_neg (List.cons_ne_nil _ _),
          List.append_assoc]
        rfl
      refine absurd ?_ hstay
      rw [hjoin, parentPath_concat (by decide), location_append [""]]
      rfl
    · have hx := ne_slash_of_noSlash hslash
      have hjoin : hourPath = withoutSlash root ++ [hour] := by
        rw [← hspelt, hparse, join, if_neg (by simpa using hx), if_neg (List.cons_ne_nil _ _)]
      have hname : filename hourPath = hour := hjoin ▸ filename_concat hx
      rw [hname] at hprev hleave
      by_cases hnil : parentPath hourPath = []
      · refine hleave ?_ ?_
        · rw [hnil]
          rfl
        · simp [hhour]
      · -- the name that sorts before the hour
        have hdir := hreach'.directory_eq hnil
        rw [Disk.previousHour, hdir, Option.bind_some] at hprev
        have hfolder : isDirectory d.tree
            (location cwd (parentPath hourPath) ++ [smaller hour]) = true :=
          hb.folder.mpr (.inr ⟨_, List.mem_append_right _ (by simp), List.prefix_refl _⟩)
        rw [isDirectory, decide_eq_true_eq] at hfolder
        have hkeep := latestDir_eq_none hprev (hfolder.resolve_left (by simp))
        exact absurd (smaller_lt hhour hslash) (of_decide_eq_false hkeep)

/-- **`FindFilesFromDatetime` leaves the directory** on some disk, unless the condition holds. -/
theorem exists_datetime_outside (hputs : PutsDate previousDate) (hcwd : ∀ x ∈ cwd, Plain x)
    (parseDatetime : String → ℤ) (hbaseFormed : Formed base) (hne' : base ≠ [])
    (hnever : NeverBelow cwd base) {basename : String} (h : ¬ DatetimeWithin cwd base basename) :
    ∃ (d : Disk) (p : Path),
      d.findFilesFromDatetime cwd previousDate parseDatetime base basename = some p ∧
        ¬ Confined cwd base p := by
  obtain ⟨hlong, hfolder⟩ := not_or.mp h
  have hdate : (String.ofList (basename.toList.take 8)).toList.length = 8 := by
    rw [String.toList_ofList, List.length_take]
    omega
  have hhour : (String.ofList ((basename.toList.drop 9).take 2)).toList.length = 2 := by
    rw [String.toList_ofList, List.length_take, List.length_drop]
    omega
  have hspelt : join (join base (parse (.ofList (basename.toList.take 8))))
      (parse (.ofList ((basename.toList.drop 9).take 2))) = Disk.hourPath base basename := rfl
  generalize String.ofList (basename.toList.take 8) = date at hdate hspelt
  generalize String.ofList ((basename.toList.drop 9).take 2) = hour at hhour hspelt
  obtain ⟨a, b, hpair⟩ := List.length_eq_two.mp hhour
  have hformed : Formed (Disk.hourPath base basename) :=
    hspelt ▸ (hbaseFormed.join (formed_parse _)).join (formed_parse _)
  have hne : Disk.hourPath base basename ≠ [] := by
    rw [← hspelt]
    refine join_ne_nil ?_
    rcases parse_pair hpair with heq | ⟨x, -, -, heq⟩ | ⟨x, -, heq⟩ | ⟨heq, -⟩ <;>
      exact heq ▸ List.cons_ne_nil _ _
  generalize hlimit : parseDatetime basename = limit
  obtain ⟨d, hb⟩ := exists_baited (datetimeFolders cwd previousDate base
    (Disk.hourPath base basename) hour) (plain_datetimeFolders hputs hcwd hbaseFormed hformed)
    (location cwd base) (by decide : '/' ∉ "a.mp4".toList) limit
  rw [(by decide : extension "a.mp4" = ".mp4")] at hb
  have hbaseReach : Reachable d.tree cwd base := hb.reachable fun f hf =>
    List.mem_append_left _ (List.mem_append_left _ hf)
  have hreach : Reachable d.tree cwd (Disk.hourPath base basename) := hb.reachable fun f hf =>
    List.mem_append_left _ (List.mem_append_right _ hf)
  have hnested : d.isNested cwd base = true := by
    have hmarker : isDirectory d.tree (location cwd base ++ ["00000000"]) = true :=
      hb.folder.mpr (.inr ⟨_, List.mem_append_right _ List.mem_cons_self, List.prefix_refl _⟩)
    rw [isDirectory, decide_eq_true_eq] at hmarker
    rw [Disk.isNested, hbaseReach.directory_eq hne']
    exact List.any_eq_true.mpr ⟨_, d.tree.mem_list.mpr (hmarker.resolve_left (by simp)), by decide⟩
  have hescapes : Escapes d cwd previousDate base
      (parentPath (parentPath (Disk.hourPath base basename))) 10
      (parentPath (Disk.hourPath base basename)) (Disk.hourPath base basename) := by
    by_cases hin : Within cwd base (Disk.hourPath base basename)
    · by_cases hup : Within cwd base (parentPath (Disk.hourPath base basename))
      · obtain ⟨hself, hdatePath⟩ := hup.eq_of_above hformed.parent fun hroot =>
          hfolder ⟨hin, hup, hroot⟩
        refine hb.escapes_date hputs (hreach.start
          ((parentPath_start _).trans (parentPath_start _))) ?_ hself ?_
        · exact List.mem_append_right _ (List.mem_cons_of_mem _ List.mem_cons_self)
        · exact Nat.add_le_add_right (hoursBefore_le hputs hbaseFormed hnever hb hself hdatePath
            hspelt hdate hhour _) 2
      · obtain ⟨hself, hhourPath⟩ := hin.eq_of_above hformed hup
        exact escapes_beside hputs hb hreach hself hhourPath hspelt hpair hup 8
    · exact .here (hreach.directory_eq hne) hin
  obtain ⟨p, hp, hout⟩ := hescapes.findFrom hputs.plain hb hformed rfl rfl
  refine ⟨d, p, ?_, hout⟩
  rw [Disk.findFilesFromDatetime, if_neg hlong]
  dsimp only
  rw [if_pos hnested, hlimit]
  exact hp

end Datetime

/-! ### Confined on every disk -/

/-- On no disk does `FindOlderFiles` return a path that leads out of the directory. -/
def OlderConfined (cwd : List String) (previousDate : String → String) (base file : Path) : Prop :=
  ∀ (d : Disk) (num fuel : ℕ) (paths : List Path),
    d.findOlderFiles cwd previousDate base file num fuel = some paths →
      ∀ p ∈ paths, Confined cwd base p

/-- Nor does `FindFilesFromDatetime`. -/
def DatetimeConfined (cwd : List String) (previousDate : String → String)
    (parseDatetime : String → ℤ) (base : Path) (basename : String) : Prop :=
  ∀ (d : Disk) (p : Path),
    d.findFilesFromDatetime cwd previousDate parseDatetime base basename = some p →
      Confined cwd base p

/-- **Which queries are confined.** The query for the latest file always is.  The other two are,
    on every disk, if the condition on the parameter holds, and only then, also where the directory
    is spelt with `".."`, as long as the spelling leads through no folder that the file does not
    need and through none below the directory. -/
theorem queries_confined_iff {cwd : List String} {previousDate : String → String}
    (hcwd : ∀ x ∈ cwd, Plain x) (hdate : PutsDate previousDate) (parseDatetime : String → ℤ)
    (searchDir parameter : String) :
    (∀ (d : Disk) (ext : String) (p : Path),
      d.findLatestCompleteFile cwd previousDate (parse searchDir) ext = some p →
        Confined cwd (parse searchDir) p) ∧
    (OlderWithin cwd (parse searchDir) (parse parameter) →
      OlderConfined cwd previousDate (parse searchDir) (parse parameter)) ∧
    (DatetimeWithin cwd (parse searchDir) parameter →
      DatetimeConfined cwd previousDate parseDatetime (parse searchDir) parameter) ∧
    (parse searchDir ≠ [] →
      ((location cwd (parentPath (parse parameter)) = location cwd (parse searchDir) →
          SpeltOn cwd (parse searchDir) (parse parameter)) →
        OlderConfined cwd previousDate (parse searchDir) (parse parameter) →
          OlderWithin cwd (parse searchDir) (parse parameter)) ∧
      (NeverBelow cwd (parse searchDir) →
        DatetimeConfined cwd previousDate parseDatetime (parse searchDir) parameter →
          DatetimeWithin cwd (parse searchDir) parameter)) := by
  have hbase := formed_parse searchDir
  refine ⟨fun d ext p h => Disk.findLatestCompleteFile_confined hdate.plain h,
    fun hwithin d num fuel paths h => ?_, fun hwithin d p h => ?_, fun hne =>
      ⟨fun hspelt h => ?_, fun hnever h => ?_⟩⟩
  · exact Disk.findOlderFiles_confined hdate.plain hbase (formed_parse parameter) hwithin h
  · exact Disk.findFilesFromDatetime_confined hdate.plain hbase hwithin h
  · by_contra hnot
    obtain ⟨d, fuel, p, hp, hout⟩ :=
      exists_older_outside hdate hcwd (formed_parse parameter) hne hspelt hnot
    exact hout (h d 1 fuel [p] hp p (List.mem_singleton_self p))
  · by_contra hnot
    obtain ⟨d, p, hp, hout⟩ :=
      exists_datetime_outside hdate hcwd parseDatetime hbase hne hnever hnot
    exact hout (h d p hp)

/-- What `GetPreviousDate` writes for a name that is no date, and the day before that. -/
def previousOfNoDate (s : String) : String :=
  if s = "18991230" then "18991229" else "18991230"

theorem putsDate_previousOfNoDate : PutsDate previousOfNoDate where
  plain s := by unfold previousOfNoDate; split_ifs <;> decide
  length s := by unfold previousOfNoDate; split_ifs <;> decide
  earlier s := by
    unfold previousOfNoDate
    split_ifs with h
    · exact h ▸ by decide
    · exact Ne.symm h

/-- A file of the directory is asked for, also where the directory is spelt with `".."`. -/
theorem queries_confined_ownFile :
    OlderConfined [] previousOfNoDate (parse "/rec/") (parse "/rec/20260101/10/b.mp4") ∧
    OlderConfined [] previousOfNoDate (parse "/app/../rec/") (parse "/app/../rec/b.mp4") := by
  have hdir : parse "/app/../rec/" = ["/", "app", "..", "rec"] ++ [""] := by decide
  have hfile : parse "/app/../rec/b.mp4" = ["/", "app", "..", "rec"] ++ ["b.mp4"] := by decide
  constructor
  · exact (queries_confined_iff (by decide) putsDate_previousOfNoDate (fun _ => 0) "/rec/"
      "/rec/20260101/10/b.mp4").2.1 (.inr (.inr ⟨by decide, by decide, by decide⟩))
  · refine (queries_confined_iff (by decide) putsDate_previousOfNoDate (fun _ => 0)
      "/app/../rec/" "/app/../rec/b.mp4").2.1 (.inr (.inl ⟨by decide, .inr ?_, by decide⟩))
    rw [hdir, hfile]
    exact speltAlong_concat [] _ "" (by decide)

/-- A directory for recordings, and two files elsewhere. -/
def otherFiles : Disk where
  tree := {
    entries := [(["rec"], .directory), (["home"], .directory), (["home", "pi"], .directory),
      (["home", "pi", "a.mp4"], .regular), (["home", "pi", "b.mp4"], .regular)]
    nodup := by decide
    nonroot := by decide
    rooted := by decide }
  lastWriteTime p := if p = ["home", "pi", "b.mp4"] then 2 else 1
  plain := by decide

/-- A file that lies elsewhere is asked for. -/
theorem not_olderConfined_otherFile :
    ¬ OlderConfined [] previousOfNoDate (parse "/rec/") (parse "/home/pi/b.mp4") := by
  intro h
  have hfound : otherFiles.findOlderFiles [] previousOfNoDate (parse "/rec/")
      (parse "/home/pi/b.mp4") 8 2 = some [["/", "home", "pi", "a.mp4"]] := by decide
  exact absurd (h otherFiles 8 2 _ hfound _ (List.mem_singleton_self _)).1 (by decide)

end PiWebrtc.Recorder
