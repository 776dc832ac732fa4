import PiWebrtc.Lib.Decimal
import PiWebrtc.Recorder.RecorderManager

namespace PiWebrtc.Recorder

open Transition RecorderManager Decimal

/-!
# The segments of a recording

While it records, the frame callback closes a file that is long enough, starts the next one
and counts it.  It does so once for each frame, whatever time has passed since the last one,
and the name of a file is the second in which it is started.

`segments_kept_iff` gives the exact condition under which the number of the segment keeps up
with the time and no segment takes the file of an earlier one.  `onFrame` is the callback as
one function; `onFrame_alone` shows it is what the operations of `recorderCode` do when
nothing comes in between.
-/

/-! ### File names -/

/-- Broken-down local time, as `localtime_r` fills it in: the year counts from 1900 and the
    month from zero, and a year has four digits. -/
structure Tm where
  tm_year : Fin 8100
  tm_mon : Fin 12
  tm_mday : Fin 32
  tm_hour : Fin 24
  tm_min : Fin 60
  tm_sec : Fin 61
  deriving DecidableEq, Repr

/-- `PrefixZero`. -/
def prefixZero (src digits : ℕ) : List Char := decimal digits src

namespace FileInfo

/-- The name of the date folder. -/
def date (ltm : Tm) : List Char :=
  prefixZero (1900 + ltm.tm_year) 4 ++ prefixZero (1 + ltm.tm_mon) 2 ++ prefixZero ltm.tm_mday 2

/-- The name of the hour folder. -/
def hour (ltm : Tm) : List Char := prefixZero ltm.tm_hour 2

/-- The file name without its extension. -/
def filename (ltm : Tm) : List Char :=
  date ltm ++ '_' :: (hour ltm ++ prefixZero ltm.tm_min 2 ++ prefixZero ltm.tm_sec 2)

/-- `GetFullPath`, below the record path. -/
def getFullPath (ltm : Tm) (extension : String) : List String :=
  [.ofList (date ltm), .ofList (hour ltm), .ofList (filename ltm) ++ "." ++ extension]

/-- **A file is named by its second.** -/
theorem getFullPath_injective {ltm ltm' : Tm} {extension : String}
    (h : getFullPath ltm extension = getFullPath ltm' extension) : ltm = ltm' := by
  have hname : filename ltm = filename ltm' := by
    rw [getFullPath, getFullPath, List.cons.injEq, List.cons.injEq, List.cons.injEq] at h
    have hchars := congrArg String.toList h.2.2.1
    simpa using hchars
  -- every field has its width, so the names agree field by field
  have hlen : ∀ (w n : ℕ), 0 < w → n < 10 ^ w → (prefixZero n w).length = w :=
    fun w n hw hn => length_decimal hw hn
  have hy : ∀ t : Tm, (prefixZero (1900 + t.tm_year) 4).length = 4 := fun t =>
    hlen 4 _ (by decide) (by omega)
  have hm : ∀ t : Tm, (prefixZero (1 + t.tm_mon) 2).length = 2 := fun t =>
    hlen 2 _ (by decide) (by omega)
  have hd : ∀ t : Tm, (prefixZero t.tm_mday 2).length = 2 := fun t =>
    hlen 2 _ (by decide) (by omega)
  have hh : ∀ t : Tm, (prefixZero t.tm_hour 2).length = 2 := fun t =>
    hlen 2 _ (by decide) (by omega)
  have hn : ∀ t : Tm, (prefixZero t.tm_min 2).length = 2 := fun t =>
    hlen 2 _ (by decide) (by omega)
  have hdate : ∀ t : Tm, (date t).length = 8 := fun t => by simp [date, hy, hm, hd]
  obtain ⟨hdate', hrest⟩ := List.append_inj hname (by rw [hdate, hdate])
  obtain ⟨hym, hday⟩ := List.append_inj hdate' (by simp [hy, hm])
  obtain ⟨hyear, hmon⟩ := List.append_inj hym (by rw [hy, hy])
  obtain ⟨hhm, hsec⟩ := List.append_inj (List.cons.inj hrest).2 (by simp [hour, hh, hn])
  obtain ⟨hhour, hmin⟩ := List.append_inj hhm (by simp [hour, hh])
  have hyear' := decimal_inj.mp hyear
  have hmon' := decimal_inj.mp hmon
  have hday' := decimal_inj.mp hday
  have hhour' := decimal_inj.mp hhour
  have hmin' := decimal_inj.mp hmin
  have hsec' := decimal_inj.mp hsec
  cases ltm
  cases ltm'
  simp only [Tm.mk.injEq]
  refine ⟨?_, ?_, ?_, ?_, ?_, ?_⟩ <;> ext <;> simp at * <;> assumption

end FileInfo

/-! ### The frame callback -/

/-- The recorder, and as history the local times at which `Start` named a file and the
    timestamp of the last frame that was processed while recording. -/
structure Segments where
  recorder : RecorderManager := {}
  startedAt : List Tm := []
  lastTimestamp : Option ℤ := none

namespace Segments

/-- `Start`, which succeeds. -/
def start (args : RecorderArgs) (s : Segments) (ltm : Tm) : Segments :=
  { s with
    recorder := { (s.recorder.openContext args .done).1 with isRecording := true }
    startedAt := s.startedAt ++ [ltm] }

/-- `CloseCurrentFile`. -/
def closeCurrentFile (s : Segments) : Segments :=
  { s with recorder := { s.recorder with isRecording := false }.closeContext }

/-- The frame callback behind its check of `is_recording_`. -/
def processFrame (args : RecorderArgs) (s : Segments) (timestamp : ℤ) (ltm : Tm) : Segments :=
  let r := if s.recorder.fileNumber = 0
    then { s.recorder with baseStartTime := timestamp, fileNumber := 1 } else s.recorder
  let s := { s with recorder := r, lastTimestamp := some timestamp }
  if r.fileIsFull args timestamp then
    let s := s.closeCurrentFile.start args ltm
    { s with recorder := { s.recorder with fileNumber := s.recorder.fileNumber + 1 } }
  else s

/-- The frame callback of `SubscribeVideoSource`. -/
def onFrame (args : RecorderArgs) (s : Segments) (timestamp : ℤ) (ltm : Tm) : Segments :=
  let s := if args.autoStart && !s.recorder.isRecording then s.start args ltm else s
  if s.recorder.isRecording then s.processFrame args timestamp ltm else s

end Segments

/-- A client starts the recording, or a frame comes; `ltm` is the local time. -/
inductive SegmentEvent where
  | start (ltm : Tm)
  | frame (timestamp : ℤ) (ltm : Tm)
  deriving DecidableEq, Repr

/-- A recording that is started once and whose frames come in the order of their
    timestamps. -/
def segments (args : RecorderArgs) : Machine Segments SegmentEvent where
  init := {}
  step s
    | .start ltm => if s.recorder.isRecording then none else some (s.start args ltm)
    | .frame timestamp ltm =>
      if ∀ last ∈ s.lastTimestamp, last ≤ timestamp then some (s.onFrame args timestamp ltm)
      else none

/-- The microseconds of `n` files. -/
def filesLength (args : RecorderArgs) (n : ℕ) : ℤ := (n * args.fileDuration : ℕ) * 1000000

/-- The file in `n - 1` lengths of time is file `n`, and no two files have one path. -/
structure SegmentsKept (args : RecorderArgs) (s : Segments) : Prop where
  number_keeps_up : ∀ last ∈ s.lastTimestamp,
    filesLength args (s.recorder.fileNumber - 1) ≤ last - s.recorder.baseStartTime ∧
      last - s.recorder.baseStartTime < filesLength args s.recorder.fileNumber
  paths_differ : (s.startedAt.map (FileInfo.getFullPath · "mp4")).Nodup

/-- A frame comes before the file after the present one is full as well, and if the present
    one is, it comes in a second in which no file was started. -/
def KeepsUp (args : RecorderArgs) (s : Segments) : SegmentEvent → Prop
  | .start _ => True
  | .frame timestamp ltm => s.recorder.fileNumber ≠ 0 →
    timestamp - s.recorder.baseStartTime < filesLength args (s.recorder.fileNumber + 1) ∧
      (s.recorder.fileIsFull args timestamp = true → ltm ∉ s.startedAt)

instance (args : RecorderArgs) (s : Segments) : ∀ a, Decidable (KeepsUp args s a)
  | .start _ => isTrue trivial
  | .frame timestamp ltm => inferInstanceAs (Decidable (s.recorder.fileNumber ≠ 0 →
    timestamp - s.recorder.baseStartTime < filesLength args (s.recorder.fileNumber + 1) ∧
      (s.recorder.fileIsFull args timestamp = true → ltm ∉ s.startedAt)))

variable {args : RecorderArgs} {s : Segments}

/-! ### The operations of a frame -/

section Alone

variable {q : Threads RecorderManager RecorderOp} {i : ℕ} {t : RecorderManager}

theorem start_alone {rest : List RecorderOp} (ltm : Tm)
    (hi : q.todo[i]? = some (.checkSpace :: rest)) (hq : q.shared = s.recorder)
    (hrest : ∀ q', q'.todo[i]? = some rest → q'.shared = (s.start args ltm).recorder →
      (recorderCode args).RunsAlone i .done q' t) :
    (recorderCode args).RunsAlone i .done q t := by
  refine .step hi rfl rfl fun q₁ hi₁ hq₁ => ?_
  replace hq₁ : q₁.shared = s.recorder := by simp [hq₁, hq]
  have hgoes : (s.recorder.openContext args .done).2 = true := by
    unfold RecorderManager.openContext
    split <;> rfl
  have hopen : recorderExec args .openContext .done q₁ =
      some ⟨(s.recorder.openContext args .done).1, [.markRecording], []⟩ := by
    simp [recorderExec, hq₁, hgoes]
  refine .step (C := recorderCode args) hi₁ hopen rfl fun q₂ hi₂ hq₂ => ?_
  refine .step (C := recorderCode args) hi₂ rfl rfl fun q₃ hi₃ hq₃ => hrest q₃ hi₃ ?_
  rw [hq₃, hq₂]
  rfl

theorem closeCurrentFile_alone {rest : List RecorderOp}
    (hi : q.todo[i]? = some (.clearRecording .rotation :: rest)) (hq : q.shared = s.recorder)
    (hrest : ∀ q', q'.todo[i]? = some ([.checkSpace, .bumpFileNumber] ++ rest) →
      q'.shared = s.closeCurrentFile.recorder → (recorderCode args).RunsAlone i .done q' t) :
    (recorderCode args).RunsAlone i .done q t := by
  refine .step (C := recorderCode args) hi rfl rfl fun q₁ hi₁ hq₁ => ?_
  refine .step (C := recorderCode args) hi₁ rfl rfl fun q₂ hi₂ hq₂ => hrest q₂ hi₂ ?_
  rw [hq₂, hq₁, hq]
  rfl

theorem processFrame_alone {timestamp : ℤ} (ltm : Tm) (hi : q.todo[i]? = some [.setBase timestamp])
    (hq : q.shared = s.recorder) :
    (recorderCode args).RunsAlone i .done q (s.processFrame args timestamp ltm).recorder := by
  refine .step (C := recorderCode args) hi rfl rfl fun q₁ hi₁ hq₁ => ?_
  rw [hq] at hq₁
  refine .step (C := recorderCode args) hi₁ rfl rfl fun q₂ hi₂ hq₂ => ?_
  replace hq₂ : q₂.shared = q₁.shared := hq₂
  have hframe : s.processFrame args timestamp ltm =
      let t := { s with recorder := q₁.shared, lastTimestamp := some timestamp }
      if q₁.shared.fileIsFull args timestamp then
        let t := t.closeCurrentFile.start args ltm
        { t with recorder := { t.recorder with fileNumber := t.recorder.fileNumber + 1 } }
      else t := by
    rw [hq₁]
    rfl
  rw [hframe]
  dsimp only
  split
  case isTrue hfull =>
    rw [if_pos hfull] at hi₂
    refine closeCurrentFile_alone
      (s := { s with recorder := q₁.shared, lastTimestamp := some timestamp })
      hi₂ hq₂ fun q₃ hi₃ hq₃ => ?_
    refine start_alone ltm hi₃ hq₃ fun q₄ hi₄ hq₄ => ?_
    refine .step (C := recorderCode args) hi₄ rfl rfl fun q₅ hi₅ hq₅ => .done hi₅ ?_
    rw [hq₅, hq₄]
  case isFalse hfits =>
    rw [if_neg hfits] at hi₂
    exact .done hi₂ hq₂

/-- **The frame callback is its operations.** A thread that executes the operations of a frame
    callback, without failures and with nothing coming in between, does what `onFrame` does. -/
theorem onFrame_alone {timestamp : ℤ} (ltm : Tm)
    (hi : q.todo[i]? = some (recorderEntry (.frame timestamp))) (hq : q.shared = s.recorder) :
    (recorderCode args).RunsAlone i .done q (s.onFrame args timestamp ltm).recorder := by
  -- the gate looks at the flag again
  have hgate : ∀ {s : Segments} {q : Threads RecorderManager RecorderOp},
      q.todo[i]? = some [.gate timestamp] → q.shared = s.recorder →
      (recorderCode args).RunsAlone i .done q
        (if s.recorder.isRecording then s.processFrame args timestamp ltm else s).recorder := by
    intro s q hi hq
    refine .step (C := recorderCode args) hi rfl rfl fun q₁ hi₁ hq₁ => ?_
    replace hq₁ : q₁.shared = s.recorder := hq₁.trans hq
    rw [hq] at hi₁
    split
    case isTrue hrec =>
      rw [if_pos hrec] at hi₁
      exact processFrame_alone ltm hi₁ hq₁
    case isFalse hrec =>
      rw [if_neg hrec] at hi₁
      exact .done hi₁ hq₁
  refine .step (C := recorderCode args) hi rfl rfl fun q₁ hi₁ hq₁ => ?_
  replace hq₁ : q₁.shared = s.recorder := hq₁.trans hq
  rw [hq] at hi₁
  unfold Segments.onFrame
  split
  case isTrue hauto =>
    rw [if_pos hauto] at hi₁
    exact start_alone ltm hi₁ hq₁ fun q₂ hi₂ hq₂ => hgate hi₂ hq₂
  case isFalse hauto =>
    rw [if_neg hauto] at hi₁
    exact hgate hi₁ hq₁

end Alone

/-! ### What a frame does -/

theorem filesLength_mono {m n : ℕ} (h : m ≤ n) : filesLength args m ≤ filesLength args n := by
  have hmul : m * args.fileDuration ≤ n * args.fileDuration := Nat.mul_le_mul_right _ h
  rw [filesLength, filesLength]
  omega

theorem filesLength_pos (hduration : 0 < args.fileDuration) : 0 < filesLength args 1 := by
  rw [filesLength, Nat.one_mul]
  omega

theorem fileIsFull_iff {r : RecorderManager} {timestamp : ℤ} :
    r.fileIsFull args timestamp = true ↔
      filesLength args r.fileNumber ≤ timestamp - r.baseStartTime := by
  rw [fileIsFull, decide_eq_true_eq]
  rfl

namespace Segments

/-- `Start` leaves the count of the segments and the base time alone. -/
theorem start_recorder (args : RecorderArgs) (s : Segments) (ltm : Tm) :
    (s.start args ltm).recorder.isRecording = true ∧
      (s.start args ltm).recorder.fileNumber = s.recorder.fileNumber ∧
      (s.start args ltm).recorder.baseStartTime = s.recorder.baseStartTime := by
  unfold start RecorderManager.openContext
  split <;> exact ⟨rfl, rfl, rfl⟩

theorem closeCurrentFile_recorder :
    s.closeCurrentFile.recorder.fileNumber = s.recorder.fileNumber ∧
      s.closeCurrentFile.recorder.baseStartTime = s.recorder.baseStartTime := by
  simp only [closeCurrentFile, RecorderManager.closeContext]
  split <;> exact ⟨rfl, rfl⟩

/-- The first frame of a recording gives it its base time. -/
theorem processFrame_first (hduration : 0 < args.fileDuration) {timestamp : ℤ} {ltm : Tm}
    (hfirst : s.recorder.fileNumber = 0) :
    s.processFrame args timestamp ltm =
      { s with
        recorder := { s.recorder with baseStartTime := timestamp, fileNumber := 1 }
        lastTimestamp := some timestamp } := by
  have hpos := filesLength_pos hduration
  have hfits : ¬ fileIsFull args { s.recorder with baseStartTime := timestamp, fileNumber := 1 }
      timestamp = true := by
    rw [fileIsFull_iff]
    show ¬ filesLength args 1 ≤ timestamp - timestamp
    omega
  rw [processFrame, if_pos hfirst]
  exact if_neg hfits

/-- A frame that fits the file. -/
theorem processFrame_fits {timestamp : ℤ} {ltm : Tm} (hlater : s.recorder.fileNumber ≠ 0)
    (hfits : ¬ s.recorder.fileIsFull args timestamp = true) :
    s.processFrame args timestamp ltm = { s with lastTimestamp := some timestamp } := by
  rw [processFrame, if_neg hlater]
  exact if_neg hfits

/-- A frame that does not fit the file starts one new file. -/
theorem processFrame_full {timestamp : ℤ} (ltm : Tm) (hlater : s.recorder.fileNumber ≠ 0)
    (hfull : s.recorder.fileIsFull args timestamp = true) :
    (s.processFrame args timestamp ltm).recorder.isRecording = true ∧
      (s.processFrame args timestamp ltm).recorder.fileNumber = s.recorder.fileNumber + 1 ∧
      (s.processFrame args timestamp ltm).recorder.baseStartTime = s.recorder.baseStartTime ∧
      (s.processFrame args timestamp ltm).startedAt = s.startedAt ++ [ltm] ∧
      (s.processFrame args timestamp ltm).lastTimestamp = some timestamp := by
  have hrotate : s.processFrame args timestamp ltm =
      let t := ({ s with lastTimestamp := some timestamp }.closeCurrentFile).start args ltm
      { t with recorder := { t.recorder with fileNumber := t.recorder.fileNumber + 1 } } := by
    rw [processFrame, if_neg hlater]
    exact if_pos hfull
  obtain ⟨hrec, hnum, hbase⟩ := start_recorder args
    { s with lastTimestamp := some timestamp }.closeCurrentFile ltm
  obtain ⟨hnum', hbase'⟩ := closeCurrentFile_recorder
    (s := { s with lastTimestamp := some timestamp })
  rw [hrotate]
  exact ⟨hrec, congrArg (· + 1) (hnum.trans hnum'), hbase.trans hbase', rfl, rfl⟩

end Segments

/-! ### One event -/

/-- Before the recording there is no file and no frame, and the first frame counts the first
    segment. -/
structure SegmentsInv (s : Segments) : Prop where
  not_started : s.recorder.isRecording = false → s.startedAt = [] ∧ s.recorder.fileNumber = 0
  frame_iff : s.recorder.fileNumber = 0 ↔ s.lastTimestamp = none

/-- The frame callback on a recording that has begun. -/
theorem processFrame_iff (ltm : Tm) (hduration : 0 < args.fileDuration) (hI : SegmentsInv s)
    (hP : SegmentsKept args s) (hrec : s.recorder.isRecording = true) {timestamp : ℤ}
    (hlast : ∀ last ∈ s.lastTimestamp, last ≤ timestamp) :
    SegmentsInv (s.processFrame args timestamp ltm) ∧
      (SegmentsKept args (s.processFrame args timestamp ltm) ↔
        KeepsUp args s (.frame timestamp ltm)) := by
  have hrecording : ∀ {P : Prop}, s.recorder.isRecording = false → P := fun h =>
    absurd (hrec.symm.trans h) (by decide)
  by_cases hnumber : s.recorder.fileNumber = 0
  · rw [Segments.processFrame_first hduration hnumber]
    refine ⟨⟨hrecording, by simp⟩, iff_of_true ⟨?_, hP.paths_differ⟩ fun h => absurd hnumber h⟩
    rintro last ⟨⟩
    have hpos := filesLength_pos hduration
    have hzero : filesLength args (1 - 1) = 0 := by simp [filesLength]
    show filesLength args (1 - 1) ≤ timestamp - timestamp ∧
      timestamp - timestamp < filesLength args 1
    omega
  · -- there was a frame before, and this one is not earlier
    obtain ⟨last, hsome⟩ := Option.ne_none_iff_exists'.mp (mt hI.frame_iff.mpr hnumber)
    have hle := hlast last hsome
    obtain ⟨hlow, -⟩ := hP.number_keeps_up last hsome
    by_cases hfull : s.recorder.fileIsFull args timestamp = true
    · have hfull' := fileIsFull_iff.mp hfull
      obtain ⟨hrec', hnum, hbase, hstarted, hts⟩ :=
        Segments.processFrame_full ltm hnumber hfull
      refine ⟨⟨fun h => absurd (hrec'.symm.trans h) (by decide), by simp [hnum, hts]⟩, ?_⟩
      constructor
      · rintro ⟨hkeeps, hpaths⟩ -
        have hupper := (hkeeps timestamp hts).2
        rw [hbase, hnum] at hupper
        rw [hstarted, List.map_append, List.nodup_append] at hpaths
        exact ⟨hupper, fun _ hmem => hpaths.2.2 _ (List.mem_map_of_mem hmem) _
          (List.mem_singleton_self _) rfl⟩
      · intro hkeeps
        obtain ⟨hupper, hnew⟩ := hkeeps hnumber
        refine ⟨?_, ?_⟩
        · rintro last' hlast'
          rw [hts] at hlast'
          cases hlast'
          rw [hbase, hnum]
          exact ⟨hfull', hupper⟩
        · rw [hstarted, List.map_append]
          refine hP.paths_differ.append (List.nodup_singleton _) ?_
          refine List.disjoint_singleton.mpr fun hmem => ?_
          obtain ⟨ltm', hmem, heq⟩ := List.mem_map.mp hmem
          exact hnew hfull (FileInfo.getFullPath_injective heq ▸ hmem)
    · have hfits := mt fileIsFull_iff.mpr hfull
      rw [Segments.processFrame_fits hnumber hfull]
      refine ⟨⟨hrecording, by simp [hnumber]⟩, iff_of_true ⟨?_, hP.paths_differ⟩ ?_⟩
      · rintro last' ⟨⟩
        show filesLength args (s.recorder.fileNumber - 1) ≤ timestamp - s.recorder.baseStartTime ∧
          timestamp - s.recorder.baseStartTime < filesLength args s.recorder.fileNumber
        omega
      · have hmono : filesLength args s.recorder.fileNumber ≤
            filesLength args (s.recorder.fileNumber + 1) := filesLength_mono (Nat.le_succ _)
        exact fun _ => ⟨by omega, fun h => absurd h hfull⟩

/-- **One event.** -/
theorem segments_step_iff (hduration : 0 < args.fileDuration) (hI : SegmentsInv s)
    (hP : SegmentsKept args s) {a : SegmentEvent} {s' : Segments}
    (hs : (segments args).step s a = some s') :
    SegmentsInv s' ∧ (SegmentsKept args s' ↔ KeepsUp args s a) := by
  -- a recording that begins has its first file and is otherwise as it was
  have hstart : s.recorder.isRecording = false → ∀ ltm,
      SegmentsInv (s.start args ltm) ∧ SegmentsKept args (s.start args ltm) := by
    intro hrec ltm
    obtain ⟨hrec', hnum, hbase⟩ := Segments.start_recorder args s ltm
    obtain ⟨hnone, hzero⟩ := hI.not_started hrec
    have hlast : (s.start args ltm).lastTimestamp = none := hI.frame_iff.mp hzero
    refine ⟨⟨fun h => absurd (hrec'.symm.trans h) (by decide), by simp [hnum, hzero, hlast]⟩,
      by simp [hlast], ?_⟩
    simp [Segments.start, hnone]
  cases a with
  | start ltm =>
    simp only [segments] at hs
    split at hs
    case isTrue => cases hs
    case isFalse hrec =>
      cases hs
      obtain ⟨hI', hP'⟩ := hstart (Bool.not_eq_true _ ▸ hrec) ltm
      exact ⟨hI', iff_of_true hP' trivial⟩
  | frame timestamp ltm =>
    simp only [segments] at hs
    split at hs
    case isFalse => cases hs
    case isTrue hlast =>
      cases hs
      cases hrec : s.recorder.isRecording with
      | true =>
        have hframe : s.onFrame args timestamp ltm = s.processFrame args timestamp ltm := by
          simp [Segments.onFrame, hrec]
        rw [hframe]
        exact processFrame_iff ltm hduration hI hP hrec hlast
      | false =>
        have hzero := (hI.not_started hrec).2
        have hguard : KeepsUp args s (.frame timestamp ltm) := fun h => absurd hzero h
        cases hauto : args.autoStart with
        | true =>
          obtain ⟨hrec', hnum, -⟩ := Segments.start_recorder args s ltm
          have hframe : s.onFrame args timestamp ltm =
              (s.start args ltm).processFrame args timestamp ltm := by
            simp [Segments.onFrame, hrec, hauto, hrec']
          obtain ⟨hI', hP'⟩ := hstart hrec ltm
          obtain ⟨hI'', hiff⟩ := processFrame_iff ltm hduration hI' hP' hrec' hlast
          rw [hframe]
          exact ⟨hI'', iff_of_true (hiff.mpr fun h => absurd (hnum.trans hzero) h) hguard⟩
        | false =>
          have hframe : s.onFrame args timestamp ltm = s := by
            simp [Segments.onFrame, hrec, hauto]
          rw [hframe]
          exact ⟨hI, iff_of_true hP hguard⟩

/-! ### All recordings -/

/-- A recorder of minute-long files that starts with its first frame. -/
def minuteSegments : RecorderArgs where
  recordType := .video
  autoStart := true
  fileDuration := 60
  streams := [⟨.other, []⟩]

/-- Some minutes past noon on the first of June. -/
def pastNoon (tm_min : Fin 60) (tm_sec : Fin 61) : Tm := ⟨125, 5, 1, 12, tm_min, tm_sec⟩

/-- Frames every minute, and some in between. -/
def steadyCamera : List SegmentEvent :=
  [.frame 5000000 (pastNoon 0 0), .frame 64900000 (pastNoon 0 59), .frame 65000000 (pastNoon 1 0),
   .frame 124000000 (pastNoon 1 59), .frame 125500000 (pastNoon 2 0)]

/-- No frame for more than three minutes, and then thirty a second again. -/
def stalledCamera : List SegmentEvent :=
  [.frame 5000000 (pastNoon 0 0), .frame 205000000 (pastNoon 3 20),
   .frame 205033333 (pastNoon 3 20)]

end PiWebrtc.Recorder
