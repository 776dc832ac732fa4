import Mathlib.Data.List.DropRight
import Mathlib.Data.List.Forall2

namespace ConfigFormat

/-!
# A text format for settings

A line `name=value` is a setting, a line `[section]` puts the section in front of the names that
follow, `#` begins a comment, and blanks around a line, a name and a value do not count.

* `read_write_iff` — settings that are written as they are, a line for each, are read back
  exactly if all of them are plain.
* `read_write_of_plainName` — with plain names, values of one line are read up to the first `#`.
-/

/-- A name and its value. -/
abbrev Setting := List Char × List Char

/-! ### Lines -/

def isBlank (c : Char) : Bool := c = ' ' ∨ c = '\t' ∨ c = '\r' ∨ c = '\n'

/-- A text without the blanks around it. -/
def trim (s : List Char) : List Char := (s.dropWhile isBlank).rdropWhile isBlank

/-- What a line says. -/
inductive Line where
  | blank
  /-- What is put in front of the names that follow. -/
  | heading (sec : List Char)
  | setting (name value : List Char)
  | unrecognized
  deriving DecidableEq, Repr

/-- The name of a section ends with a dot. -/
def endDot (name : List Char) : List Char :=
  if name.getLast? = some '.' then name else name ++ ['.']

/-- A line without its comment and the blanks around it. -/
def lineText (line : List Char) : List Char := trim (line.takeWhile (· ≠ '#'))

/-- What a line says, from its text. -/
def readText (s : List Char) : Line :=
  if s = [] then .blank
  else if s.head? = some '[' ∧ s.getLast? = some ']' then .heading (endDot s.tail.dropLast)
  else if '=' ∈ s then
    .setting (trim (s.takeWhile (· ≠ '='))) (trim (s.dropWhile (· ≠ '=')).tail)
  else .unrecognized

/-- What a line says. -/
def readLine (line : List Char) : Line := readText (lineText line)

/-- The lines of a text; the last one need not be ended. -/
def lines : List Char → List (List Char)
  | [] => []
  | c :: cs =>
    if c = '\n' then [] :: lines cs
    else
      match lines cs with
      | [] => [[c]]
      | line :: rest => (c :: line) :: rest

/-- The settings of some lines in a section; `none` if a line cannot be read. -/
def readLines : List Char → List (List Char) → Option (List Setting)
  | _, [] => some []
  | sec, line :: rest =>
    match readLine line with
    | .blank => readLines sec rest
    | .heading sec' => readLines sec' rest
    | .setting name value => (readLines sec rest).map ((sec ++ name, value) :: ·)
    | .unrecognized => none

/-- The settings of a text. -/
def read (text : List Char) : Option (List Setting) := readLines [] (lines text)

/-- The text of a setting. -/
def settingText (o : Setting) : List Char := o.1 ++ '=' :: o.2

/-- Settings, a line for each. -/
def write (os : List Setting) : List Char := os.flatMap fun o => settingText o ++ ['\n']

/-! ### Blanks -/

section Trim

variable {s : List Char} {c : Char}

theorem trim_eq_self (hhead : ∀ c ∈ s.head?, isBlank c = false)
    (hlast : ∀ c ∈ s.getLast?, isBlank c = false) : trim s = s := by
  cases s with
  | nil => rfl
  | cons c cs =>
    have hc : ¬ isBlank c = true := Bool.eq_false_iff.mp (hhead c rfl)
    rw [trim, List.dropWhile_cons_of_neg hc, List.rdropWhile_eq_self_iff]
    intro hne
    exact Bool.eq_false_iff.mp (hlast _ (List.getLast?_eq_some_getLast hne))

theorem mem_of_mem_trim (h : c ∈ trim s) : c ∈ s :=
  (List.dropWhile_suffix _).mem ((List.rdropWhile_prefix _ _).mem h)

/-- A trimmed text begins with no blank. -/
theorem head_trim (h : c ∈ (trim s).head?) : isBlank c = false := by
  obtain ⟨cs, hcs⟩ := List.rdropWhile_prefix isBlank (s.dropWhile isBlank)
  have hhead : (s.dropWhile isBlank).head? = some c := by
    have hc : (List.rdropWhile isBlank (s.dropWhile isBlank)).head? = some c := h
    rw [← hcs, List.head?_append, hc, Option.some_or]
  have hnot := List.head?_dropWhile_not isBlank s
  rw [hhead] at hnot
  exact hnot

/-- Nor does it end with one. -/
theorem last_trim (h : c ∈ (trim s).getLast?) : isBlank c = false := by
  have hne : trim s ≠ [] := by
    intro hnil
    rw [hnil] at h
    cases h
  have hlast := List.rdropWhile_last_not isBlank (s.dropWhile isBlank) hne
  rw [List.getLast?_eq_some_getLast hne, Option.mem_some_iff] at h
  exact h ▸ Bool.eq_false_iff.mpr hlast

theorem trim_trim (s : List Char) : trim (trim s) = trim s :=
  trim_eq_self (fun _ h => head_trim h) fun _ h => last_trim h

/-- A blank at the end does not count. -/
theorem trim_concat (hc : isBlank c = true) (s : List Char) : trim (s ++ [c]) = trim s := by
  rw [trim, trim, List.dropWhile_append]
  split_ifs with hnil
  · rw [List.isEmpty_iff.mp hnil, List.dropWhile_cons_of_pos hc]
    rfl
  · exact List.rdropWhile_concat_pos _ _ _ hc

theorem trim_rdropWhile (s : List Char) : trim (s.rdropWhile isBlank) = trim s := by
  induction s using List.reverseRecOn with
  | nil => rfl
  | append_singleton cs c ih =>
    rw [List.rdropWhile_concat]
    split_ifs with hc
    · rw [ih, trim_concat hc]
    · rfl

end Trim

/-! ### One line -/

section Text

variable {o : Setting} {s line name value : List Char} {c : Char}

/-- **A plain setting**: its line is neither cut nor a heading, and neither the name nor the value
    has blanks around it. -/
structure Plain (o : Setting) : Prop where
  oneLine : '\n' ∉ settingText o
  uncommented : '#' ∉ settingText o
  separated : '=' ∉ o.1
  trimmedName : trim o.1 = o.1
  trimmedValue : trim o.2 = o.2
  noHeading : ¬ (o.1.head? = some '[' ∧ o.2.getLast? = some ']')

theorem settingText_ne_nil (o : Setting) : settingText o ≠ [] :=
  List.append_ne_nil_of_right_ne_nil _ (List.cons_ne_nil _ _)

theorem mem_settingText : c ∈ settingText o ↔ c ∈ o.1 ∨ c = '=' ∨ c ∈ o.2 := by
  rw [settingText, List.mem_append, List.mem_cons]

/-- The first character is that of the name, or the separator. -/
theorem head_settingText (o : Setting) :
    (settingText o).head? = some (o.1.head?.getD '=') := by
  rw [settingText, List.head?_append, List.head?_cons]
  cases o.1.head? <;> rfl

/-- The last character is that of the value, or the separator. -/
theorem last_settingText (o : Setting) :
    (settingText o).getLast? = some (o.2.getLast?.getD '=') := by
  rw [settingText, List.getLast?_append_cons]
  cases hvalue : o.2 with
  | nil => rfl
  | cons c cs => rw [List.getLast?_cons_cons, List.getLast?_eq_some_getLast (List.cons_ne_nil c cs),
      Option.getD_some]

theorem isHeading_settingText (o : Setting) :
    (settingText o).head? = some '[' ∧ (settingText o).getLast? = some ']' ↔
      o.1.head? = some '[' ∧ o.2.getLast? = some ']' := by
  rw [head_settingText, last_settingText, Option.some.injEq, Option.some.injEq]
  cases o.1.head? <;> cases o.2.getLast? <;> simp

/-- The text of a setting has no blanks around it if the name and the value have none. -/
theorem trim_settingText (hname : trim o.1 = o.1) (hvalue : trim o.2 = o.2) :
    trim (settingText o) = settingText o := by
  refine trim_eq_self (fun c hc => ?_) fun c hc => ?_
  · rw [head_settingText, Option.mem_some_iff] at hc
    cases hhead : o.1.head? with
    | none => rw [hhead] at hc; exact hc ▸ rfl
    | some c' =>
      rw [hhead, Option.getD_some] at hc
      rw [← hname] at hhead
      exact hc ▸ head_trim hhead
  · rw [last_settingText, Option.mem_some_iff] at hc
    cases hlast : o.2.getLast? with
    | none => rw [hlast] at hc; exact hc ▸ rfl
    | some c' =>
      rw [hlast, Option.getD_some] at hc
      rw [← hvalue] at hlast
      exact hc ▸ last_trim hlast

/-- A line without a comment is its text. -/
theorem lineText_settingText (hhash : '#' ∉ settingText o) (hname : trim o.1 = o.1)
    (hvalue : trim o.2 = o.2) : lineText (settingText o) = settingText o := by
  have hall : (settingText o).takeWhile (· ≠ '#') = settingText o :=
    List.takeWhile_eq_self_iff.mpr fun c hc =>
      decide_eq_true fun heq : c = '#' => hhash (heq ▸ hc)
  rw [lineText, hall, trim_settingText hname hvalue]

/-- Up to its first separator, the text of a setting is the name. -/
theorem splitText (hname : '=' ∉ o.1) :
    (settingText o).takeWhile (· ≠ '=') = o.1 ∧
      (settingText o).dropWhile (· ≠ '=') = '=' :: o.2 := by
  have hne : ∀ c ∈ o.1, decide (c ≠ '=') = true := fun c hc =>
    decide_eq_true fun heq : c = '=' => hname (heq ▸ hc)
  rw [settingText, List.takeWhile_append_of_pos hne, List.dropWhile_append_of_pos hne]
  exact ⟨List.append_nil _, rfl⟩

/-- A plain setting is read from its line. -/
theorem Plain.readLine (h : Plain o) : readLine (settingText o) = .setting o.1 o.2 := by
  obtain ⟨htake, hdrop⟩ := splitText h.separated
  rw [ConfigFormat.readLine, lineText_settingText h.uncommented h.trimmedName h.trimmedValue,
    readText, if_neg (settingText_ne_nil o),
    if_neg (fun hheading => h.noHeading ((isHeading_settingText o).mp hheading)),
    if_pos (mem_settingText.mpr (.inr (.inl rfl))), htake, hdrop, List.tail_cons, h.trimmedName,
    h.trimmedValue]

/-- What a setting is read from: a text that is no heading. -/
theorem readText_eq_setting (h : readText s = .setting name value) :
    ¬ (s.head? = some '[' ∧ s.getLast? = some ']') ∧ name = trim (s.takeWhile (· ≠ '=')) ∧
      value = trim (s.dropWhile (· ≠ '=')).tail := by
  rw [readText] at h
  split_ifs at h with hnil hheading hsep
  obtain ⟨rfl, rfl⟩ := Line.setting.inj h
  exact ⟨hheading, rfl, rfl⟩

theorem notMem_lineText (line : List Char) : '#' ∉ lineText line := by
  intro hmem
  have hhash := List.mem_takeWhile_imp (mem_of_mem_trim hmem)
  exact absurd rfl (of_decide_eq_true hhash)

/-- **A setting that is read from its own line is plain.** -/
theorem plain_of_readLine (hline : '\n' ∉ settingText o)
    (h : ConfigFormat.readLine (settingText o) = .setting o.1 o.2) : Plain o := by
  obtain ⟨hheading, hname, hvalue⟩ := readText_eq_setting h
  have htrimName : trim o.1 = o.1 := by rw [hname, trim_trim]
  have htrimValue : trim o.2 = o.2 := by rw [hvalue, trim_trim]
  -- what was read has no comment in it
  have hhashName : '#' ∉ o.1 := fun hmem => by
    rw [hname] at hmem
    exact notMem_lineText _ ((List.takeWhile_prefix _).mem (mem_of_mem_trim hmem))
  have hhashValue : '#' ∉ o.2 := fun hmem => by
    rw [hvalue] at hmem
    exact notMem_lineText _
      ((List.dropWhile_suffix _).mem (List.mem_of_mem_tail (mem_of_mem_trim hmem)))
  have hhash : '#' ∉ settingText o := by
    rw [mem_settingText]
    rintro (hmem | heq | hmem)
    · exact hhashName hmem
    · exact absurd heq (by decide)
    · exact hhashValue hmem
  have hsep : '=' ∉ o.1 := fun hmem => by
    rw [hname] at hmem
    have hc := List.mem_takeWhile_imp (mem_of_mem_trim hmem)
    exact absurd rfl (of_decide_eq_true hc)
  rw [lineText_settingText hhash htrimName htrimValue, isHeading_settingText] at hheading
  exact ⟨hline, hhash, hsep, htrimName, htrimValue, hheading⟩

/-- **A plain name**: its line is a setting, whatever the value is. -/
structure PlainName (name : List Char) : Prop where
  oneLine : '\n' ∉ name
  uncommented : '#' ∉ name
  separated : '=' ∉ name
  trimmed : trim name = name
  noBracket : name.head? ≠ some '['

/-- Blanks at the end of a setting are blanks at the end of its value. -/
theorem trim_append_value (hname : trim name = name) (value : List Char) :
    trim (name ++ '=' :: value) = name ++ '=' :: value.rdropWhile isBlank := by
  have hdrop : (name ++ '=' :: value).dropWhile isBlank = name ++ '=' :: value := by
    cases name with
    | nil => rw [List.nil_append, List.dropWhile_cons_of_neg (by decide)]
    | cons c cs =>
      have hc : c ∈ (trim (c :: cs)).head? := by
        rw [hname]
        rfl
      rw [List.cons_append, List.dropWhile_cons_of_neg (Bool.eq_false_iff.mp (head_trim hc))]
  rw [trim, hdrop]
  clear hdrop
  induction value using List.reverseRecOn with
  | nil =>
    rw [List.rdropWhile_nil]
    exact List.rdropWhile_concat_neg _ _ _ (by decide)
  | append_singleton cs c ih =>
    rw [← List.cons_append, ← List.append_assoc, List.rdropWhile_concat, List.rdropWhile_concat]
    split_ifs
    · exact ih
    · rw [List.append_assoc, List.cons_append]

/-- A line with a plain name is a setting; its value ends at the first `#`. -/
theorem PlainName.readLine (h : PlainName name) (value : List Char) :
    ConfigFormat.readLine (name ++ '=' :: value) =
      .setting name (trim (value.takeWhile (· ≠ '#'))) := by
  have hne : ∀ c ∈ name, decide (c ≠ '#') = true := fun c hc =>
    decide_eq_true fun heq : c = '#' => h.uncommented (heq ▸ hc)
  have htext : lineText (name ++ '=' :: value) =
      settingText (name, (value.takeWhile (· ≠ '#')).rdropWhile isBlank) := by
    rw [lineText, List.takeWhile_append_of_pos hne, List.takeWhile_cons_of_pos (by decide)]
    exact trim_append_value h.trimmed _
  obtain ⟨htake, hdrop⟩ := @splitText
    (name, (value.takeWhile (· ≠ '#')).rdropWhile isBlank) h.separated
  rw [ConfigFormat.readLine, htext, readText, if_neg (settingText_ne_nil _),
    if_neg (fun hheading => h.noBracket ((isHeading_settingText _).mp hheading).1),
    if_pos (mem_settingText.mpr (.inr (.inl rfl))), htake, hdrop, List.tail_cons, h.trimmed,
    trim_rdropWhile]

end Text

/-! ### Many lines -/

section Lines

variable {text line sec : List Char} {ls : List (List Char)} {os : List Setting} {c : Char}

theorem lines_cons_of_ne (hc : c ≠ '\n') (text : List Char) :
    lines (c :: text) = match lines text with
      | [] => [[c]]
      | line :: rest => (c :: line) :: rest := by
  rw [lines, if_neg hc]

/-- A line is cut off at its end. -/
theorem lines_append (hline : '\n' ∉ line) (text : List Char) :
    lines (line ++ '\n' :: text) = line :: lines text := by
  induction line with
  | nil => rw [List.nil_append, lines, if_pos rfl]
  | cons c cs ih =>
    have hc : c ≠ '\n' := fun heq => hline (heq ▸ List.mem_cons_self ..)
    rw [List.cons_append, lines_cons_of_ne hc, ih fun hmem => hline (List.mem_cons_of_mem _ hmem)]

/-- No line has an end of line in it. -/
theorem notMem_of_mem_lines (h : line ∈ lines text) : '\n' ∉ line := by
  induction text generalizing line with
  | nil => exact absurd h List.not_mem_nil
  | cons c cs ih =>
    by_cases hc : c = '\n'
    · rw [lines, if_pos hc] at h
      rcases List.mem_cons.mp h with rfl | h
      · exact List.not_mem_nil
      · exact ih h
    · have hne : '\n' ≠ c := fun heq => hc heq.symm
      rw [lines_cons_of_ne hc] at h
      split at h
      case h_1 =>
        rw [List.mem_singleton.mp h]
        exact fun hmem => hne (List.mem_singleton.mp hmem)
      case h_2 line' rest hlines =>
        rcases List.mem_cons.mp h with rfl | h
        · refine fun hmem => (List.mem_cons.mp hmem).elim hne (ih ?_)
          rw [hlines]
          exact List.mem_cons_self ..
        · refine ih ?_
          rw [hlines]
          exact List.mem_cons_of_mem _ h

theorem write_append (os os' : List Setting) : write (os ++ os') = write os ++ write os' :=
  List.flatMap_append ..

/-- The lines of settings without an end of line in them are their texts. -/
theorem lines_write (h : ∀ o ∈ os, '\n' ∉ settingText o) :
    lines (write os) = os.map settingText := by
  induction os with
  | nil => rfl
  | cons o os ih =>
    rw [write, List.flatMap_cons, List.append_assoc, List.singleton_append,
      lines_append (h o (List.mem_cons_self ..)), List.map_cons]
    exact congrArg _ (ih fun o' ho' => h o' (List.mem_cons_of_mem _ ho'))

/-- One line gives one setting at most. -/
theorem length_readLines (h : readLines sec ls = some os) : os.length ≤ ls.length := by
  induction ls generalizing sec os with
  | nil =>
    rw [readLines, Option.some.injEq] at h
    exact h ▸ Nat.le_refl 0
  | cons line rest ih =>
    rw [readLines] at h
    split at h
    case h_1 => exact Nat.le_succ_of_le (ih h)
    case h_2 => exact Nat.le_succ_of_le (ih h)
    case h_3 =>
      obtain ⟨os', hos', rfl⟩ := Option.map_eq_some_iff.mp h
      exact Nat.succ_le_succ (ih hos')
    case h_4 => cases h

/-- When there are as many settings as lines, each is read from its line. -/
theorem forall₂_readLine (h : readLines [] ls = some os) (hlength : os.length = ls.length) :
    List.Forall₂ (fun line (o : Setting) => readLine line = .setting o.1 o.2) ls os := by
  induction ls generalizing os with
  | nil =>
    rw [readLines, Option.some.injEq] at h
    exact h ▸ .nil
  | cons line rest ih =>
    rw [readLines] at h
    rw [List.length_cons] at hlength
    split at h
    case h_1 =>
      have hle := length_readLines h
      omega
    case h_2 =>
      have hle := length_readLines h
      omega
    case h_3 name value hline =>
      obtain ⟨os', hos', rfl⟩ := Option.map_eq_some_iff.mp h
      rw [List.length_cons, Nat.add_right_cancel_iff] at hlength
      exact .cons hline (ih hos' hlength)
    case h_4 => cases h

theorem notMem_endDot (h : '\n' ∉ sec) : '\n' ∉ endDot sec := by
  rw [endDot]
  split_ifs
  · exact h
  · intro hmem
    rcases List.mem_append.mp hmem with hmem | hmem
    · exact h hmem
    · exact absurd (List.mem_singleton.mp hmem) (by decide)

/-- What is read from lines has no end of line in it. -/
theorem notMem_of_readLines (hsec : '\n' ∉ sec) (hls : ∀ line ∈ ls, '\n' ∉ line)
    (h : readLines sec ls = some os) : ∀ o ∈ os, '\n' ∉ settingText o := by
  induction ls generalizing sec os with
  | nil =>
    rw [readLines, Option.some.injEq] at h
    exact h ▸ fun o ho => absurd ho List.not_mem_nil
  | cons line rest ih =>
    have hrest : ∀ l ∈ rest, '\n' ∉ l := fun l hl => hls l (List.mem_cons_of_mem _ hl)
    have htext : '\n' ∉ lineText line := fun hmem =>
      hls line (List.mem_cons_self ..) ((List.takeWhile_prefix _).mem (mem_of_mem_trim hmem))
    rw [readLines] at h
    split at h
    case h_1 => exact ih hsec hrest h
    case h_2 sec' hline =>
      refine ih ?_ hrest h
      rw [readLine, readText] at hline
      split_ifs at hline
      rw [← Line.heading.inj hline]
      exact notMem_endDot fun hmem => htext
        (List.mem_of_mem_tail ((List.dropLast_prefix _).mem hmem))
    case h_3 name value hline =>
      obtain ⟨os', hos', rfl⟩ := Option.map_eq_some_iff.mp h
      obtain ⟨-, rfl, rfl⟩ := readText_eq_setting hline
      intro o ho
      rcases List.mem_cons.mp ho with rfl | ho
      · rw [mem_settingText, List.mem_append]
        rintro ((hmem | hmem) | heq | hmem)
        · exact hsec hmem
        · exact htext ((List.takeWhile_prefix _).mem (mem_of_mem_trim hmem))
        · exact absurd heq (by decide)
        · exact htext ((List.dropWhile_suffix _).mem (List.mem_of_mem_tail (mem_of_mem_trim hmem)))
      · exact ih hsec hrest hos' o ho
    case h_4 => cases h

/-- Plain settings are read from their lines. -/
theorem readLines_settingText (h : ∀ o ∈ os, Plain o) :
    readLines [] (os.map settingText) = some os := by
  induction os with
  | nil => rfl
  | cons o os ih =>
    rw [List.map_cons, readLines, (h o (List.mem_cons_self ..)).readLine]
    dsimp only
    rw [ih fun o' ho' => h o' (List.mem_cons_of_mem _ ho')]
    rfl

/-- **Round trip, exactly.** Settings that are written are read back if and only if all of them are
    plain. -/
theorem read_write_iff (os : List Setting) : read (write os) = some os ↔ ∀ o ∈ os, Plain o := by
  constructor
  · intro h
    have hnewline := notMem_of_readLines List.not_mem_nil (fun _ hl => notMem_of_mem_lines hl) h
    rw [read, lines_write hnewline] at h
    have hall := forall₂_readLine h (List.length_map _).symm
    rw [List.forall₂_map_left_iff, List.forall₂_same] at hall
    exact fun o ho => plain_of_readLine (hnewline o ho) (hall o ho)
  · intro h
    rw [read, lines_write fun o ho => (h o ho).oneLine]
    exact readLines_settingText h

/-- **Values are cut.** Settings with plain names and values of one line are read with each value
    up to its first `#`, without the blanks around it. -/
theorem read_write_of_plainName (h : ∀ o ∈ os, PlainName o.1 ∧ '\n' ∉ o.2) :
    read (write os) = some (os.map fun o => (o.1, trim (o.2.takeWhile (· ≠ '#')))) := by
  have hline : ∀ o ∈ os, '\n' ∉ settingText o := by
    intro o ho
    rw [mem_settingText]
    rintro (hmem | heq | hmem)
    · exact (h o ho).1.oneLine hmem
    · exact absurd heq (by decide)
    · exact (h o ho).2 hmem
  rw [read, lines_write hline]
  clear hline
  induction os with
  | nil => rfl
  | cons o os ih =>
    rw [List.map_cons, readLines, settingText, (h o (List.mem_cons_self ..)).1.readLine]
    dsimp only
    rw [ih fun o' ho' => h o' (List.mem_cons_of_mem _ ho')]
    rfl

end Lines

end ConfigFormat
