import Mathlib.Algebra.BigOperators.Group.List.Basic
import Mathlib.Data.List.Infix

namespace Rewrite

/-!
# Replacing the matches of a pattern

`replaceAll` goes through a text from the left and replaces each match of a pattern, where a
replacement may depend on what stands around the match.

* `replaceAll_lines` — a pattern whose matches reach to the end of a line, and a constant
  replacement: the text is rewritten line by line.
* `eq_of_flatMap_eq` — two ways to rewrite the lines of a text that give the same text agree
  on every line.
-/

variable {α : Type*}

/-- A match, with the text since the last one and the text that follows. -/
structure Match (α : Type*) where
  before : List α
  matched : List α
  after : List α

/-- The length of the match that begins where a text begins. -/
abbrev Pattern (α : Type*) := List α → Option ℕ

/-- Replace the matches in a text.  `before` is what was read since the last one, and the first
    `skip` elements still belong to that one. -/
def replaceFrom (pat : Pattern α) (rep : Match α → List α) : List α → ℕ → List α → List α
  | _, _, [] => []
  | before, skip + 1, _ :: text => replaceFrom pat rep before skip text
  | before, 0, c :: text =>
    match pat (c :: text) with
    | some (n + 1) =>
      rep ⟨before, (c :: text).take (n + 1), text.drop n⟩ ++ replaceFrom pat rep [] n text
    | _ => c :: replaceFrom pat rep (before ++ [c]) 0 text

/-- Replace the matches in a text. -/
def replaceAll (pat : Pattern α) (rep : Match α → List α) (text : List α) : List α :=
  replaceFrom pat rep [] 0 text

section Replace

variable {pat : Pattern α} {rep : Match α → List α}

theorem replaceFrom_skip (before x y : List α) :
    replaceFrom pat rep before x.length (x ++ y) = replaceFrom pat rep before 0 y := by
  induction x with
  | nil => rfl
  | cons c x ih => exact ih

/-- Where there is no match, an element is copied. -/
theorem replaceFrom_of_none {before : List α} {c : α} {text : List α}
    (h : pat (c :: text) = none) :
    replaceFrom pat rep before 0 (c :: text) =
      c :: replaceFrom pat rep (before ++ [c]) 0 text := by
  rw [replaceFrom, h]

theorem replaceFrom_of_some {before x y : List α} (hx : x ≠ [])
    (h : pat (x ++ y) = some x.length) :
    replaceFrom pat rep before 0 (x ++ y) = rep ⟨before, x, y⟩ ++ replaceFrom pat rep [] 0 y := by
  obtain ⟨c, x, rfl⟩ := List.exists_cons_of_ne_nil hx
  rw [List.cons_append, List.length_cons] at h
  rw [List.cons_append, replaceFrom, h]
  show rep ⟨before, (c :: (x ++ y)).take (x.length + 1), (x ++ y).drop x.length⟩ ++
    replaceFrom pat rep [] x.length (x ++ y) = _
  rw [List.take_succ_cons, List.take_left, List.drop_left, replaceFrom_skip]

/-- A constant replacement does not depend on what was read before. -/
theorem replaceFrom_const (w b b' : List α) (skip : ℕ) (text : List α) :
    replaceFrom pat (fun _ => w) b skip text = replaceFrom pat (fun _ => w) b' skip text := by
  induction text generalizing b b' skip with
  | nil => rw [replaceFrom, replaceFrom]
  | cons c text ih =>
    cases skip with
    | succ skip => exact ih b b' skip
    | zero =>
      rw [replaceFrom, replaceFrom]
      split
      · rfl
      · rw [ih]

/-- Replacements without certain elements bring none of these into the text. -/
theorem countP_replaceFrom_le {q : α → Bool} (hrep : ∀ m, (rep m).countP q = 0)
    (b : List α) (skip : ℕ) (text : List α) :
    (replaceFrom pat rep b skip text).countP q ≤ text.countP q := by
  induction text generalizing b skip with
  | nil => rw [replaceFrom]
  | cons c text ih =>
    have hcons : text.countP q ≤ (c :: text).countP q := by
      rw [List.countP_cons]
      exact Nat.le_add_right _ _
    cases skip with
    | succ skip => exact (ih b skip).trans hcons
    | zero =>
      rw [replaceFrom]
      split
      · rw [List.countP_append, hrep, Nat.zero_add]
        exact (ih _ _).trans hcons
      · rw [List.countP_cons, List.countP_cons]
        exact Nat.add_le_add_right (ih _ _) _

end Replace

/-! ### Lines -/

/-- A line, with what ends it. -/
structure Line (α : Type*) where
  text : List α
  eol : List α
  deriving DecidableEq

/-- The elements of a line. -/
def Line.all (l : Line α) : List α := l.text ++ l.eol

/-- The part of a line before the first place where something starts. -/
def cut (starts : List α → Bool) : List α → Option (List α)
  | [] => none
  | c :: s => if starts (c :: s) then some [] else (cut starts s).map (c :: ·)

theorem prefix_of_cut {starts : List α → Bool} {l a : List α} (h : cut starts l = some a) :
    a <+: l := by
  induction l generalizing a with
  | nil => exact absurd h (Option.some_ne_none a).symm
  | cons c l ih =>
    rw [cut] at h
    split at h
    · obtain rfl := Option.some.inj h
      exact List.nil_prefix
    · obtain ⟨a', ha', rfl⟩ := Option.map_eq_some_iff.mp h
      exact List.cons_prefix_cons.mpr ⟨rfl, ih ha'⟩

/-- What starts is not empty. -/
theorem ne_of_cut {starts : List α → Bool} {l a : List α} (h : cut starts l = some a) : a ≠ l := by
  induction l generalizing a with
  | nil => exact absurd h (Option.some_ne_none a).symm
  | cons c l ih =>
    rw [cut] at h
    split at h
    · obtain rfl := Option.some.inj h
      exact (List.cons_ne_nil c l).symm
    · obtain ⟨a', ha', rfl⟩ := Option.map_eq_some_iff.mp h
      exact fun heq => ih ha' (List.cons.inj heq).2

theorem not_starts_of_cut {starts : List α → Bool} {l : List α} (h : cut starts l = none)
    (hl : l ≠ []) : starts l = false := by
  obtain ⟨c, s, rfl⟩ := List.exists_cons_of_ne_nil hl
  rw [cut] at h
  by_contra hstarts
  rw [if_pos (Bool.not_eq_false _ ▸ hstarts)] at h
  exact Option.some_ne_none _ h

/-- Where nothing starts in the first part, the second one decides. -/
theorem cut_append {starts : List α → Bool} {k s : List α}
    (h : ∀ k', k' <:+ k → k' ≠ [] → starts (k' ++ s) = false) :
    cut starts (k ++ s) = (cut starts s).map (k ++ ·) := by
  induction k with
  | nil => exact Option.map_id'.symm
  | cons c k ih =>
    have hc := h (c :: k) (List.suffix_refl _) (List.cons_ne_nil c k)
    rw [List.cons_append] at hc ⊢
    rw [cut, hc, if_neg Bool.false_ne_true,
      ih fun k' hk' => h k' (hk'.trans (List.suffix_cons c k)), Option.map_map]
    rfl

/-- A pattern whose matches begin in a line where `starts` holds of the rest of it, and take
    that rest; with the end of the line, if it `eats` that.  `Ok` says what lines there are. -/
structure LinePattern (pat : Pattern α) (starts : List α → Bool) (eats : Bool)
    (Ok : Line α → Prop) : Prop where
  at_text : ∀ x e rest, x ≠ [] → Ok ⟨x, e⟩ → pat (x ++ (e ++ rest)) =
    if starts x then some (x.length + if eats then e.length else 0) else none
  at_eol : ∀ x e e' rest, Ok ⟨x, e⟩ → e' <:+ e → e' ≠ [] → pat (e' ++ rest) = none
  ok_tail : ∀ c x e, Ok ⟨c :: x, e⟩ → Ok ⟨x, e⟩

/-- A line with what its match is replaced by. -/
def rewriteLine (starts : List α → Bool) (eats : Bool) (w : List α) (l : Line α) : List α :=
  match cut starts l.text with
  | some a => a ++ w ++ if eats then [] else l.eol
  | none => l.all

section Lines

variable {pat : Pattern α} {starts : List α → Bool} {eats : Bool} {Ok : Line α → Prop}
  {rep : Match α → List α} {w : List α}

/-- The end of a line is copied. -/
theorem replaceFrom_eol (h : LinePattern pat starts eats Ok) {x e : List α} (hok : Ok ⟨x, e⟩)
    (b rest : List α) {e' : List α} (he' : e' <:+ e) :
    replaceFrom pat rep b 0 (e' ++ rest) = e' ++ replaceFrom pat rep (b ++ e') 0 rest := by
  induction e' generalizing b with
  | nil => rw [List.append_nil, List.nil_append, List.nil_append]
  | cons c e' ih =>
    have hnone := h.at_eol x e (c :: e') rest hok he' (List.cons_ne_nil _ _)
    rw [List.cons_append] at hnone ⊢
    rw [replaceFrom_of_none hnone, ih _ ((List.suffix_cons c e').trans he'),
      List.append_assoc, List.singleton_append]
    rfl

/-- A line in which nothing starts is copied. -/
theorem replaceFrom_copy (h : LinePattern pat starts eats Ok) {x e : List α} (hok : Ok ⟨x, e⟩)
    (hcut : cut starts x = none) (b rest : List α) :
    replaceFrom pat rep b 0 (x ++ (e ++ rest)) =
      x ++ (e ++ replaceFrom pat rep (b ++ (x ++ e)) 0 rest) := by
  induction x generalizing b with
  | nil => exact replaceFrom_eol h hok b rest (List.suffix_refl e)
  | cons c x ih =>
    have hat := h.at_text (c :: x) e rest (List.cons_ne_nil _ _) hok
    rw [cut, ite_eq_iff] at hcut
    rcases hcut with ⟨-, hcut⟩ | ⟨hstarts, hcut⟩
    · exact absurd hcut (Option.some_ne_none _)
    rw [if_neg hstarts] at hat
    rw [List.cons_append] at hat ⊢
    rw [replaceFrom_of_none hat, ih (h.ok_tail c x e hok) (Option.map_eq_none_iff.mp hcut),
      List.append_assoc]
    rfl

/-- A text in which nothing starts is copied. -/
theorem replaceAll_copy (h : LinePattern pat starts eats Ok) {ls : List (Line α)}
    (hok : ∀ l ∈ ls, Ok l) (hcut : ∀ l ∈ ls, cut starts l.text = none) :
    replaceAll pat rep (ls.flatMap Line.all) = ls.flatMap Line.all := by
  rw [replaceAll]
  generalize ([] : List α) = b
  induction ls generalizing b with
  | nil => rfl
  | cons l ls ih =>
    obtain ⟨hl, hls⟩ := List.forall_mem_cons.mp hok
    obtain ⟨hc, hcs⟩ := List.forall_mem_cons.mp hcut
    rw [List.flatMap_cons, Line.all, List.append_assoc, replaceFrom_copy h hl hc, ih hls hcs]

/-- One line. -/
theorem replaceFrom_line (h : LinePattern pat starts eats Ok) {x e : List α} (hok : Ok ⟨x, e⟩)
    (b rest : List α) :
    replaceFrom pat (fun _ => w) b 0 (x ++ (e ++ rest)) =
      rewriteLine starts eats w ⟨x, e⟩ ++ replaceFrom pat (fun _ => w) b 0 rest := by
  induction x generalizing b with
  | nil =>
    rw [List.nil_append, replaceFrom_eol h hok b rest (List.suffix_refl e),
      replaceFrom_const w _ b]
    rfl
  | cons c x ih =>
    have hat := h.at_text (c :: x) e rest (List.cons_ne_nil _ _) hok
    by_cases hstarts : starts (c :: x) = true
    · rw [if_pos hstarts] at hat
      rw [rewriteLine, cut, if_pos hstarts]
      cases eats with
      | true =>
        rw [← List.append_assoc] at hat ⊢
        rw [if_pos rfl, ← List.length_append] at hat
        rw [replaceFrom_of_some (List.append_ne_nil_of_left_ne_nil (List.cons_ne_nil c x) e) hat,
          replaceFrom_const w _ b]
        show w ++ _ = [] ++ w ++ [] ++ _
        rw [List.nil_append, List.append_nil]
      | false =>
        rw [if_neg Bool.false_ne_true, Nat.add_zero] at hat
        rw [replaceFrom_of_some (List.cons_ne_nil c x) hat,
          replaceFrom_eol h hok _ rest (List.suffix_refl e), replaceFrom_const w _ b,
          ← List.append_assoc]
        rfl
    · rw [if_neg hstarts] at hat
      rw [List.cons_append] at hat ⊢
      rw [replaceFrom_of_none hat, ih (h.ok_tail c x e hok), rewriteLine, rewriteLine, cut,
        if_neg hstarts, replaceFrom_const w _ b]
      cases cut starts x <;> rfl

/-- **Rewriting line by line.** -/
theorem replaceAll_lines (h : LinePattern pat starts eats Ok) (w : List α) {ls : List (Line α)}
    (hok : ∀ l ∈ ls, Ok l) :
    replaceAll pat (fun _ => w) (ls.flatMap Line.all) =
      ls.flatMap (rewriteLine starts eats w) := by
  rw [replaceAll]
  induction ls with
  | nil => rfl
  | cons l ls ih =>
    obtain ⟨hl, hls⟩ := List.forall_mem_cons.mp hok
    rw [List.flatMap_cons, List.flatMap_cons, Line.all, List.append_assoc,
      replaceFrom_line h hl, ih hls]

end Lines

/-! ### Texts with the same lines -/

section Same

variable {isEol : α → Bool} {f g : Line α → List α}

/-- What two ways to rewrite a line have in common: both drop it, or one of them keeps its end
    and the other one may lose it. -/
def SameShape (isEol : α → Bool) (f g : Line α → List α) (l : Line α) : Prop :=
  f l = [] ∧ g l = [] ∨
    ∃ x y, x.countP isEol = 0 ∧ y.countP isEol = 0 ∧ g l = y ++ l.eol ∧
      (f l = x ++ l.eol ∨ f l = x)

theorem SameShape.countP_le {l : Line α} (h : SameShape isEol f g l) :
    (f l).countP isEol ≤ (g l).countP isEol := by
  rcases h with ⟨hf, hg⟩ | ⟨x, y, hx, hy, hg, hf | hf⟩
  · rw [hf, hg]
  · rw [hf, hg, List.countP_append, List.countP_append, hx, hy]
  · rw [hf, hx]
    exact Nat.zero_le _

theorem countP_flatMap_le {ls : List (Line α)} (hshape : ∀ l ∈ ls, SameShape isEol f g l) :
    (ls.flatMap f).countP isEol ≤ (ls.flatMap g).countP isEol := by
  induction ls with
  | nil => exact le_rfl
  | cons l ls ih =>
    obtain ⟨hl, hls⟩ := List.forall_mem_cons.mp hshape
    rw [List.flatMap_cons, List.flatMap_cons, List.countP_append, List.countP_append]
    exact Nat.add_le_add hl.countP_le (ih hls)

/-- Two texts without the end of a line are the same if they are followed by one and the texts
    are the same then. -/
theorem append_eol_inj {x y e r s : List α} (hx : x.countP isEol = 0) (hy : y.countP isEol = 0)
    (he : ∃ c e', e = c :: e' ∧ isEol c = true) (h : x ++ (e ++ r) = y ++ (e ++ s)) : x = y := by
  obtain ⟨c, e', rfl, hc⟩ := he
  have htake : ∀ z t : List α, z.countP isEol = 0 →
      (z ++ (c :: e' ++ t)).takeWhile (fun d => !isEol d) = z := by
    intro z t hz
    rw [List.countP_eq_zero] at hz
    rw [List.takeWhile_append_of_pos fun d hd => by rw [Bool.eq_false_iff.mpr (hz d hd)]; rfl,
      List.cons_append, List.takeWhile_cons_of_neg (by rw [hc]; decide), List.append_nil]
  rw [← htake x r hx, h, htake y s hy]

/-- **The lines agree** when the whole texts do. -/
theorem eq_of_flatMap_eq {ls : List (Line α)} (hshape : ∀ l ∈ ls, SameShape isEol f g l)
    (heol : ∀ l ∈ ls, ∃ c e', l.eol = c :: e' ∧ isEol c = true)
    (h : ls.flatMap f = ls.flatMap g) : ∀ l ∈ ls, f l = g l := by
  induction ls with
  | nil => exact nofun
  | cons l ls ih =>
    obtain ⟨hl, hls⟩ := List.forall_mem_cons.mp hshape
    obtain ⟨hle, hlse⟩ := List.forall_mem_cons.mp heol
    rw [List.flatMap_cons, List.flatMap_cons] at h
    -- no line loses its end, or there would be fewer of these
    have hcount : (f l).countP isEol = (g l).countP isEol := by
      have hall := congrArg (List.countP isEol) h
      rw [List.countP_append, List.countP_append] at hall
      have hhead := hl.countP_le
      have htail := countP_flatMap_le hls
      omega
    have hhead : f l = g l := by
      rcases hl with ⟨hf, hg⟩ | ⟨x, y, hx, hy, hg, hf | hf⟩
      · rw [hf, hg]
      · rw [hf, hg, List.append_assoc, List.append_assoc] at h
        rw [hf, hg, append_eol_inj hx hy hle h]
      · obtain ⟨c, e', he, hc⟩ := hle
        rw [hf, hg, hx, List.countP_append, he, List.countP_cons_of_pos hc] at hcount
        omega
    rw [hhead, List.append_cancel_left_eq] at h
    exact List.forall_mem_cons.mpr ⟨hhead, ih hls hlse h⟩

end Same

/-! ### Formats -/

/-- What a format is made of. -/
inductive FormatItem where
  | char (c : Char)
  | before
  | after
  | group (n : ℕ)
  deriving DecidableEq, Repr

/-- The characters of a format that need a code. -/
def graveAccent : Char := Char.ofNat 96

def apostrophe : Char := Char.ofNat 39

/-- The value of a digit. -/
def digitValue (c : Char) : ℕ := c.toNat - 48

/-- What was read of an item of a format: nothing, a `$`, or a `$` and a digit. -/
inductive FormatState where
  | text
  | dollar
  | digit (n : ℕ)

/-- The items of a format, as ECMAScript has them: `$$`, `$&`, the text before and after the
    match, and `$n` or `$nn`.  Any other `$` stands for itself. -/
def formatItems : FormatState → List Char → List FormatItem
  | .text, [] => []
  | .text, c :: rest =>
    if c = '$' then formatItems .dollar rest else .char c :: formatItems .text rest
  | .dollar, [] => [.char '$']
  | .dollar, c :: rest =>
    if c = '$' then .char '$' :: formatItems .text rest
    else if c = '&' then .group 0 :: formatItems .text rest
    else if c = graveAccent then .before :: formatItems .text rest
    else if c = apostrophe then .after :: formatItems .text rest
    else if c.isDigit then formatItems (.digit (digitValue c)) rest
    else .char '$' :: .char c :: formatItems .text rest
  | .digit n, [] => [.group n]
  | .digit n, c :: rest =>
    if c.isDigit then .group (10 * n + digitValue c) :: formatItems .text rest
    else if c = '$' then .group n :: formatItems .dollar rest
    else .group n :: .char c :: formatItems .text rest

/-- What a format stands for.  A group that does not exist is empty. -/
def format (fmt : List Char) (groups : List (List Char)) (m : Match Char) : List Char :=
  (formatItems .text fmt).flatMap fun
    | .char c => [c]
    | .before => m.before
    | .after => m.after
    | .group n => groups.getD n []

/-- A character that is special after a `$`. -/
def special (c : Char) : Bool :=
  c = '$' || c = '&' || c = graveAccent || c = apostrophe || c.isDigit

/-- No `$` is followed by a special character. -/
def Plain (s : List Char) : Prop := ∀ a c b, s = a ++ '$' :: c :: b → special c = false

theorem Plain.tail {c : Char} {s : List Char} (h : Plain (c :: s)) : Plain s :=
  fun a d b heq => h (c :: a) d b (by rw [heq]; rfl)

theorem formatItems_of_plain {s : List Char} :
    (Plain s → formatItems .text s = s.map .char) ∧
      (Plain ('$' :: s) → formatItems .dollar s = .char '$' :: s.map .char) := by
  induction s with
  | nil => exact ⟨fun _ => rfl, fun _ => rfl⟩
  | cons c s ih =>
    refine ⟨fun h => ?_, fun h => ?_⟩
    · by_cases hc : c = '$'
      · subst hc
        rw [formatItems, if_pos rfl, ih.2 h]
        rfl
      · rw [formatItems, if_neg hc, ih.1 h.tail]
        rfl
    · have hc := h [] c s rfl
      simp only [special, Bool.or_eq_false_iff, decide_eq_false_iff_not] at hc
      obtain ⟨⟨⟨⟨hdollar, hamp⟩, hgrave⟩, hapos⟩, hdigit⟩ := hc
      rw [formatItems, if_neg hdollar, if_neg hamp, if_neg hgrave, if_neg hapos,
        if_neg (Bool.eq_false_iff.mp hdigit), ih.1 h.tail.tail]
      rfl

/-- **A plain format stands for itself.** -/
theorem format_of_plain {s : List Char} (h : Plain s) (groups : List (List Char))
    (m : Match Char) : format s groups m = s := by
  rw [format, formatItems_of_plain.1 h, List.flatMap_map]
  exact List.flatMap_singleton' s

theorem Plain.append {x s : List Char} (hx : '$' ∉ x) (h : Plain s) : Plain (x ++ s) := by
  induction x with
  | nil => exact h
  | cons d x ih =>
    rw [List.mem_cons, not_or] at hx
    obtain ⟨hd, hx⟩ := hx
    intro a c b heq
    cases a with
    | nil => exact absurd (List.cons.inj heq).1.symm hd
    | cons e a => exact ih hx a c b (List.cons.inj heq).2

theorem Plain.of_append {x s : List Char} (h : Plain (x ++ s)) : Plain s :=
  fun a c b heq => h (x ++ a) c b (by rw [heq, List.append_assoc])

theorem plain_nil : Plain [] := by
  intro a c b h
  exact absurd h (List.append_ne_nil_of_right_ne_nil a (List.cons_ne_nil _ _)).symm

theorem plain_of_not_mem {s : List Char} (h : '$' ∉ s) : Plain s := by
  have happend := plain_nil.append h
  rwa [List.append_nil] at happend

theorem plain_dollar : Plain ['$'] := by
  intro a c b h
  have hlen := congrArg List.length h
  simp only [List.length_append, List.length_cons, List.length_nil] at hlen
  omega

theorem Plain.dollar {c : Char} {s : List Char} (hc : special c = false) (h : Plain (c :: s)) :
    Plain ('$' :: c :: s) := by
  intro a d b heq
  cases a with
  | nil =>
    obtain ⟨rfl, -⟩ := List.cons.inj (List.cons.inj heq).2
    exact hc
  | cons e a => exact h a d b (List.cons.inj heq).2

/-- The number of `$` that a format leaves in the text. -/
def dollars (items : List FormatItem) : ℕ := items.count (.char '$')

theorem dollars_char (c : Char) (items : List FormatItem) :
    dollars (.char c :: items) = dollars items + if c = '$' then 1 else 0 := by
  rw [dollars, List.count_cons, dollars]
  simp only [beq_iff_eq, FormatItem.char.injEq]

theorem dollars_group (n : ℕ) (items : List FormatItem) :
    dollars (.group n :: items) = dollars items :=
  List.count_cons_of_ne (show FormatItem.group n ≠ .char '$' from nofun)

theorem dollars_before (items : List FormatItem) : dollars (.before :: items) = dollars items :=
  List.count_cons_of_ne (show FormatItem.before ≠ .char '$' from nofun)

theorem dollars_after (items : List FormatItem) : dollars (.after :: items) = dollars items :=
  List.count_cons_of_ne (show FormatItem.after ≠ .char '$' from nofun)

theorem count_dollar_cons (c : Char) (s : List Char) :
    (c :: s).count '$' = s.count '$' + if c = '$' then 1 else 0 := by
  rw [List.count_cons]
  simp only [beq_iff_eq]

theorem dollars_le (s : List Char) :
    dollars (formatItems .text s) ≤ s.count '$' ∧
      dollars (formatItems .dollar s) ≤ s.count '$' + 1 ∧
        ∀ n, dollars (formatItems (.digit n) s) ≤ s.count '$' := by
  induction s with
  | nil => exact ⟨le_rfl, le_rfl, fun _ => le_rfl⟩
  | cons c s ih =>
    obtain ⟨htext, hdollar, hdigit⟩ := ih
    have hvalue := hdigit (digitValue c)
    rw [count_dollar_cons]
    refine ⟨?_, ?_, fun n => ?_⟩ <;> rw [formatItems] <;> split_ifs <;>
      (try simp only [dollars_char, dollars_group, dollars_before, dollars_after, if_true]) <;>
      (try split_ifs) <;> omega

/-- **A format that keeps every `$` is plain.** -/
theorem plain_of_dollars (s : List Char) :
    (s.count '$' ≤ dollars (formatItems .text s) → Plain s) ∧
      (s.count '$' + 1 ≤ dollars (formatItems .dollar s) → Plain ('$' :: s)) := by
  induction s with
  | nil => exact ⟨fun _ => plain_nil, fun _ => plain_dollar⟩
  | cons c s ih =>
    obtain ⟨ihtext, ihdollar⟩ := ih
    obtain ⟨htext, hdollar, hdigit⟩ := dollars_le s
    rw [count_dollar_cons]
    refine ⟨fun h => ?_, fun h => ?_⟩
    · rw [formatItems] at h
      by_cases hc : c = '$'
      · rw [if_pos hc, if_pos hc] at h
        exact hc ▸ ihdollar h
      · rw [if_neg hc, if_neg hc, dollars_char, if_neg hc] at h
        exact (ihtext h).append (x := [c]) fun hin => hc (List.mem_singleton.mp hin).symm
    · have hdigit := hdigit (digitValue c)
      by_cases hspecial : special c = true
      · -- an item that does not stand for itself has lost its `$`
        exfalso
        rw [formatItems] at h
        simp only [special, Bool.or_eq_true, decide_eq_true_eq] at hspecial
        split_ifs at h <;>
          (try simp only [dollars_char, dollars_group, dollars_before, dollars_after, if_true] at h)
          <;> first | omega | tauto
      · rw [Bool.not_eq_true] at hspecial
        have hplain := hspecial
        simp only [special, Bool.or_eq_false_iff, decide_eq_false_iff_not] at hspecial
        obtain ⟨⟨⟨⟨hc, hamp⟩, hgrave⟩, hapos⟩, hdig⟩ := hspecial
        rw [formatItems, if_neg hc, if_neg hc, if_neg hamp, if_neg hgrave, if_neg hapos,
          if_neg (Bool.eq_false_iff.mp hdig), dollars_char, dollars_char, if_pos rfl,
          if_neg hc] at h
        exact ((ihtext (by omega)).append (x := [c]) fun hin =>
          hc (List.mem_singleton.mp hin).symm).dollar hplain

/-- A format leaves a `$` in the text for each one of its items that is one. -/
theorem count_format {groups : List (List Char)} {m : Match Char} (fmt : List Char)
    (hgroups : ∀ n, '$' ∉ groups.getD n []) (hbefore : '$' ∉ m.before) (hafter : '$' ∉ m.after) :
    (format fmt groups m).count '$' = dollars (formatItems .text fmt) := by
  rw [format]
  induction formatItems .text fmt with
  | nil => rfl
  | cons item items ih =>
    rw [List.flatMap_cons, List.count_append, ih]
    cases item with
    | char c =>
      rw [dollars_char, count_dollar_cons, List.count_nil, Nat.zero_add, Nat.add_comm]
    | before => rw [dollars_before, List.count_eq_zero_of_not_mem hbefore, Nat.zero_add]
    | after => rw [dollars_after, List.count_eq_zero_of_not_mem hafter, Nat.zero_add]
    | group n => rw [dollars_group, List.count_eq_zero_of_not_mem (hgroups n), Nat.zero_add]

end Rewrite
