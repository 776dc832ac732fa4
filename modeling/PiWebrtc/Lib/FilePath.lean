import PiWebrtc.Lib.FileTree
import Mathlib.Data.String.Basic

namespace FilePath

open FileTree

/-!
# File paths

Paths as `std::filesystem` takes them apart, and where they lead in a directory tree without
links: `location` is the normal form of a path, and `status` what stands there, if every step
on the way can be made.

* `Formed.location_eq` — a path leads one step on from its parent.
* `location_join` — a name below a path leads one step below it.
* `status_location` — what a path leads to stands at its location.
* `Reachable.directory_eq` — a path leads to a directory, if every step on the way does.
-/

/-- The elements of a path: `"/"` first, if it is absolute, then the names, and an empty name
    after a trailing slash. -/
abbrev Path := List String

/-- The name of an entry of a directory. -/
structure Plain (x : String) : Prop where
  nonempty : x ≠ ""
  notDot : x ≠ "."
  notDotDot : x ≠ ".."
  noSlash : '/' ∉ x.toList

instance (x : String) : Decidable (Plain x) :=
  decidable_of_iff (x ≠ "" ∧ x ≠ "." ∧ x ≠ ".." ∧ '/' ∉ x.toList)
    ⟨fun ⟨h, h', h'', hslash⟩ => ⟨h, h', h'', hslash⟩,
      fun h => ⟨h.nonempty, h.notDot, h.notDotDot, h.noSlash⟩⟩

theorem ne_slash_of_noSlash {x : String} (h : '/' ∉ x.toList) : x ≠ "/" := by
  rintro rfl
  exact h (by decide)

theorem Plain.ne_slash {x : String} (h : Plain x) : x ≠ "/" := ne_slash_of_noSlash h.noSlash

/-! ### Operations on paths -/

/-- The names between the slashes. -/
def names (cs : List Char) : List String :=
  ((cs.splitOn '/').filter (· ≠ [])).map String.ofList

/-- The path that a string spells. -/
def parse (s : String) : Path :=
  (if s.toList.head? = some '/' then ["/"] else []) ++ names s.toList ++
    if names s.toList ≠ [] ∧ s.toList.getLast? = some '/' then [""] else []

/-- `path::filename`. -/
def filename (p : Path) : String :=
  match p.getLast? with
  | some x => if x = "/" then "" else x
  | none => ""

/-- `path::parent_path`. -/
def parentPath (p : Path) : Path := if p = ["/"] then p else p.dropLast

/-- The path without a trailing slash. -/
def withoutSlash (p : Path) : Path := if p.getLast? = some "" then p.dropLast else p

/-- `operator/`. -/
def join (p q : Path) : Path :=
  if q.head? = some "/" then q
  else if q = [] then if filename p = "" then p else p ++ [""]
  else withoutSlash p ++ q

section Operations

variable {p : Path} {x : String}

theorem withoutSlash_concat (hx : x ≠ "") : withoutSlash (p ++ [x]) = p ++ [x] := by
  refine if_neg fun h => hx ?_
  rwa [List.getLast?_concat, Option.some.injEq] at h

theorem withoutSlash_start (p : Path) : withoutSlash p <+: p := by
  unfold withoutSlash
  split_ifs
  · exact List.dropLast_prefix p
  · exact List.prefix_refl p

theorem parentPath_start (p : Path) : parentPath p <+: p := by
  unfold parentPath
  split_ifs
  · exact List.prefix_refl p
  · exact List.dropLast_prefix p

theorem filename_concat (hx : x ≠ "/") : filename (p ++ [x]) = x := by
  rw [filename, List.getLast?_concat]
  exact if_neg hx

theorem parentPath_concat (hx : x ≠ "/") : parentPath (p ++ [x]) = p := by
  have hne : p ++ [x] ≠ ["/"] := by
    intro heq
    have hlast := congrArg List.getLast? heq
    rw [List.getLast?_concat] at hlast
    exact hx (Option.some.inj hlast)
  rw [parentPath, if_neg hne, List.dropLast_concat]

theorem join_plain (h : Plain x) : join p [x] = withoutSlash p ++ [x] := by
  rw [join, if_neg (by simpa using h.ne_slash), if_neg (List.cons_ne_nil _ _)]

theorem join_ne_nil {q : Path} (hq : q ≠ []) : join p q ≠ [] := by
  unfold join
  split_ifs
  · exact hq
  · exact List.append_ne_nil_of_right_ne_nil _ hq

/-- A name below a path has the path as its parent, but for a trailing slash. -/
theorem parentPath_join (h : Plain x) : parentPath (join p [x]) = withoutSlash p := by
  rw [join_plain h, parentPath_concat h.ne_slash]

theorem filename_join (h : Plain x) : filename (join p [x]) = x := by
  rw [join_plain h, filename_concat h.ne_slash]

theorem withoutSlash_join (h : Plain x) : withoutSlash (join p [x]) = join p [x] := by
  rw [join_plain h, withoutSlash_concat h.nonempty]

end Operations

/-! ### Where a path leads -/

/-- One element further. -/
def next (loc : List String) (x : String) : List String :=
  if x = "/" then []
  else if x = "" ∨ x = "." then loc
  else if x = ".." then loc.dropLast
  else loc ++ [x]

/-- The normal form of a path: its names from the root directory, when it is taken from the
    directory `cwd`. -/
def location (cwd : List String) (p : Path) : List String := p.foldl next cwd

/-- A location below another one. -/
def Below (dir loc : List String) : Prop := dir <+: loc ∧ loc ≠ dir

section Location

variable {cwd : List String} {p : Path} {x : String}

theorem next_plain (h : Plain x) (loc : List String) : next loc x = loc ++ [x] := by
  rw [next, if_neg h.ne_slash, if_neg (not_or.mpr ⟨h.nonempty, h.notDot⟩), if_neg h.notDotDot]

theorem location_append (q : Path) : location cwd (p ++ q) = location (location cwd p) q :=
  List.foldl_append

theorem location_concat : location cwd (p ++ [x]) = next (location cwd p) x :=
  location_append [x]

theorem location_withoutSlash : location cwd (withoutSlash p) = location cwd p := by
  unfold withoutSlash
  split_ifs with h
  · -- the empty name leads nowhere
    conv_rhs => rw [← List.dropLast_append_getLast? "" h, location_concat]
    rfl
  · rfl

/-- A name below a path. -/
theorem location_join (h : Plain x) : location cwd (join p [x]) = location cwd p ++ [x] := by
  rw [join_plain h, location_concat, location_withoutSlash, next_plain h]

theorem location_join_nil (p : Path) : location cwd (join p []) = location cwd p := by
  rw [join, if_neg (by simp), if_pos rfl]
  split_ifs
  · rfl
  · rw [location_concat]
    rfl

/-- One element further leads out of a directory, unless it leads to the directory itself. -/
theorem prefix_next {dir loc : List String} (h : dir <+: next loc x) :
    dir <+: loc ∨ dir = loc ++ [x] ∧ next loc x = dir := by
  unfold next at h ⊢
  split_ifs at h ⊢
  · exact .inl (List.prefix_nil.mp h ▸ List.nil_prefix)
  · exact .inl h
  · exact .inl (h.trans (List.dropLast_prefix loc))
  · rcases List.prefix_concat_iff.mp h with heq | hpre
    · exact .inr ⟨heq, heq.symm⟩
    · exact .inl hpre

/-- Names lead down. -/
theorem prefix_location {loc : List String} (hroot : "/" ∉ p) (hup : ".." ∉ p) :
    loc <+: location loc p := by
  induction p generalizing loc with
  | nil => exact List.prefix_refl loc
  | cons x p ih =>
    obtain ⟨hx, hroot⟩ := not_or.mp (List.mem_cons.not.mp hroot)
    obtain ⟨hx', hup⟩ := not_or.mp (List.mem_cons.not.mp hup)
    refine List.IsPrefix.trans ?_ (ih hroot hup)
    rw [next, if_neg (Ne.symm hx), if_neg (Ne.symm hx')]
    split_ifs
    · exact List.prefix_refl loc
    · exact List.prefix_append loc [x]

/-- A step below a location is made there, or it is one of the names on the way. -/
theorem mem_of_prefix_location {dir loc : List String} (h : dir ++ [x] <+: location loc p) :
    dir ++ [x] <+: loc ∨ x ∈ p ∧ x ≠ "" ∧ x ≠ "/" := by
  induction p using List.reverseRecOn with
  | nil => exact .inl h
  | append_singleton p y ih =>
    rw [location_concat] at h
    rcases prefix_next h with hpre | ⟨heq, hnext⟩
    · exact (ih hpre).imp_right fun hx => ⟨List.mem_append_left _ hx.1, hx.2⟩
    · obtain ⟨hloc, hxy⟩ := List.append_inj' heq rfl
      obtain rfl := (List.cons.inj hxy).1
      refine .inr ⟨List.mem_append_right _ (List.mem_singleton_self x), ?_, ?_⟩
      · rintro rfl
        exact absurd (congrArg List.length (hnext.trans heq)) (by simp [next])
      · rintro rfl
        exact absurd (hnext.trans heq) (by simp [next])

/-- A step below a location on the way along a path and another one is made on the way along the
    first, or it is one of the names of the second. -/
theorem mem_of_prefix_join {dir : List String} {q q' : Path} (hq' : q' <+: join p q)
    (h : dir ++ [x] <+: location cwd q') :
    (∃ p', p' <+: p ∧ dir ++ [x] <+: location cwd p') ∨ x ∈ q ∧ x ≠ "" ∧ x ≠ "/" := by
  unfold join at hq'
  split_ifs at hq'
  · rcases mem_of_prefix_location h with hpre | hx
    · exact .inl ⟨[], List.nil_prefix, hpre⟩
    · exact .inr ⟨hq'.subset hx.1, hx.2⟩
  · exact .inl ⟨q', hq', h⟩
  · rcases List.prefix_concat_iff.mp hq' with rfl | hpre
    · exact .inl ⟨p, List.prefix_refl p, by rwa [location_concat] at h⟩
    · exact .inl ⟨q', hpre, h⟩
  · rcases List.prefix_or_prefix_of_prefix hq' (List.prefix_append (withoutSlash p) q) with
      hpre | ⟨r, rfl⟩
    · exact .inl ⟨q', hpre.trans (withoutSlash_start p), h⟩
    · have hr : r <+: q := (List.prefix_append_right_inj _).mp hq'
      rw [location_append] at h
      rcases mem_of_prefix_location h with hpre | hx
      · exact .inl ⟨_, withoutSlash_start p, hpre⟩
      · exact .inr ⟨hr.subset hx.1, hx.2⟩

end Location

/-! ### Well-formed paths -/

/-- Only the first element is `"/"`, only the last one is empty, and the others are names. -/
structure Formed (p : Path) : Prop where
  root : "/" ∉ p.tail
  slash : "" ∉ p.dropLast
  names : ∀ x ∈ p, x = "/" ∨ '/' ∉ x.toList

namespace Formed

variable {p q : Path}

theorem start (h : Formed p) (hq : q <+: p) : Formed q := by
  obtain ⟨rest, rfl⟩ := hq
  refine ⟨fun hmem => h.root ?_, fun hmem => h.slash ?_,
    fun x hx => h.names x (List.mem_append_left _ hx)⟩
  · cases q with
    | nil => cases hmem
    | cons x q => exact List.mem_append_left _ hmem
  · rcases List.eq_nil_or_concat' rest with rfl | ⟨l, x, rfl⟩
    · rwa [List.append_nil]
    · rw [← List.append_assoc, List.dropLast_concat]
      exact List.mem_append_left _ (List.mem_of_mem_dropLast hmem)

theorem ne_slash {x : String} (h : Formed (p ++ [x])) (hroot : p ++ [x] ≠ ["/"]) : x ≠ "/" := by
  rintro rfl
  cases p with
  | nil => exact hroot rfl
  | cons y p => exact h.root (List.mem_append_right _ (List.mem_singleton_self _))

theorem parent (h : Formed p) : Formed (parentPath p) := h.start (parentPath_start p)

/-- No empty name is left without the trailing slash. -/
theorem notMem_withoutSlash (h : Formed p) : "" ∉ withoutSlash p := by
  unfold withoutSlash
  split_ifs with hlast
  · exact h.slash
  · intro hmem
    rcases List.eq_nil_or_concat' p with rfl | ⟨l, x, rfl⟩
    · cases hmem
    · have hslash := h.slash
      rw [List.getLast?_concat, Option.some.injEq] at hlast
      rw [List.dropLast_concat] at hslash
      rcases List.mem_append.mp hmem with hl | hx
      · exact hslash hl
      · exact hlast (List.mem_singleton.mp hx).symm

theorem withoutSlash_parentPath (h : Formed p) : withoutSlash (parentPath p) = parentPath p := by
  refine if_neg fun hlast => ?_
  have hmem := List.mem_of_getLast? hlast
  unfold parentPath at hmem
  split_ifs at hmem with hroot
  · rw [hroot] at hmem
    exact absurd hmem (by decide)
  · exact h.slash hmem

/-- A path is its own parent, or it leads one step on from it. -/
theorem location_eq (h : Formed p) (cwd : List String) : parentPath p = p ∨
    location cwd p = next (location cwd (parentPath p)) (filename p) := by
  rcases List.eq_nil_or_concat' p with rfl | ⟨l, x, rfl⟩
  · exact .inl rfl
  · by_cases hroot : l ++ [x] = ["/"]
    · exact .inl (if_pos hroot)
    · have hx := h.ne_slash hroot
      exact .inr (by rw [filename_concat hx, parentPath_concat hx, location_concat])

/-- A trailing slash after a name. -/
theorem concat_slash (h : Formed p) (hne : p ≠ []) (hempty : "" ∉ p) : Formed (p ++ [""]) := by
  refine ⟨fun hmem => ?_, by rwa [List.dropLast_concat], fun x hx => ?_⟩
  · rw [List.tail_append_of_ne_nil hne] at hmem
    rcases List.mem_append.mp hmem with hmem | hmem
    · exact h.root hmem
    · exact absurd hmem (by decide)
  · rcases List.mem_append.mp hx with hx | hx
    · exact h.names x hx
    · exact .inr (List.mem_singleton.mp hx ▸ by decide)

theorem join (hp : Formed p) (hq : Formed q) : Formed (join p q) := by
  have hw : Formed (withoutSlash p) := hp.start (withoutSlash_start p)
  unfold FilePath.join
  split_ifs with habs hnil hname
  · exact hq
  · exact hp
  · have hlast : withoutSlash p = p := by
      refine if_neg fun hlast => hname ?_
      rw [filename, hlast]
      rfl
    exact hp.concat_slash (by rintro rfl; exact hname rfl) (hlast ▸ hp.notMem_withoutSlash)
  · have hqroot : "/" ∉ q := by
      cases q with
      | nil => exact List.not_mem_nil
      | cons y q =>
        intro hmem
        rcases List.mem_cons.mp hmem with rfl | hmem
        · exact habs rfl
        · exact hq.root hmem
    refine ⟨fun hmem => ?_, fun hmem => ?_, fun x hx => ?_⟩
    · cases hwp : withoutSlash p with
      | nil =>
        rw [hwp, List.nil_append] at hmem
        exact hqroot (List.mem_of_mem_tail hmem)
      | cons y l =>
        rw [hwp] at hmem hw
        rcases List.mem_append.mp hmem with hmem | hmem
        · exact hw.root hmem
        · exact hqroot hmem
    · rw [List.dropLast_append_of_ne_nil hnil] at hmem
      rcases List.mem_append.mp hmem with hmem | hmem
      · exact hp.notMem_withoutSlash hmem
      · exact hq.slash hmem
    · rcases List.mem_append.mp hx with hx | hx
      · exact hw.names x hx
      · exact hq.names x hx

/-- A path leads through plain names. -/
theorem plain_location (h : Formed p) {cwd : List String} (hcwd : ∀ x ∈ cwd, Plain x) :
    ∀ x ∈ location cwd p, Plain x := by
  induction p using List.reverseRecOn with
  | nil => exact hcwd
  | append_singleton p x ih =>
    have hp := ih (h.start (List.prefix_append p [x]))
    have hx := h.names x (List.mem_append_right _ (List.mem_singleton_self x))
    intro y hy
    rw [location_concat, next] at hy
    split_ifs at hy with hroot hstay hup
    · cases hy
    · exact hp y hy
    · exact hp y (List.mem_of_mem_dropLast hy)
    · rcases List.mem_append.mp hy with hy | hy
      · exact hp y hy
      · obtain ⟨hne, hdot⟩ := not_or.mp hstay
        exact List.mem_singleton.mp hy ▸ ⟨hne, hdot, hup, hx.resolve_left hroot⟩

end Formed

/-! ### What a string spells -/

/-- Splitting leaves no separator. -/
theorem notMem_of_mem_splitOn {α : Type*} [BEq α] [LawfulBEq α] {sep : α} {l piece : List α}
    (h : piece ∈ l.splitOn sep) : sep ∉ piece := by
  induction l generalizing piece with
  | nil =>
    rw [List.splitOn_nil, List.mem_singleton] at h
    exact h ▸ List.not_mem_nil
  | cons x l ih =>
    rw [List.splitOn_cons_eq_if_modifyHead] at h
    split_ifs at h with hx
    · rcases List.mem_cons.mp h with rfl | h
      · exact List.not_mem_nil
      · exact ih h
    · -- the first piece begins with an element that is no separator
      cases hsplit : l.splitOn sep with
      | nil => exact absurd hsplit (List.splitOn_ne_nil sep l)
      | cons first rest =>
        rw [hsplit] at h ih
        rcases List.mem_cons.mp h with rfl | h
        · rw [List.mem_cons, not_or]
          exact ⟨fun heq => hx (heq ▸ beq_self_eq_true sep), ih List.mem_cons_self⟩
        · exact ih (List.mem_cons_of_mem _ h)

theorem of_mem_names {cs : List Char} {x : String} (h : x ∈ names cs) :
    x ≠ "" ∧ '/' ∉ x.toList := by
  obtain ⟨piece, hpiece, rfl⟩ := List.mem_map.mp h
  obtain ⟨hsplit, hne⟩ := List.mem_filter.mp hpiece
  rw [String.toList_ofList]
  refine ⟨fun heq => of_decide_eq_true hne ?_, notMem_of_mem_splitOn hsplit⟩
  exact String.ofList_injective heq

/-- There are at most half as many names as characters. -/
theorem two_mul_length_names (cs : List Char) : 2 * (names cs).length ≤ cs.length + 1 := by
  have hmore : 2 * (names cs).length + (if (cs.splitOn '/').head? = some [] then 1 else 0) ≤
      cs.length + 1 := by
    rw [names, List.length_map]
    induction cs with
    | nil => decide
    | cons c cs ih =>
      rw [List.splitOn_cons_eq_if_modifyHead]
      cases hsplit : cs.splitOn '/' with
      | nil => exact absurd hsplit (List.splitOn_ne_nil '/' cs)
      | cons first rest =>
        rw [hsplit] at ih
        by_cases hc : (c == '/') = true
        · rw [if_pos hc]
          simp at ih ⊢
          omega
        · rw [if_neg hc]
          cases first <;> simp at ih ⊢ <;> omega
  exact le_trans (Nat.le_add_right _ _) hmore

/-- The names of a path that is spelt. -/
theorem filter_parse (s : String) :
    (parse s).filter (fun x => x ≠ "" ∧ x ≠ "/") = names s.toList := by
  have hnames : (names s.toList).filter (fun x => x ≠ "" ∧ x ≠ "/") = names s.toList :=
    List.filter_eq_self.mpr fun x hx =>
      decide_eq_true ⟨(of_mem_names hx).1, ne_slash_of_noSlash (of_mem_names hx).2⟩
  rw [parse, List.filter_append, List.filter_append, hnames]
  split_ifs <;> simp

theorem formed_parse (s : String) : Formed (parse s) := by
  have hroot : "/" ∉ names s.toList :=
    fun hmem => ne_slash_of_noSlash (of_mem_names hmem).2 rfl
  have hempty : "" ∉ (if s.toList.head? = some '/' then ["/"] else []) ++ names s.toList := by
    intro hmem
    rcases List.mem_append.mp hmem with hmem | hmem
    · split_ifs at hmem
      exacts [absurd hmem (by decide), List.not_mem_nil hmem]
    · exact (of_mem_names hmem).1 rfl
  have hbody : Formed ((if s.toList.head? = some '/' then ["/"] else []) ++ names s.toList) := by
    refine ⟨?_, fun hmem => hempty (List.mem_of_mem_dropLast hmem), fun x hx => ?_⟩
    · split_ifs
      · exact hroot
      · exact fun hmem => hroot (List.mem_of_mem_tail hmem)
    · rcases List.mem_append.mp hx with hx | hx
      · split_ifs at hx
        exacts [.inl (List.mem_singleton.mp hx), absurd hx List.not_mem_nil]
      · exact .inr (of_mem_names hx).2
  rw [parse]
  by_cases hslash : names s.toList ≠ [] ∧ s.toList.getLast? = some '/'
  · rw [if_pos hslash]
    exact hbody.concat_slash (List.append_ne_nil_of_right_ne_nil _ hslash.1) hempty
  · rw [if_neg hslash, List.append_nil]
    exact hbody

/-- What two characters spell. -/
theorem parse_pair {s : String} {a b : Char} (h : s.toList = [a, b]) :
    parse s = ["/"] ∨ (∃ x, x ≠ "/" ∧ x.toList.length = 1 ∧ parse s = ["/", x]) ∨
      (∃ x, x ≠ "/" ∧ parse s = [x, ""]) ∨ parse s = [s] ∧ '/' ∉ s.toList := by
  have hs : String.ofList [a, b] = s := by rw [← h, String.ofList_toList]
  rw [parse, names, h]
  by_cases ha : a = '/' <;> by_cases hb : b = '/'
  · subst ha hb
    exact .inl (by decide)
  · subst ha
    refine .inr (.inl ⟨String.ofList [b], fun heq => hb ?_, by simp, ?_⟩)
    · simpa using congrArg String.toList heq
    · simp [List.splitOn_cons_eq_if_modifyHead, hb]
  · subst hb
    refine .inr (.inr (.inl ⟨String.ofList [a], fun heq => ha ?_, ?_⟩))
    · simpa using congrArg String.toList heq
    · simp [List.splitOn_cons_eq_if_modifyHead, ha]
  · refine .inr (.inr (.inr ⟨?_, ?_⟩))
    · simp [List.splitOn_cons_eq_if_modifyHead, ha, hb, hs]
    · simp [Ne.symm ha, Ne.symm hb]

/-! ### What stands there -/

section Status

variable (t : FileTree.Tree String)

/-- The path leads to a directory. -/
def isDirectory (loc : List String) : Bool := loc = [] ∨ (loc, Kind.directory) ∈ t.entries

/-- The location that a path leads to from `loc`, if each step is made in a directory. -/
def resolve : (loc : List String) → Path → Option (List String)
  | loc, [] => some loc
  | loc, x :: rest => if x = "/" ∨ isDirectory t loc then resolve (next loc x) rest else none

/-- `fs::status`: the location of a path and what stands there, if there is anything. -/
def status (cwd : List String) (p : Path) : Option (List String × Kind) :=
  if p = [] then none
  else
    (resolve t cwd p).bind fun loc =>
      if isDirectory t loc then some (loc, .directory)
      else (t.entries.find? (·.1 = loc)).map fun e => (loc, e.2)

/-- The location of a path that leads to a directory. -/
def directory (cwd : List String) (p : Path) : Option (List String) :=
  match status t cwd p with
  | some (loc, .directory) => some loc
  | _ => none

/-- Every step on the way leads to a directory. -/
def Reachable (cwd : List String) (p : Path) : Prop :=
  ∀ q, q <+: p → isDirectory t (location cwd q) = true

variable {t} {cwd loc : List String} {p : Path}

theorem resolve_location (h : resolve t cwd p = some loc) : loc = location cwd p := by
  induction p generalizing cwd with
  | nil => exact (Option.some.inj h).symm
  | cons x rest ih =>
    rw [resolve] at h
    split_ifs at h
    exact ih h

theorem status_location {k : Kind} (h : status t cwd p = some (loc, k)) :
    loc = location cwd p := by
  unfold status at h
  split_ifs at h
  obtain ⟨loc', hresolve, hkind⟩ := Option.bind_eq_some_iff.mp h
  have hloc : loc' = loc := by
    split_ifs at hkind
    · exact congrArg Prod.fst (Option.some.inj hkind)
    · obtain ⟨e, -, heq⟩ := Option.map_eq_some_iff.mp hkind
      exact congrArg Prod.fst heq
  exact hloc ▸ resolve_location hresolve

theorem status_of_directory (h : directory t cwd p = some loc) :
    status t cwd p = some (loc, .directory) := by
  unfold directory at h
  split at h
  case h_1 loc' hstatus =>
    obtain rfl := Option.some.inj h
    exact hstatus
  case h_2 => cases h

theorem isDirectory_of_directory (h : directory t cwd p = some loc) :
    isDirectory t loc = true := by
  have hstatus := status_of_directory h
  unfold status at hstatus
  split_ifs at hstatus
  obtain ⟨loc', -, hkind⟩ := Option.bind_eq_some_iff.mp hstatus
  split_ifs at hkind with hdir
  · obtain ⟨rfl, -⟩ := Prod.mk.inj (Option.some.inj hkind)
    exact hdir
  · obtain ⟨⟨q, k⟩, hfind, heq⟩ := Option.map_eq_some_iff.mp hkind
    obtain ⟨rfl, rfl⟩ := Prod.mk.inj heq
    have hq : q = loc' := by simpa using List.find?_some hfind
    rw [isDirectory, decide_eq_true_eq]
    exact .inr (hq ▸ List.mem_of_find?_eq_some hfind)

theorem directory_location (h : directory t cwd p = some loc) : loc = location cwd p :=
  status_location (status_of_directory h)

/-- Every directory on the way to one. -/
theorem isDirectory_start {q : List String} (h : isDirectory t loc = true) (hq : q <+: loc) :
    isDirectory t q = true := by
  rw [isDirectory, decide_eq_true_eq] at h ⊢
  obtain ⟨rest, rfl⟩ := hq
  by_cases hnil : q = []
  · exact .inl hnil
  · rcases eq_or_ne rest [] with rfl | hrest
    · rwa [List.append_nil] at h
    · exact .inr (t.ancestor_mem hnil hrest (h.resolve_left fun heq =>
        hnil (List.append_eq_nil_iff.mp heq).1))

theorem isDirectory_ofFolders {folders : List (List String)} {x : String}
    (hx : ∀ f ∈ folders, x ∉ f) {hasFile : List String → Bool} :
    isDirectory (.ofFolders folders x hx hasFile) loc = true ↔
      loc = [] ∨ ∃ f ∈ folders, loc <+: f := by
  rw [isDirectory, decide_eq_true_eq, Tree.directory_mem_ofFolders hx]
  exact ⟨Or.imp_right And.right, fun h => or_iff_not_imp_left.mpr fun hne =>
    ⟨hne, h.resolve_left hne⟩⟩

theorem resolve_append (q : Path) :
    resolve t loc (p ++ q) = (resolve t loc p).bind fun loc' => resolve t loc' q := by
  induction p generalizing loc with
  | nil => rfl
  | cons x p ih =>
    rw [List.cons_append, resolve, resolve]
    split_ifs
    · exact ih
    · rfl

/-- A path can be followed if every step on the way is made in a directory. -/
theorem resolve_eq_some
    (h : ∀ q x, q ++ [x] <+: p → x = "/" ∨ isDirectory t (location loc q) = true) :
    resolve t loc p = some (location loc p) := by
  induction p generalizing loc with
  | nil => rfl
  | cons x p ih =>
    have hfirst : x = "/" ∨ isDirectory t loc = true := h [] x ⟨p, rfl⟩
    rw [resolve, if_pos hfirst]
    exact ih fun q y hq => h (x :: q) y (List.cons_prefix_cons.mpr ⟨rfl, hq⟩)

/-- Each step of a path that can be followed is made in a directory. -/
theorem isDirectory_of_resolve {q : Path} {x : String} (h : resolve t cwd p = some loc)
    (hq : q ++ [x] <+: p) (hx : x ≠ "/") : isDirectory t (location cwd q) = true := by
  obtain ⟨rest, rfl⟩ := hq
  rw [List.append_assoc, resolve_append] at h
  obtain ⟨loc', hresolve, hstep⟩ := Option.bind_eq_some_iff.mp h
  rw [List.singleton_append, resolve] at hstep
  split_ifs at hstep with hdir
  exact resolve_location hresolve ▸ hdir.resolve_left hx

theorem directory_of_resolve (hne : p ≠ []) (h : resolve t cwd p = some loc)
    (hdir : isDirectory t loc = true) : directory t cwd p = some loc := by
  have hstatus : status t cwd p = some (loc, .directory) := by
    rw [status, if_neg hne, h]
    exact if_pos hdir
  rw [directory, hstatus]

namespace Reachable

theorem start {q : Path} (h : Reachable t cwd p) (hq : q <+: p) : Reachable t cwd q :=
  fun q' hq' => h q' (hq'.trans hq)

theorem isDirectory (h : Reachable t cwd p) : isDirectory t (location cwd p) = true :=
  h p (List.prefix_refl p)

/-- A path through directories. -/
theorem directory_eq (h : Reachable t cwd p) (hne : p ≠ []) :
    directory t cwd p = some (location cwd p) :=
  directory_of_resolve hne
    (resolve_eq_some fun q x hq => .inr (h q ((List.prefix_append q [x]).trans hq))) h.isDirectory

theorem join {x : String} (h : Reachable t cwd p) (hx : Plain x)
    (hdir : FilePath.isDirectory t (location cwd p ++ [x]) = true) :
    Reachable t cwd (join p [x]) := by
  intro q hq
  rw [join_plain hx, List.prefix_concat_iff] at hq
  rcases hq with rfl | hq
  · rwa [location_concat, location_withoutSlash, next_plain hx]
  · exact h q (hq.trans (withoutSlash_start p))

end Reachable

/-- The folder of a path that leads somewhere. -/
theorem Formed.directory_parentPath (hp : Formed p) {e : List String × Kind}
    (h : status t cwd p = some e) (hne : parentPath p ≠ []) :
    directory t cwd (parentPath p) = some (location cwd (parentPath p)) := by
  rcases List.eq_nil_or_concat' p with rfl | ⟨l, x, rfl⟩
  · exact absurd rfl hne
  · by_cases hroot : l ++ [x] = ["/"]
    · rw [hroot]
      rfl
    · have hx := hp.ne_slash hroot
      rw [parentPath_concat hx] at hne ⊢
      rw [status, if_neg (List.append_ne_nil_of_right_ne_nil _ (List.cons_ne_nil _ _)),
        resolve_append] at h
      obtain ⟨loc, hresolve, -⟩ := Option.bind_eq_some_iff.mp h
      obtain ⟨loc', hl, hstep⟩ := Option.bind_eq_some_iff.mp hresolve
      have hdir : isDirectory t loc' = true := by
        rw [resolve] at hstep
        split_ifs at hstep with hdir
        exact hdir.resolve_left hx
      exact resolve_location hl ▸ directory_of_resolve hne hl hdir

/-- A path without `".."` leads to a directory, if there is one at its location. -/
theorem Formed.directory_of_location (hp : Formed p) (hne : p ≠ []) (hup : ".." ∉ p)
    (h : isDirectory t (location cwd p) = true) : directory t cwd p = some (location cwd p) := by
  refine directory_of_resolve hne (resolve_eq_some fun q x hq => ?_) h
  by_cases hx : x = "/"
  · exact .inl hx
  · obtain ⟨rest, rfl⟩ := hq
    rw [List.append_assoc, location_append] at h
    rw [List.append_assoc] at hp hup
    refine .inr (isDirectory_start h (prefix_location ?_ ?_))
    · cases q with
      | nil => exact List.mem_cons.not.mpr (not_or.mpr ⟨Ne.symm hx, hp.root⟩)
      | cons y q => exact fun hmem => hp.root (List.mem_append_right _ hmem)
    · exact fun hmem => hup (List.mem_append_right _ hmem)

/-- Each step of a path is made on the way to where another path makes one. -/
def SpeltAlong (cwd : List String) (p file : Path) : Prop :=
  ∀ q x, q ++ [x] <+: p → x ≠ "/" →
    ∃ q' x', q' ++ [x'] <+: file ∧ x' ≠ "/" ∧ location cwd q <+: location cwd q'

/-- A folder is spelt along a file in it. -/
theorem speltAlong_concat (cwd : List String) (p : Path) (x : String) {y : String} (hy : y ≠ "/") :
    SpeltAlong cwd (p ++ [x]) (p ++ [y]) := by
  intro q z hq hz
  rcases List.prefix_concat_iff.mp hq with heq | hq
  · obtain ⟨rfl, -⟩ := List.append_inj' heq rfl
    exact ⟨q, y, List.prefix_refl _, hy, List.prefix_refl _⟩
  · exact ⟨q, z, hq.trans (List.prefix_append p [y]), hz, List.prefix_refl _⟩

/-- A path can be followed if another one can along which it is spelt. -/
theorem SpeltAlong.directory {file : Path} (h : SpeltAlong cwd p file) (hne : p ≠ [])
    {e : List String × Kind} (hfile : status t cwd file = some e)
    (hdir : isDirectory t (location cwd p) = true) :
    FilePath.directory t cwd p = some (location cwd p) := by
  rw [status] at hfile
  split_ifs at hfile
  obtain ⟨loc, hresolve, -⟩ := Option.bind_eq_some_iff.mp hfile
  refine directory_of_resolve hne (resolve_eq_some fun q x hq => ?_) hdir
  by_cases hx : x = "/"
  · exact .inl hx
  · -- the folder where the other path makes its step is there, so those on the way to it are
    obtain ⟨q', x', hq', hx', hpre⟩ := h q x hq hx
    exact .inr (isDirectory_start (isDirectory_of_resolve hresolve hq' hx') hpre)

end Status

end FilePath
