import Mathlib.Data.List.Basic
import Mathlib.Data.List.Infix
import Mathlib.Data.List.Sort

set_option autoImplicit false

/- The path language shared by the policy layer and the tools. A project path is a string;
the file system reads it as the list of its parts, the way `pathlib` does. -/
namespace SeMentor.Paths

abbrev Str := List Char

instance lawfulBEq_str : LawfulBEq Str := inferInstance

structure ProjectPathError where
  message : String
  deriving DecidableEq, Repr

/-- The characters `str.strip` removes at both ends. -/
def isSpace (c : Char) : Bool :=
  let code := c.toNat
  (9 ≤ code && code ≤ 13) || (28 ≤ code && code ≤ 32) || code == 0x85 || code == 0xa0 ||
    code == 0x1680 || (0x2000 ≤ code && code ≤ 0x200a) || code == 0x2028 || code == 0x2029 ||
    code == 0x202f || code == 0x205f || code == 0x3000

def strip (text : Str) : Str := ((text.dropWhile isSpace).reverse.dropWhile isSpace).reverse

def slashes (text : Str) : Str := text.map fun c => if c = '\\' then '/' else c

def hasDrivePrefix : Str → Bool
  | letter :: ':' :: _ => letter.isAlpha
  | _ => false

/-- The loop over the parts of a path: empty parts and `.` are dropped, `..` is refused. -/
def keptParts : List Str → Except ProjectPathError (List Str)
  | [] => .ok []
  | part :: rest =>
      if part = [] ∨ part = ['.'] then keptParts rest
      else if part = ['.', '.'] then
        .error ⟨"project path cannot traverse outside the workspace"⟩
      else match keptParts rest with
        | .ok kept => .ok (part :: kept)
        | .error reason => .error reason

def joinParts (parts : List Str) : Str :=
  if parts = [] then ['.'] else ['/'].intercalate parts

def canonicalProjectPath (path : Str) : Except ProjectPathError Str :=
  let raw := slashes (strip path)
  if raw = [] then .error ⟨"project path is empty"⟩
  else if raw.head? = some '/' ∨ hasDrivePrefix raw = true then
    .error ⟨"project path must be relative"⟩
  else match keptParts (raw.splitOn '/') with
    | .ok parts => .ok (joinParts parts)
    | .error reason => .error reason

def canonicalPathsFrom (normalized : List Str) : List Str → Except ProjectPathError (List Str)
  | [] => .ok normalized
  | path :: rest => match canonicalProjectPath path with
    | .error reason => .error reason
    | .ok item =>
        if item ∈ normalized then canonicalPathsFrom normalized rest
        else canonicalPathsFrom (normalized ++ [item]) rest

def canonicalProjectPaths (paths : List Str) : Except ProjectPathError (List Str) :=
  canonicalPathsFrom [] paths

/-- The canonical form, if there is one. -/
def canonical? (path : Str) : Option Str := (canonicalProjectPath path).toOption

/-- `sorted` on texts. -/
def sortTexts (texts : List Str) : List Str :=
  texts.insertionSort fun one other => one < other ∨ one = other

@[simp] theorem mem_sortTexts {texts : List Str} {text : Str} :
    text ∈ sortTexts texts ↔ text ∈ texts := List.mem_insertionSort _

/-- The parts of `Path(text)` for a relative path. -/
def parts (text : Str) : List Str :=
  (text.splitOn '/').filter fun part => part ≠ [] ∧ part ≠ ['.']

def isAbsolute (text : Str) : Bool := text.head? = some '/'

/-- A part that survives canonicalisation. -/
def Plain (part : Str) : Prop :=
  part ≠ [] ∧ part ≠ ['.'] ∧ part ≠ ['.', '.'] ∧ '/' ∉ part

theorem keptParts_eq_filter {given kept : List Str} (success : keptParts given = .ok kept) :
    kept = given.filter (fun part => part ≠ [] ∧ part ≠ ['.']) ∧ ['.', '.'] ∉ kept := by
  induction given generalizing kept with
  | nil =>
      cases success
      simp
  | cons part rest ih =>
      unfold keptParts at success
      split at success
      · rename_i dropped
        obtain ⟨same, clean⟩ := ih success
        refine ⟨?_, clean⟩
        rw [same]
        rcases dropped with rfl | rfl <;> simp
      · rename_i used
        split at success
        · cases success
        · rename_i climbing
          split at success
          · rename_i tail kept_rest
            cases success
            obtain ⟨same, clean⟩ := ih kept_rest
            have keeps := not_or.mp used
            refine ⟨?_, ?_⟩
            · rw [List.filter_cons_of_pos (by simpa using keeps), ← same]
            · simpa [eq_comm] using ⟨climbing, clean⟩
          · cases success

theorem mem_splitOn_slash {text part : Str} (inside : part ∈ text.splitOn '/') : '/' ∉ part := by
  induction text generalizing part with
  | nil =>
      simp only [List.splitOn_nil, List.mem_singleton] at inside
      simp [inside]
  | cons head tail ih =>
      rw [List.splitOn_cons_eq_if_modifyHead] at inside
      split at inside
      · rcases List.mem_cons.mp inside with rfl | later
        · simp
        · exact ih later
      · rename_i other
        obtain ⟨first, rest, shape⟩ := List.exists_cons_of_ne_nil (List.splitOn_ne_nil '/' tail)
        rw [shape, List.modifyHead_cons, List.mem_cons] at inside
        rcases inside with rfl | later
        · have clean : '/' ∉ first := ih (by simp [shape])
          simp only [beq_iff_eq] at other
          simp [clean, Ne.symm other]
        · exact ih (by simp [shape, later])

/-- A canonical path is `.` or plain parts joined by single slashes. -/
theorem canonicalProjectPath_shape {path canonical : Str}
    (success : canonicalProjectPath path = .ok canonical) :
    ∃ kept : List Str, (∀ part ∈ kept, Plain part) ∧ canonical = joinParts kept := by
  simp only [canonicalProjectPath] at success
  split at success
  · cases success
  · split at success
    · cases success
    · split at success
      · rename_i kept kept_ok
        cases success
        obtain ⟨same, clean⟩ := keptParts_eq_filter kept_ok
        refine ⟨kept, ?_, rfl⟩
        intro part inside
        have given := inside
        rw [same, List.mem_filter] at given
        simp only [ne_eq, Bool.decide_and, decide_not, Bool.and_eq_true, Bool.not_eq_true',
          decide_eq_false_iff_not] at given
        refine ⟨given.2.1, given.2.2, ?_, mem_splitOn_slash given.1⟩
        rintro rfl
        exact clean inside
      · cases success

theorem canonicalPathsFrom_mem {normalized paths result : List Str} {path : Str}
    (success : canonicalPathsFrom normalized paths = .ok result) (listed : path ∈ result) :
    path ∈ normalized ∨ path ∈ paths.filterMap canonical? := by
  induction paths generalizing normalized with
  | nil =>
      cases success
      exact Or.inl listed
  | cons first rest ih =>
      unfold canonicalPathsFrom at success
      cases canonical : canonicalProjectPath first with
      | error reason => simp [canonical] at success
      | ok item =>
          simp only [canonical] at success
          have shown : canonical? first = some item :=
            by simp [canonical?, canonical, Except.toOption]
          rw [List.filterMap_cons_some shown]
          split at success
          · rcases ih success with before | later
            · exact Or.inl before
            · exact Or.inr (List.mem_cons_of_mem _ later)
          · rcases ih success with before | later
            · rcases List.mem_append.mp before with old | new
              · exact Or.inl old
              · exact Or.inr (by simp [List.mem_singleton.mp new])
            · exact Or.inr (List.mem_cons_of_mem _ later)

theorem canonicalProjectPaths_mem {paths result : List Str} {path : Str}
    (success : canonicalProjectPaths paths = .ok result) (listed : path ∈ result) :
    path ∈ paths.filterMap canonical? := by
  rcases canonicalPathsFrom_mem success listed with none_before | later
  · simp at none_before
  · exact later

theorem canonicalPathsFrom_keeps {normalized paths result : List Str} {path : Str}
    (success : canonicalPathsFrom normalized paths = .ok result)
    (given : path ∈ normalized ∨ path ∈ paths.filterMap canonical?) : path ∈ result := by
  induction paths generalizing normalized with
  | nil =>
      cases success
      simpa using given
  | cons first rest ih =>
      unfold canonicalPathsFrom at success
      cases canonical : canonicalProjectPath first with
      | error reason => simp [canonical] at success
      | ok item =>
          simp only [canonical] at success
          have shown : canonical? first = some item :=
            by simp [canonical?, canonical, Except.toOption]
          rw [List.filterMap_cons_some shown, List.mem_cons] at given
          split at success
          · rename_i before
            apply ih success
            rcases given with old | rfl | later
            · exact Or.inl old
            · exact Or.inl before
            · exact Or.inr later
          · apply ih success
            rcases given with old | rfl | later
            · exact Or.inl (List.mem_append_left _ old)
            · exact Or.inl (by simp)
            · exact Or.inr later

/-- The canonical paths are the canonical forms of the given ones. -/
theorem mem_canonicalProjectPaths {paths result : List Str} {path : Str}
    (success : canonicalProjectPaths paths = .ok result) :
    path ∈ result ↔ path ∈ paths.filterMap canonical? :=
  ⟨canonicalProjectPaths_mem success, fun given => canonicalPathsFrom_keeps success (Or.inr given)⟩

theorem parts_joinParts {kept : List Str} (plain : ∀ part ∈ kept, Plain part) :
    parts (joinParts kept) = kept := by
  unfold parts joinParts
  split
  · rename_i none_kept
    subst none_kept
    decide
  · rename_i some_kept
    rw [List.splitOn_intercalate '/' (fun part inside => (plain part inside).2.2.2) some_kept]
    refine List.filter_eq_self.mpr fun part inside => ?_
    simp [(plain part inside).1, (plain part inside).2.1]

theorem joinParts_relative {kept : List Str} (plain : ∀ part ∈ kept, Plain part) :
    isAbsolute (joinParts kept) = false := by
  unfold isAbsolute joinParts
  split
  · decide
  · rename_i some_kept
    obtain ⟨first, rest, rfl⟩ := List.exists_cons_of_ne_nil some_kept
    obtain ⟨letter, tail, rfl⟩ := List.exists_cons_of_ne_nil (plain first (by simp)).1
    have clean := (plain (letter :: tail) (by simp)).2.2.2
    have apart : letter ≠ '/' := by
      rintro rfl
      simp at clean
    cases rest <;> simp [List.intercalate, List.intersperse, apart]

end SeMentor.Paths
