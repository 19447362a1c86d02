import Mathlib.Data.Char
import Mathlib.Data.List.Lex
import Mathlib.Data.List.Sort
import SeMentor.Lib.Utf8
import SeMentor.Host

set_option autoImplicit false

/- `GitService.status`: what is read from the output of `git status --porcelain=v1 -z`. -/
namespace SeMentor.Git

open Paths Models Host

def nul : Char := Char.ofNat 0

/-! ### `GitService.status` -/

structure GitStatus where
  modified : List Str
  untracked : List Str
  deriving DecidableEq, Repr

def untrackedCode : Str := "??".toList

/-- The loop over the entries. -/
def readEntries : List Str → GitStatus
  | [] => ⟨[], []⟩
  | entry :: rest =>
      let later := readEntries rest
      if entry = [] then later
      else if entry.take 2 = untrackedCode then
        { later with untracked := entry.drop 3 :: later.untracked }
      else { later with modified := entry.drop 3 :: later.modified }

def sortPaths (paths : List Str) : List Str := paths.insertionSort (· ≤ ·)

/-- `status`, from the bytes git has written. -/
def status (output : Bytes) : GitStatus :=
  let found := readEntries ((Utf8.decodeIgnoring output).splitOn nul)
  ⟨sortPaths found.modified, sortPaths found.untracked⟩

/-! ### What git writes -/

/-- A path as git knows it. -/
structure GitPath where
  text : Str
  nonempty : text ≠ []
  no_nul : nul ∉ text

inductive Letter where
  | unmodified | modified | typeChanged | added | deleted | renamed | copied | unmerged
  deriving DecidableEq, Repr

def Letter.char : Letter → Char
  | .unmodified => ' '
  | .modified => 'M'
  | .typeChanged => 'T'
  | .added => 'A'
  | .deleted => 'D'
  | .renamed => 'R'
  | .copied => 'C'
  | .unmerged => 'U'

/-- A record with the state of a path in the index and in the working tree. A rename or a copy also
has the path it comes from. -/
inductive StatusRecord where
  | untracked (path : GitPath)
  | changed (index worktree : Letter) (path : GitPath)
  | moved (index worktree : Letter) (path original : GitPath)

/-- The texts of a record that end with a NUL. -/
def StatusRecord.entries : StatusRecord → List Str
  | .untracked path => ['?' :: '?' :: ' ' :: path.text]
  | .changed index worktree path => [index.char :: worktree.char :: ' ' :: path.text]
  | .moved index worktree path original =>
      [index.char :: worktree.char :: ' ' :: path.text, original.text]

def encodeRecords (records : List StatusRecord) : Bytes :=
  encodeUtf8 ((records.flatMap StatusRecord.entries).flatMap (· ++ [nul]))

/-- The path of a record, when git tracks it. -/
def StatusRecord.tracked? : StatusRecord → Option Str
  | .untracked _ => none
  | .changed _ _ path | .moved _ _ path _ => some path.text

def StatusRecord.untracked? : StatusRecord → Option Str
  | .untracked path => some path.text
  | _ => none

def StatusRecord.original? : StatusRecord → Option Str
  | .moved _ _ _ original => some original.text
  | _ => none

/-- The paths of the records, and nothing else, each under its own name. -/
structure Exact (records : List StatusRecord) (found : GitStatus) : Prop where
  modified : ∀ path, path ∈ found.modified ↔ ∃ record ∈ records, record.tracked? = some path
  untracked : ∀ path, path ∈ found.untracked ↔ ∃ record ∈ records, record.untracked? = some path

/-! ### Entries -/

theorem encodeUtf8_eq (text : Str) : encodeUtf8 text = Utf8.encode text := by
  rw [encodeUtf8, Utf8.encode]
  show (text.flatMap String.utf8EncodeChar).toByteArray.data.toList = _
  rw [List.data_toByteArray]

theorem splitOn_pieces {pieces : List Str} (clean : ∀ piece ∈ pieces, nul ∉ piece) :
    (pieces.flatMap (· ++ [nul])).splitOn nul = pieces ++ [[]] := by
  induction pieces with
  | nil => rfl
  | cons piece rest ih =>
      have later := ih fun other inside => clean other (List.mem_cons_of_mem _ inside)
      rw [List.flatMap_cons, List.append_assoc, List.singleton_append,
        List.splitOn_append_cons_self_of_not_mem (clean piece List.mem_cons_self), later,
        List.cons_append]

theorem letter_ne_nul (letter : Letter) : nul ≠ letter.char := by cases letter <;> decide

theorem letter_ne_mark (letter : Letter) : letter.char ≠ '?' := by cases letter <;> decide

theorem entries_clean {record : StatusRecord} {entry : Str} (inside : entry ∈ record.entries) :
    nul ∉ entry := by
  have space : nul ≠ ' ' := by decide
  have mark : nul ≠ '?' := by decide
  cases record with
  | untracked path =>
      rw [List.mem_singleton.mp inside]
      simp [space, mark, path.no_nul]
  | changed index worktree path =>
      rw [List.mem_singleton.mp inside]
      simp [space, letter_ne_nul, path.no_nul]
  | moved index worktree path original =>
      rcases List.mem_cons.mp inside with rfl | last
      · simp [space, letter_ne_nul, path.no_nul]
      · rw [List.mem_singleton.mp last]
        exact original.no_nul

theorem entries_nonempty {record : StatusRecord} {entry : Str} (inside : entry ∈ record.entries) :
    entry ≠ [] := by
  cases record with
  | untracked path =>
      rw [List.mem_singleton.mp inside]
      exact List.cons_ne_nil _ _
  | changed index worktree path =>
      rw [List.mem_singleton.mp inside]
      exact List.cons_ne_nil _ _
  | moved index worktree path original =>
      rcases List.mem_cons.mp inside with rfl | last
      · exact List.cons_ne_nil _ _
      · rw [List.mem_singleton.mp last]
        exact original.nonempty

/-- The parser goes through the entries of the records. -/
theorem status_encodeRecords (records : List StatusRecord) :
    status (encodeRecords records) =
      ⟨sortPaths (readEntries (records.flatMap StatusRecord.entries)).modified,
        sortPaths (readEntries (records.flatMap StatusRecord.entries)).untracked⟩ := by
  have clean : ∀ piece ∈ records.flatMap StatusRecord.entries, nul ∉ piece := by
    intro piece inside
    obtain ⟨record, _, listed⟩ := List.mem_flatMap.mp inside
    exact entries_clean listed
  have last : ∀ entries : List Str, readEntries (entries ++ [[]]) = readEntries entries := by
    intro entries
    induction entries with
    | nil => rfl
    | cons entry rest ih => rw [List.cons_append, readEntries, readEntries, ih]
  rw [status, encodeRecords, encodeUtf8_eq, Utf8.decodeIgnoring_encode, splitOn_pieces clean, last]

theorem mem_sortPaths {path : Str} {paths : List Str} : path ∈ sortPaths paths ↔ path ∈ paths :=
  List.mem_insertionSort _

theorem mem_readEntries_modified {entries : List Str} {path : Str} :
    path ∈ (readEntries entries).modified ↔
      ∃ entry ∈ entries, entry ≠ [] ∧ entry.take 2 ≠ untrackedCode ∧ entry.drop 3 = path := by
  induction entries with
  | nil => simp [readEntries]
  | cons entry rest ih =>
      rw [readEntries, List.exists_mem_cons_iff, ← ih]
      by_cases empty : entry = []
      · simp [empty]
      · by_cases code : entry.take 2 = untrackedCode
        · simp [empty, code]
        · simp [empty, code, eq_comm]

theorem mem_readEntries_untracked {entries : List Str} {path : Str} :
    path ∈ (readEntries entries).untracked ↔
      ∃ entry ∈ entries, entry ≠ [] ∧ entry.take 2 = untrackedCode ∧ entry.drop 3 = path := by
  induction entries with
  | nil => simp [readEntries]
  | cons entry rest ih =>
      rw [readEntries, List.exists_mem_cons_iff, ← ih]
      by_cases empty : entry = []
      · simp [empty]
      · by_cases code : entry.take 2 = untrackedCode
        · simp [empty, code, eq_comm]
        · simp [empty, code]

/-- An entry of a record is its own, or the original of a move, read as if it were one. -/
theorem entry_cases {record : StatusRecord} {entry : Str} (inside : entry ∈ record.entries) :
    (entry.take 2 = untrackedCode ∧ record.untracked? = some (entry.drop 3)) ∨
      (entry.take 2 ≠ untrackedCode ∧ record.tracked? = some (entry.drop 3)) ∨
      record.original? = some entry := by
  have apart : ∀ (index : Letter) (rest : Str), index.char :: rest ≠ untrackedCode := by
    intro index rest same
    exact letter_ne_mark index (List.cons.inj same).1
  cases record with
  | untracked path =>
      rw [List.mem_singleton.mp inside]
      exact Or.inl ⟨rfl, rfl⟩
  | changed index worktree path =>
      rw [List.mem_singleton.mp inside]
      exact Or.inr (Or.inl ⟨apart index _, rfl⟩)
  | moved index worktree path original =>
      rcases List.mem_cons.mp inside with rfl | last
      · exact Or.inr (Or.inl ⟨apart index _, rfl⟩)
      · rw [List.mem_singleton.mp last]
        exact Or.inr (Or.inr rfl)

theorem tracked_entry {record : StatusRecord} {path : Str} (tracks : record.tracked? = some path) :
    ∃ entry ∈ record.entries, entry.take 2 ≠ untrackedCode ∧ entry.drop 3 = path := by
  cases record with
  | untracked _ => cases tracks
  | changed index worktree other =>
      refine ⟨_, List.mem_cons_self, ?_, Option.some.inj tracks⟩
      exact fun same => letter_ne_mark index (List.cons.inj same).1
  | moved index worktree other original =>
      refine ⟨_, List.mem_cons_self, ?_, Option.some.inj tracks⟩
      exact fun same => letter_ne_mark index (List.cons.inj same).1

theorem untracked_entry {record : StatusRecord} {path : Str}
    (tracks : record.untracked? = some path) :
    ∃ entry ∈ record.entries, entry.take 2 = untrackedCode ∧ entry.drop 3 = path := by
  cases record with
  | untracked other => exact ⟨_, List.mem_cons_self, rfl, Option.some.inj tracks⟩
  | changed index worktree other => cases tracks
  | moved index worktree other original => cases tracks

theorem original_entry {record : StatusRecord} {original : Str}
    (moved : record.original? = some original) : original ∈ record.entries := by
  cases record with
  | untracked _ => cases moved
  | changed _ _ _ => cases moved
  | moved index worktree path other =>
      rw [← Option.some.inj moved]
      exact List.mem_cons_of_mem _ List.mem_cons_self

/-! ### Exactness -/

/-- What is read from the path a move comes from is by chance the path of a record. -/
def Coincides (records : List StatusRecord) (original : Str) : Prop :=
  if original.take 2 = untrackedCode then
    ∃ record ∈ records, record.untracked? = some (original.drop 3)
  else ∃ record ∈ records, record.tracked? = some (original.drop 3)

theorem coincides_of_exact {records : List StatusRecord}
    (exact : Exact records (status (encodeRecords records))) {record : StatusRecord}
    (listed : record ∈ records) {original : Str} (moved : record.original? = some original) :
    Coincides records original := by
  rw [status_encodeRecords] at exact
  have inside : original ∈ records.flatMap StatusRecord.entries :=
    List.mem_flatMap.mpr ⟨record, listed, original_entry moved⟩
  have nonempty := entries_nonempty (original_entry moved)
  unfold Coincides
  split
  · rename_i code
    rw [← exact.untracked, mem_sortPaths, mem_readEntries_untracked]
    exact ⟨original, inside, nonempty, code, rfl⟩
  · rename_i code
    rw [← exact.modified, mem_sortPaths, mem_readEntries_modified]
    exact ⟨original, inside, nonempty, code, rfl⟩

theorem exact_of_coincides {records : List StatusRecord}
    (coincide : ∀ record ∈ records, ∀ original, record.original? = some original →
      Coincides records original) : Exact records (status (encodeRecords records)) := by
  rw [status_encodeRecords]
  constructor
  · intro path
    rw [mem_sortPaths, mem_readEntries_modified]
    constructor
    · rintro ⟨entry, inside, _, code, rfl⟩
      obtain ⟨record, listed, entry_of⟩ := List.mem_flatMap.mp inside
      rcases entry_cases entry_of with ⟨code', _⟩ | ⟨_, tracks⟩ | moved
      · exact absurd code' code
      · exact ⟨record, listed, tracks⟩
      · have chance := coincide record listed entry moved
        rwa [Coincides, if_neg code] at chance
    · rintro ⟨record, listed, tracks⟩
      obtain ⟨entry, entry_of, code, rest⟩ := tracked_entry tracks
      exact ⟨entry, List.mem_flatMap.mpr ⟨record, listed, entry_of⟩, entries_nonempty entry_of,
        code, rest⟩
  · intro path
    rw [mem_sortPaths, mem_readEntries_untracked]
    constructor
    · rintro ⟨entry, inside, _, code, rfl⟩
      obtain ⟨record, listed, entry_of⟩ := List.mem_flatMap.mp inside
      rcases entry_cases entry_of with ⟨_, tracks⟩ | ⟨code', _⟩ | moved
      · exact ⟨record, listed, tracks⟩
      · exact absurd code code'
      · have chance := coincide record listed entry moved
        rwa [Coincides, if_pos code] at chance
    · rintro ⟨record, listed, tracks⟩
      obtain ⟨entry, entry_of, code, rest⟩ := untracked_entry tracks
      exact ⟨entry, List.mem_flatMap.mpr ⟨record, listed, entry_of⟩, entries_nonempty entry_of,
        code, rest⟩

/-- The paths of the records are returned and no others, exactly when nothing is read from renames
and copies that is not by chance such a path. -/
theorem status_exact_iff (records : List StatusRecord) :
    Exact records (status (encodeRecords records)) ↔
      ∀ record ∈ records, ∀ original, record.original? = some original →
        Coincides records original :=
  ⟨fun exact _ listed _ moved => coincides_of_exact exact listed moved, exact_of_coincides⟩

/-- A file `old.py` that was renamed to `b`. -/
def renamedRecord : StatusRecord :=
  .moved .renamed .unmodified ⟨"b".toList, by decide, by decide⟩
    ⟨"old.py".toList, by decide, by decide⟩

/-- The path `.py` is returned, which no record has. -/
theorem renamed_not_exact :
    ¬∀ records : List StatusRecord, Exact records (status (encodeRecords records)) := by
  intro claimed
  have returned : ".py".toList ∈ (status (encodeRecords [renamedRecord])).modified := by
    rw [status_encodeRecords, mem_sortPaths]
    decide
  obtain ⟨record, listed, same⟩ := ((claimed [renamedRecord]).modified _).mp returned
  rw [List.mem_singleton.mp listed] at same
  exact absurd same (by decide)

end SeMentor.Git
