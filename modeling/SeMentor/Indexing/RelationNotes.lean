import SeMentor.Indexing.RelationExtractor

set_option autoImplicit false

/- What a run of the extraction records: the first of the new relations of each key, and every
unresolved reference, whatever is known already. -/
namespace SeMentor.Indexing

open Paths Models

section Notes

variable {existing : List CodeSymbolRelation}

/-- A note that leaves a trace in the result. -/
def Noted.kept (existing : List CodeSymbolRelation) : Noted → Option Noted
  | .relation new =>
    if new.key ∈ existing.map CodeSymbolRelation.key then none else some (.relation new)
  | .unresolved text => some (.unresolved text)
  | .nothing => none

/-- States with one result; they may have seen different relations that were there before. -/
structure Agree (existing : List CodeSymbolRelation) (first second : Extraction) : Prop where
  stored : first.stored = second.stored
  relationCount : first.relationCount = second.relationCount
  unresolved : first.unresolved = second.unresolved
  seen : ∀ key ∉ existing.map CodeSymbolRelation.key,
    key ∈ first.seenRelations ↔ key ∈ second.seenRelations

theorem Agree.refl (state : Extraction) : Agree existing state state :=
  ⟨rfl, rfl, rfl, fun _ _ => Iff.rfl⟩

theorem Agree.symm {first second : Extraction} (agree : Agree existing first second) :
    Agree existing second first :=
  ⟨agree.stored.symm, agree.relationCount.symm, agree.unresolved.symm,
    fun key fresh => (agree.seen key fresh).symm⟩

theorem Agree.trans {first second third : Extraction} (one : Agree existing first second)
    (two : Agree existing second third) : Agree existing first third :=
  ⟨one.stored.trans two.stored, one.relationCount.trans two.relationCount,
    one.unresolved.trans two.unresolved,
    fun key fresh => (one.seen key fresh).trans (two.seen key fresh)⟩

/-- Recording what is stored already changes nothing but what was seen. -/
theorem agree_record_existing {state : Extraction} {new : NewRelation}
    (known : new.key ∈ existing.map CodeSymbolRelation.key) :
    Agree existing (state.record existing new) state := by
  unfold Extraction.record
  rw [if_pos known]
  split
  · exact Agree.refl state
  · refine ⟨rfl, rfl, rfl, ?_⟩
    intro key fresh
    have other : key ≠ new.key := by
      rintro rfl
      exact fresh known
    exact ⟨fun seen => (List.mem_cons.mp seen).resolve_left other, List.mem_cons_of_mem _⟩

theorem agree_record_fresh {first second : Extraction} {new : NewRelation}
    (fresh : new.key ∉ existing.map CodeSymbolRelation.key) (agree : Agree existing first second) :
    Agree existing (first.record existing new) (second.record existing new) := by
  unfold Extraction.record
  by_cases seen : new.key ∈ first.seenRelations
  · rw [if_pos seen, if_pos ((agree.seen _ fresh).mp seen)]
    exact agree
  · rw [if_neg seen, if_neg (fun there => seen ((agree.seen _ fresh).mpr there)), if_neg fresh,
      if_neg fresh]
    constructor
    · exact congrArg (· ++ [new]) agree.stored
    · exact congrArg (· + 1) agree.relationCount
    · exact agree.unresolved
    · intro key unknown
      rw [List.mem_cons, List.mem_cons]
      exact or_congr Iff.rfl (agree.seen key unknown)

theorem agree_note {first second : Extraction} {note kept : Noted}
    (same : note.kept existing = some kept) (agree : Agree existing first second) :
    Agree existing (first.note existing note) (second.note existing kept) := by
  cases note with
  | relation new =>
    rw [Noted.kept] at same
    split at same
    · cases same
    · rename_i fresh
      cases same
      exact agree_record_fresh fresh agree
  | unresolved text =>
    cases same
    exact ⟨agree.stored, agree.relationCount, congrArg (· ++ [text]) agree.unresolved, agree.seen⟩
  | nothing => cases same

theorem agree_note_none {state : Extraction} {note : Noted} (gone : note.kept existing = none) :
    Agree existing (state.note existing note) state := by
  cases note with
  | relation new =>
    rw [Noted.kept] at gone
    split at gone
    · rename_i known
      exact agree_record_existing known
    · cases gone
  | unresolved text => cases gone
  | nothing => exact Agree.refl state

theorem agree_kept (notes : List Noted) :
    ∀ {first second : Extraction}, Agree existing first second →
      Agree existing (notes.foldl (Extraction.note existing) first)
        ((notes.filterMap (Noted.kept existing)).foldl (Extraction.note existing) second) := by
  induction notes with
  | nil => exact id
  | cons note rest ih =>
    intro first second agree
    rw [List.foldl_cons]
    cases same : note.kept existing with
    | none =>
      rw [List.filterMap_cons_none same]
      exact ih ((agree_note_none same).trans agree)
    | some kept =>
      rw [List.filterMap_cons_some same, List.foldl_cons]
      exact ih (agree_note same agree)

/-- Only the kept notes matter. -/
theorem agree_of_kept {notes others : List Noted}
    (same : notes.filterMap (Noted.kept existing) = others.filterMap (Noted.kept existing))
    {first second : Extraction} (agree : Agree existing first second) :
    Agree existing (notes.foldl (Extraction.note existing) first)
      (others.foldl (Extraction.note existing) second) := by
  have one := agree_kept notes agree
  rw [same] at one
  exact one.trans (agree_kept others (Agree.refl second)).symm

/-! ### What a run leaves -/

/-- What is seen is stored, before or now. -/
def Extraction.Consistent (existing : List CodeSymbolRelation) (state : Extraction) : Prop :=
  ∀ key ∈ state.seenRelations, key ∈ existing.map CodeSymbolRelation.key ∨
    key ∈ state.stored.map NewRelation.key

theorem consistent_record {state : Extraction} {new : NewRelation}
    (consistent : state.Consistent existing) : (state.record existing new).Consistent existing := by
  unfold Extraction.record
  split
  · exact consistent
  · split
    · rename_i known
      intro key seen
      rcases List.mem_cons.mp seen with rfl | before
      · exact Or.inl known
      · exact consistent key before
    · intro key seen
      rw [List.map_append, List.mem_append]
      rcases List.mem_cons.mp seen with rfl | before
      · exact Or.inr (Or.inr List.mem_cons_self)
      · exact (consistent key before).imp_right Or.inl

theorem consistent_note {state : Extraction} (consistent : state.Consistent existing)
    (note : Noted) : (state.note existing note).Consistent existing := by
  cases note with
  | relation new => exact consistent_record consistent
  | unresolved text => exact consistent
  | nothing => exact consistent

theorem mem_record {state : Extraction} {new other : NewRelation}
    (stored : other ∈ (state.record existing new).stored) : other ∈ state.stored ∨
      other = new ∧ new.key ∉ existing.map CodeSymbolRelation.key := by
  unfold Extraction.record at stored
  split at stored
  · exact Or.inl stored
  · split at stored
    · exact Or.inl stored
    · rename_i fresh
      exact (List.mem_append.mp stored).imp_right fun last => ⟨List.mem_singleton.mp last, fresh⟩

theorem record_stays {state : Extraction} {new other : NewRelation}
    (stored : other ∈ state.stored) :
    other ∈ (state.record existing new).stored := by
  unfold Extraction.record
  split
  · exact stored
  · split
    · exact stored
    · exact List.mem_append_left _ stored

theorem note_stays {state : Extraction} {note : Noted} {other : NewRelation}
    (stored : other ∈ state.stored) : other ∈ (state.note existing note).stored := by
  cases note with
  | relation new => exact record_stays stored
  | unresolved text => exact stored
  | nothing => exact stored

theorem record_key {state : Extraction} {new : NewRelation} (consistent : state.Consistent existing)
    (fresh : new.key ∉ existing.map CodeSymbolRelation.key) :
    new.key ∈ (state.record existing new).stored.map NewRelation.key := by
  unfold Extraction.record
  by_cases seen : new.key ∈ state.seenRelations
  · rw [if_pos seen]
    exact (consistent _ seen).resolve_left fresh
  · rw [if_neg seen, if_neg fresh, List.map_append]
    exact List.mem_append_right _ List.mem_cons_self

theorem foldl_stays (notes : List Noted) {state : Extraction} {other : NewRelation}
    (stored : other ∈ state.stored) :
      other ∈ (notes.foldl (Extraction.note existing) state).stored := by
  induction notes generalizing state with
  | nil => exact stored
  | cons note rest ih => exact ih (note_stays stored)

/-- A stored relation was noted, and was not there before. -/
theorem mem_stored {notes : List Noted} {state : Extraction} {new : NewRelation}
    (stored : new ∈ (notes.foldl (Extraction.note existing) state).stored) :
    new ∈ state.stored ∨
      .relation new ∈ notes ∧ new.key ∉ existing.map CodeSymbolRelation.key := by
  induction notes generalizing state with
  | nil => exact Or.inl stored
  | cons note rest ih =>
    rcases ih stored with here | ⟨later, fresh⟩
    · cases note with
      | relation other =>
        rcases mem_record here with before | ⟨rfl, fresh⟩
        · exact Or.inl before
        · exact Or.inr ⟨List.mem_cons_self, fresh⟩
      | unresolved text => exact Or.inl here
      | nothing => exact Or.inl here
    · exact Or.inr ⟨List.mem_cons_of_mem _ later, fresh⟩

/-- A noted relation that was not there before is stored. -/
theorem key_stored {notes : List Noted} {state : Extraction} {new : NewRelation}
    (noted : .relation new ∈ notes) (consistent : state.Consistent existing)
    (fresh : new.key ∉ existing.map CodeSymbolRelation.key) :
    new.key ∈ (notes.foldl (Extraction.note existing) state).stored.map NewRelation.key := by
  induction notes generalizing state with
  | nil => cases noted
  | cons note rest ih =>
    rcases List.mem_cons.mp noted with rfl | later
    · obtain ⟨other, stored, same⟩ := List.mem_map.mp (record_key consistent fresh)
      rw [← same]
      exact List.mem_map_of_mem (foldl_stays rest stored)
    · exact ih later (consistent_note consistent note)

theorem record_unresolved {state : Extraction} {new : NewRelation} :
    (state.record existing new).unresolved = state.unresolved := by
  unfold Extraction.record
  split
  · rfl
  · split <;> rfl

theorem mem_unresolved {notes : List Noted} {state : Extraction} {text : Str} :
    text ∈ (notes.foldl (Extraction.note existing) state).unresolved ↔
      text ∈ state.unresolved ∨ .unresolved text ∈ notes := by
  induction notes generalizing state with
  | nil => simp
  | cons note rest ih =>
    rw [List.foldl_cons, ih, List.mem_cons]
    cases note with
    | relation new =>
      rw [Extraction.note, record_unresolved]
      simp
    | unresolved other =>
      rw [Extraction.note, List.mem_append, List.mem_singleton, Noted.unresolved.injEq, or_assoc]
    | nothing =>
      rw [Extraction.note]
      simp

end Notes

/-! ### Whole runs -/

def Extraction.empty : Extraction := ⟨[], [], 0, []⟩

namespace RelationExtractor

variable (extractor : RelationExtractor)

/-- What a run notes of a file. -/
def fileNotes (returned : Returned) (file : SourceFile) : List Noted :=
  match byName returned.symbols file.module with
  | none => []
  | some source =>
    match file.parsed extractor.parse with
    | some (.tree parts) =>
      returned.notes source file.module file.rel (extractor.visitAll parts)
    | some (.syntaxError _) => [.unresolved (file.rel ++ ":syntax-error".toList)]
    | some (.raised _) | none => []

/-- Why a run stops at a file. -/
def failure (returned : Returned) (file : SourceFile) : Option BuildFailure :=
  match byName returned.symbols file.module with
  | none => none
  | some _ =>
    match file.parsed extractor.parse with
    | none => some .unicodeDecodeError
    | some (.raised text) => some (.raised text)
    | some (.tree _) | some (.syntaxError _) => none

def allNotes (returned : Returned) (files : List SourceFile) : List Noted :=
  (iterPythonFiles files).flatMap (extractor.fileNotes returned)

variable {extractor} {existing : List CodeSymbolRelation} {returned : Returned}

theorem extractFile_eq (state : Extraction) (file : SourceFile) :
    extractor.extractFile existing returned state file =
      match extractor.failure returned file with
      | some failure => .error failure
      | none =>
        .ok ((extractor.fileNotes returned file).foldl (Extraction.note existing) state) := by
  unfold extractFile failure fileNotes SourceFile.parsed
  cases byName returned.symbols file.module with
  | none => rfl
  | some source =>
    cases Utf8.decode file.content with
    | none => rfl
    | some text =>
      dsimp only [Option.map_some]
      cases extractor.parse (universalNewlines text) <;> rfl

theorem extractFiles_eq (files : List SourceFile) : ∀ state : Extraction,
    extractor.extractFiles existing returned state files =
      match files.findSome? (extractor.failure returned) with
      | some failure => .error failure
      | none => .ok ((files.flatMap (extractor.fileNotes returned)).foldl
          (Extraction.note existing) state) := by
  induction files with
  | nil =>
    intro state
    rfl
  | cons file rest ih =>
    intro state
    rw [extractFiles, extractFile_eq, List.findSome?_cons, List.flatMap_cons, List.foldl_append]
    cases extractor.failure returned file with
    | some failure => rfl
    | none => exact ih _

/-- A run stops at the first file that cannot be read, or records its notes. -/
theorem extract_eq (files : List SourceFile) :
    extractor.extract existing returned files =
      match (iterPythonFiles files).findSome? (extractor.failure returned) with
      | some failure => .error failure
      | none =>
        let state := (extractor.allNotes returned files).foldl (Extraction.note existing)
          Extraction.empty
        .ok ⟨state.stored, state.relationCount, state.unresolved⟩ := by
  unfold extract
  rw [extractFiles_eq]
  cases (iterPythonFiles files).findSome? (extractor.failure returned) <;> rfl

end RelationExtractor

end SeMentor.Indexing
