import Mathlib.Data.List.TakeWhile
import SeMentor.Indexing.FaithfulRelations

set_option autoImplicit false

/- A faithful extraction leaves no choice: where the rows leave one, an order of them shows it. -/
namespace SeMentor.Indexing

open Paths Models

/-! ### Texts of unresolved references -/

theorem identifiers_clean (names : List Identifier) :
    ':' ∉ ['.'].intercalate (names.map Identifier.text) := by
  induction names with
  | nil => nofun
  | cons first rest ih =>
    cases rest with
    | nil =>
      rw [List.map_singleton, List.intercalate_singleton]
      exact first.noColon
    | cons second others =>
      rw [List.map_cons, List.map_cons, List.intercalate_cons_cons, ← List.map_cons]
      intro inside
      rcases List.mem_append.mp inside with early | late
      · rcases List.mem_append.mp early with name | mark
        · exact first.noColon name
        · exact absurd (List.mem_singleton.mp mark) (by decide)
      · exact ih late

theorem lastComponent_clean (name : Str) : '.' ∉ lastComponent name := by
  intro inside
  have kept := List.mem_takeWhile_imp (List.mem_reverse.mp inside)
  simp at kept

/-- Names of modules have no colon, names of calls no dot. -/
structure References.Clean (found : References) : Prop where
  imports : ∀ imported ∈ found.imports, ':' ∉ imported
  calls : ∀ call ∈ found.calls, '.' ∉ call

theorem References.Clean.append {first second : References} (one : first.Clean)
    (two : second.Clean) : (first.append second).Clean :=
  ⟨List.forall_mem_append.mpr ⟨one.imports, two.imports⟩,
    List.forall_mem_append.mpr ⟨one.calls, two.calls⟩⟩

section Clean

variable (extractor : RelationExtractor)

theorem names_clean (names : List DottedName) :
    ({ References.none with imports := names.map DottedName.text } : References).Clean := by
  refine ⟨?_, nofun⟩
  intro imported listed
  obtain ⟨name, _, rfl⟩ := List.mem_map.mp listed
  exact identifiers_clean _

mutual

theorem visit_clean : ∀ part, (extractor.visit part).Clean
  | .importNames names => by
      rw [RelationExtractor.visit]
      exact names_clean names
  | .importFrom module => by
      rw [RelationExtractor.visit]
      exact names_clean module.toList
  | .call func args children => by
      rw [RelationExtractor.visit]
      refine References.Clean.append ⟨nofun, ?_⟩ (visitAll_clean children)
      intro call listed
      rw [List.mem_singleton.mp listed]
      exact lastComponent_clean _
  | .other children => by
      rw [RelationExtractor.visit]
      exact visitAll_clean children

theorem visitAll_clean : ∀ parts, (extractor.visitAll parts).Clean
  | [] => by
      rw [RelationExtractor.visitAll]
      exact ⟨nofun, nofun⟩
  | part :: rest => by
      rw [RelationExtractor.visitAll]
      exact References.Clean.append (visit_clean part) (visitAll_clean rest)

end

end Clean

theorem module_of_rel {first second : SourceFile} (same : first.rel = second.rel) :
    first.module = second.module := by
  unfold SourceFile.module
  rw [same]

section Texts

variable {files : List SourceFile} {first second : SourceFile}

theorem importText_inj {one two : Str} (clean : ':' ∉ one) (clean' : ':' ∉ two)
    (same : first.rel ++ ":IMPORTS:".toList ++ one = second.rel ++ ":IMPORTS:".toList ++ two) :
    first.rel = second.rel ∧ one = two := by
  have shape : ∀ rel name : Str, rel ++ ":IMPORTS:".toList ++ name =
      (rel ++ ":IMPORTS".toList) ++ ':' :: name := by
    intro rel name
    simp
  rw [shape, shape, mark_inj clean clean'] at same
  exact ⟨List.append_cancel_right same.1, same.2⟩

theorem dotted_inj {one two : Str} (clean : '.' ∉ one) (clean' : '.' ∉ two)
    (listed : first ∈ iterPythonFiles files) (listed' : second ∈ iterPythonFiles files)
    (same : first.rel ++ one = second.rel ++ two) : first.rel = second.rel ∧ one = two := by
  obtain ⟨stem, ends⟩ := rel_ends listed
  obtain ⟨stem', ends'⟩ := rel_ends listed'
  have apart : ∀ text : Str, '.' ∉ text → '.' ∉ "py".toList ++ text := by
    intro text clear inside
    rcases List.mem_append.mp inside with early | late
    · exact absurd early (by decide)
    · exact clear late
  rw [ends, ends', List.append_assoc, List.append_assoc, List.cons_append, List.cons_append,
    mark_inj (apart one clean) (apart two clean')] at same
  rw [ends, ends', same.1]
  exact ⟨rfl, List.append_cancel_left same.2⟩

theorem callText_clean {call : Str} (clean : '.' ∉ call) : '.' ∉ ":CALLS:".toList ++ call := by
  intro inside
  rcases List.mem_append.mp inside with early | late
  · exact absurd early (by decide)
  · exact clean late

/-- No unresolved import reads like an unresolved call. -/
theorem importText_ne_callText {imported call : Str} (clean : ':' ∉ imported)
    (clean' : '.' ∉ call) (listed : first ∈ iterPythonFiles files)
    (listed' : second ∈ iterPythonFiles files) :
    first.rel ++ ":IMPORTS:".toList ++ imported ≠ second.rel ++ ":CALLS:".toList ++ call := by
  intro same
  by_cases dotted : '.' ∈ imported
  · obtain ⟨back, front, shape, last⟩ := List.eq_append_cons_of_mem (List.mem_reverse.mpr dotted)
    have whole : imported = front.reverse ++ '.' :: back.reverse := by
      rw [← List.reverse_reverse imported, shape]
      simp
    obtain ⟨stem, ends⟩ := rel_ends listed'
    have right : second.rel ++ ":CALLS:".toList ++ call =
        stem ++ '.' :: ("py:CALLS:".toList ++ call) := by
      rw [ends]
      simp
    have plain : '.' ∉ "py:CALLS:".toList ++ call := by
      intro inside
      rcases List.mem_append.mp inside with early | late
      · exact absurd early (by decide)
      · exact clean' late
    rw [right, whole, ← List.append_assoc,
      mark_inj (fun inside => last (List.mem_reverse.mp inside)) plain] at same
    have colon : ':' ∈ back.reverse := by
      rw [same.2]
      exact List.mem_append_left _ (by decide)
    rw [whole] at clean
    exact clean (List.mem_append_right _ (List.mem_cons_of_mem _ colon))
  · have plain : '.' ∉ ":IMPORTS:".toList ++ imported := by
      intro inside
      rcases List.mem_append.mp inside with early | late
      · exact absurd early (by decide)
      · exact dotted late
    rw [List.append_assoc, List.append_assoc] at same
    have texts := (dotted_inj plain (callText_clean clean') listed listed' same).2
    exact absurd (congrArg (List.take 2) texts) (by simp)

theorem importText_ne_syntaxText {imported : Str} (clean : ':' ∉ imported)
    (listed : second ∈ iterPythonFiles files) :
    first.rel ++ ":IMPORTS:".toList ++ imported ≠ second.rel ++ ":syntax-error".toList := by
  intro same
  have shape : first.rel ++ ":IMPORTS:".toList ++ imported =
      (first.rel ++ ":IMPORTS".toList) ++ ':' :: imported := by simp
  have shape' : second.rel ++ ":syntax-error".toList =
      second.rel ++ ':' :: "syntax-error".toList := by simp
  obtain ⟨stem, ends⟩ := rel_ends listed
  rw [shape, shape', mark_inj clean (by decide), ends] at same
  have last := congrArg List.getLast? same.1
  simp at last

theorem callText_ne_syntaxText {call : Str} (clean : '.' ∉ call)
    (listed : first ∈ iterPythonFiles files) (listed' : second ∈ iterPythonFiles files) :
    first.rel ++ ":CALLS:".toList ++ call ≠ second.rel ++ ":syntax-error".toList := by
  intro same
  rw [List.append_assoc] at same
  have texts := (dotted_inj (callText_clean clean) (by decide) listed listed' same).2
  exact absurd (congrArg (List.take 2) texts) (by simp)

end Texts

/-! ### What a note says of the order -/

section Inversion

variable {extractor : RelationExtractor} {existing : List CodeSymbolRelation}
  {index : List CodeSymbol} {files : List SourceFile} {returned : Returned}

theorem resolvedNote_relation {source : CodeSymbol} {target : Option CodeSymbol}
    {relationType : CodeSymbolRelationType} {rel : Str} {missed : Noted} {new : NewRelation}
    (noted : resolvedNote source target relationType rel missed = .relation new)
    (missing : missed ≠ .relation new) :
    new.source = source ∧ target = some new.target ∧ new.relationType = relationType := by
  unfold resolvedNote at noted
  split at noted
  · split at noted
    · cases noted
      exact ⟨rfl, rfl, rfl⟩
    · exact absurd noted missing
  · exact absurd noted missing

theorem resolvedNote_unresolved {source : CodeSymbol} {target : Option CodeSymbol}
    {relationType : CodeSymbolRelationType} {rel text : Str} {missed : Noted}
    (noted : resolvedNote source target relationType rel missed = .unresolved text) :
    missed = .unresolved text ∧ ∀ found, target = some found → found.id = source.id := by
  unfold resolvedNote at noted
  split at noted
  · rename_i other
    split at noted
    · cases noted
    · rename_i same
      refine ⟨noted, fun found found_eq => ?_⟩
      rw [← Option.some.inj found_eq]
      exact not_not.mp same
  · exact ⟨noted, nofun⟩

theorem otherNote_relation {source : CodeSymbol} {other : Option CodeSymbol}
    {relationType : CodeSymbolRelationType} {rel : Str} {detail : Option Str} {new : NewRelation}
    (noted : otherNote source other relationType rel detail = .relation new) :
    new.source = source ∧ other = some new.target ∧ new.relationType = relationType := by
  unfold otherNote at noted
  split at noted
  · cases noted
    exact ⟨rfl, rfl, rfl⟩
  · cases noted

/-- How the target of a noted relation was found. -/
def FoundBy (returned : Returned) (module : Str) (found : References) (new : NewRelation) :
    CodeSymbolRelationType → Prop
  | .imports => ∃ imported, importTarget returned.symbols imported = some new.target
  | .calls | .tests =>
    ∃ call ∈ found.calls, resolveCall returned.symbols module call = some new.target
  | .readsTable | .writesTable | .serializes =>
    (returned.others new.source).head? = some new.target

theorem noted_relation {new : NewRelation}
    (noted : .relation new ∈ extractor.allNotes returned files) :
    ∃ module parts, byName returned.symbols module = some new.source ∧
      FoundBy returned module (extractor.visitAll parts) new new.relationType := by
  obtain ⟨file, listed, there⟩ := List.mem_flatMap.mp noted
  obtain ⟨source, named, ⟨parts, tree, inside⟩ | syntaxError⟩ := mem_fileNotes there
  · refine ⟨file.module, parts, ?_⟩
    rcases mem_notes.mp inside with ⟨imported, within, same⟩ | ⟨call, within, same⟩ |
      ⟨name, within, same⟩ | ⟨name, within, same⟩ | ⟨serializes, same⟩ | ⟨test, call, within, same⟩
    · obtain ⟨from', target, kind⟩ := resolvedNote_relation same nofun
      rw [kind, from']
      exact ⟨named, imported, target⟩
    · obtain ⟨from', target, kind⟩ := resolvedNote_relation same nofun
      rw [kind, from']
      exact ⟨named, call, within, target⟩
    · obtain ⟨from', target, kind⟩ := otherNote_relation same
      unfold FoundBy
      rw [kind, from']
      exact ⟨named, target⟩
    · obtain ⟨from', target, kind⟩ := otherNote_relation same
      unfold FoundBy
      rw [kind, from']
      exact ⟨named, target⟩
    · obtain ⟨from', target, kind⟩ := otherNote_relation same
      unfold FoundBy
      rw [kind, from']
      exact ⟨named, target⟩
    · obtain ⟨from', target, kind⟩ := resolvedNote_relation same nofun
      rw [kind, from']
      exact ⟨named, call, within, target⟩
  · cases syntaxError

theorem unresolved_noted {text : Str}
    (noted : .unresolved text ∈ extractor.allNotes returned files) :
    ∃ file ∈ iterPythonFiles files, ∃ source, byName returned.symbols file.module = some source ∧
      ((∃ imported, ':' ∉ imported ∧ text = file.rel ++ ":IMPORTS:".toList ++ imported ∧
          ∀ target, importTarget returned.symbols imported = some target →
            target.id = source.id) ∨
        (∃ call, '.' ∉ call ∧ text = file.rel ++ ":CALLS:".toList ++ call ∧
          ∀ target, resolveCall returned.symbols file.module call = some target →
            target.id = source.id) ∨
        text = file.rel ++ ":syntax-error".toList) := by
  obtain ⟨file, listed, there⟩ := List.mem_flatMap.mp noted
  obtain ⟨source, named, ⟨parts, tree, inside⟩ | syntaxError⟩ := mem_fileNotes there
  · have clean := visitAll_clean extractor parts
    refine ⟨file, listed, source, named, ?_⟩
    rcases mem_notes.mp inside with ⟨imported, within, same⟩ | ⟨call, within, same⟩ |
      ⟨name, within, same⟩ | ⟨name, within, same⟩ | ⟨serializes, same⟩ | ⟨test, call, within, same⟩
    · obtain ⟨written, own⟩ := resolvedNote_unresolved same
      cases written
      exact Or.inl ⟨imported, clean.imports imported within, rfl, own⟩
    · obtain ⟨written, own⟩ := resolvedNote_unresolved same
      cases written
      exact Or.inr (Or.inl ⟨call, clean.calls call within, rfl, own⟩)
    · unfold otherNote at same
      split at same <;> cases same
    · unfold otherNote at same
      split at same <;> cases same
    · unfold otherNote at same
      split at same <;> cases same
    · cases (resolvedNote_unresolved same).1
  · cases syntaxError
    exact ⟨file, listed, source, named, Or.inr (Or.inr rfl)⟩

/-- An import that is unresolved finds nothing, or its own module. -/
theorem unresolved_import {file : SourceFile} (listed : file ∈ iterPythonFiles files)
    {imported : Str} (clean : ':' ∉ imported)
    (noted : .unresolved (file.rel ++ ":IMPORTS:".toList ++ imported) ∈
      extractor.allNotes returned files) :
    ∃ source, byName returned.symbols file.module = some source ∧
      ∀ target, importTarget returned.symbols imported = some target → target.id = source.id := by
  obtain ⟨other, inside, source, named, ⟨name, clear, same, own⟩ | ⟨call, clear, same, _⟩ | same⟩ :=
    unresolved_noted noted
  · obtain ⟨rel, rfl⟩ := importText_inj clean clear same
    rw [module_of_rel rel]
    exact ⟨source, named, own⟩
  · exact absurd same (importText_ne_callText clean clear listed inside)
  · exact absurd same (importText_ne_syntaxText clean inside)

theorem unresolved_call {file : SourceFile} (listed : file ∈ iterPythonFiles files)
    {call : Str} (clean : '.' ∉ call)
    (noted : .unresolved (file.rel ++ ":CALLS:".toList ++ call) ∈
      extractor.allNotes returned files) :
    ∃ source, byName returned.symbols file.module = some source ∧
      ∀ target, resolveCall returned.symbols file.module call = some target →
        target.id = source.id := by
  obtain ⟨other, inside, source, named, ⟨name, clear, same, _⟩ | ⟨name, clear, same, own⟩ | same⟩ :=
    unresolved_noted noted
  · exact absurd same.symm (importText_ne_callText clear clean inside listed)
  · rw [List.append_assoc, List.append_assoc] at same
    obtain ⟨rel, texts⟩ :=
      dotted_inj (callText_clean clean) (callText_clean clear) listed inside same
    rw [List.append_cancel_left texts, module_of_rel rel]
    exact ⟨source, named, own⟩
  · exact absurd same (callText_ne_syntaxText clean listed inside)

end Inversion

end SeMentor.Indexing
