import SeMentor.Git.WorkTrees

set_option autoImplicit false

/- Which changes of others `detect_external_modifications` reports: it compares what git lists at
two moments, and leaves out what the agent has written at any time. -/
namespace SeMentor.Git

open Paths Models FileTree Host

/-- A write of the agent below the project, or a deletion. -/
structure AgentWrite where
  relativePath : Str
  content : Option Bytes
  plain : ∀ part ∈ parts relativePath, Plain part

def AgentWrite.path (write : AgentWrite) : List Str := parts write.relativePath

/-- A task, from its start up to now. -/
structure Task where
  repository : Repository
  start : WorkTree
  writes : List AgentWrite
  now : WorkTree

section Task

variable (task : Task)

def Task.agentWritten : List Str := recordAgentWrites (task.writes.map (·.relativePath))

/-- The agent has written the path. -/
def Task.Wrote (path : List Str) : Prop := ∃ write ∈ task.writes, write.path = path

/-- What stands at the path now is something the agent wrote there. -/
def Task.Agents (path : List Str) : Prop :=
  ∃ write ∈ task.writes, write.path = path ∧ write.content = task.now.tree.fileAt path

def Task.Changed (path : List Str) : Prop :=
  task.now.tree.fileAt path ≠ task.start.tree.fileAt path

/-- The content differs from the one at the start and from all the agent wrote. -/
def Task.Foreign (path : List Str) : Prop := task.Changed path ∧ ¬ task.Agents path

/-- The text names the file, or a directory above it. -/
def Names (text : Str) (path : List Str) : Prop :=
  text = joinParts path ∨
    ∃ directory, text = directoryText directory ∧ directory <+: path ∧ directory ≠ path

/-- What the text names has been changed, and by the agent alone. -/
def Task.OnlyAgent (text : Str) : Prop :=
  (∃ path, Names text path ∧ task.Changed path) ∧
    ∀ path, Names text path → task.Changed path → task.Agents path

/-- The changes of others are reported, and no change of the agent alone. -/
def Task.Detects (sha : Bytes → Digest) (before after : Bytes) : Prop :=
  ∃ revision snapshot detection,
    captureTaskBaseline sha task.start.tree revision before = .ok snapshot ∧
    detectExternalModifications sha task.now.tree task.agentWritten after snapshot = .ok detection ∧
    (∀ path, task.Foreign path → joinParts path ∈ detection.externalChanges) ∧
    ∀ text ∈ detection.externalChanges, ¬ task.OnlyAgent text

/-- The digest of a file; that of a missing one is empty. -/
def fileDigest (sha : Bytes → Digest) (content : Option Bytes) : Digest := content.elim [] sha

/-- What the detection needs of the two working trees and the writes. -/
structure Task.Detectable (sha : Bytes → Digest) : Prop where
  start_files : ∀ path, ShownFile task.repository task.start path →
    task.start.tree.isDir path = false
  start_directories : ∀ directory, ¬ UntrackedDirectory task.repository task.start directory
  now_files : ∀ path, ShownFile task.repository task.start path →
    ShownFile task.repository task.now path → ¬ task.Wrote path → task.now.tree.isDir path = false
  now_directories : ∀ directory, UntrackedDirectory task.repository task.now directory →
    ∀ path, directory <+: path → directory ≠ path → ¬ task.Changed path
  foreign : ∀ path, task.Foreign path → ¬ task.Wrote path ∧
    ShownFile task.repository task.now path ∧
    (ShownFile task.repository task.start path → fileDigest sha (task.now.tree.fileAt path) ≠
      fileDigest sha (task.start.tree.fileAt path))

end Task

section Rules

variable {task : Task} {sha : Bytes → Digest} {before after : List StatusRecord}

theorem mem_agentWritten {text : Str} :
    text ∈ task.agentWritten ↔ ∃ write ∈ task.writes, joinParts write.path = text := by
  simp only [Task.agentWritten, recordAgentWrites, List.map_map, List.mem_map, Function.comp_apply]
  rfl

theorem joinParts_mem_agentWritten {path : List Str} (plain : ∀ part ∈ path, Plain part) :
    joinParts path ∈ task.agentWritten ↔ task.Wrote path := by
  rw [mem_agentWritten]
  constructor
  · rintro ⟨write, made, same⟩
    exact ⟨write, made, joinParts_injective write.plain plain same⟩
  · rintro ⟨write, made, rfl⟩
    exact ⟨write, made, rfl⟩

theorem directoryText_not_agentWritten {directory : List Str}
    (plain : ∀ part ∈ directory, Plain part) : directoryText directory ∉ task.agentWritten := by
  rw [mem_agentWritten]
  rintro ⟨write, _, same⟩
  exact joinParts_ne_directoryText write.plain plain same

theorem Task.Changed.plain {path : List Str} (changed : task.Changed path) :
    ∀ part ∈ path, Plain part := by
  by_cases there : task.now.tree.node path = none
  · apply task.start.plain path
    intro absent
    exact changed (by rw [Tree.fileAt, Tree.fileAt, there, absent])
  · exact task.now.plain path there

theorem names_joinParts {path other : List Str} (plain : ∀ part ∈ path, Plain part)
    (plain' : ∀ part ∈ other, Plain part) : Names (joinParts path) other ↔ other = path := by
  constructor
  · rintro (same | ⟨directory, same, above, _⟩)
    · exact (joinParts_injective plain plain' same).symm
    · exact absurd same (joinParts_ne_directoryText plain
        fun part inside => plain' part (above.subset inside))
  · rintro rfl
    exact Or.inl rfl

theorem names_directoryText {directory path : List Str} (plain : ∀ part ∈ directory, Plain part)
    (plain' : ∀ part ∈ path, Plain part) :
    Names (directoryText directory) path ↔ directory <+: path ∧ directory ≠ path := by
  constructor
  · rintro (same | ⟨other, same, above, proper⟩)
    · exact absurd same.symm (joinParts_ne_directoryText plain' plain)
    · have others : directory = other := by
        rw [← parts_directoryText plain, same,
          parts_directoryText fun part inside => plain' part (above.subset inside)]
      rw [others]
      exact ⟨above, proper⟩
  · rintro ⟨above, proper⟩
    exact Or.inr ⟨directory, rfl, above, proper⟩

theorem hashOf_file {tree : Tree Str Bytes} {path : List Str} (plain : ∀ part ∈ path, Plain part)
    (file : tree.isDir path = false) :
    hashOf sha tree (joinParts path) = .ok (fileDigest sha (tree.fileAt path)) := by
  rw [hashOf, parts_joinParts plain]
  unfold Tree.fileAt fileDigest
  split
  · rename_i absent
    rw [absent]
    rfl
  · rename_i content stands
    rw [stands]
    rfl
  · rename_i stands
    rw [Tree.isDir, stands] at file
    cases file

theorem hashOf_dir {tree : Tree Str Bytes} {text : Str} (dir : tree.isDir (parts text) = true) :
    hashOf sha tree text = .error .osError := by
  rw [hashOf, Tree.isDir_iff.mp dir]

/-- The snapshot is taken when git lists no directory, and has the digest of every listed path. -/
theorem capture_ok {revision : Str} {snapshot : GitTaskSnapshot}
    (lists : Lists task.repository task.start before)
    (captured : captureTaskBaseline sha task.start.tree revision (encodeRecords before) =
      .ok snapshot) :
    (∀ path, ShownFile task.repository task.start path → task.start.tree.isDir path = false) ∧
      (∀ directory, ¬ UntrackedDirectory task.repository task.start directory) ∧
      ∀ path, (∀ part ∈ path, Plain part) →
        (ShownFile task.repository task.start path → snapshot.fileHashes.lookup (joinParts path) =
          some (fileDigest sha (task.start.tree.fileAt path))) ∧
        (¬ ShownFile task.repository task.start path →
          snapshot.fileHashes.lookup (joinParts path) = none) ∧
        snapshot.fileHashes.lookup (directoryText path) = none := by
  rw [captureTaskBaseline] at captured
  cases ran : hashes sha task.start.tree (sortPaths (status (encodeRecords before)).paths) with
  | error reason =>
      rw [ran] at captured
      cases captured
  | ok entries =>
      rw [ran] at captured
      cases captured
      have readable := hashes_isOk.mp ⟨entries, ran⟩
      have listed : ∀ path, (∀ part ∈ path, Plain part) →
          (joinParts path ∈ sortPaths (status (encodeRecords before)).paths ↔
            ShownFile task.repository task.start path) := by
        intro path plain
        rw [mem_sortPaths, mem_status_paths lists]
        constructor
        · rintro (⟨other, shown, same⟩ | ⟨directory, shown, same⟩)
          · rw [joinParts_injective plain shown.plain same]
            exact shown
          · exact absurd same (joinParts_ne_directoryText plain shown.plain)
        · exact fun shown => Or.inl ⟨path, shown, rfl⟩
      have files : ∀ path, ShownFile task.repository task.start path →
          task.start.tree.isDir path = false := by
        intro path shown
        have file := readable _ ((listed path shown.plain).mpr shown)
        rwa [parts_joinParts shown.plain] at file
      have directories :
        ∀ directory, ¬ UntrackedDirectory task.repository task.start directory := by
        intro directory shown
        have file := readable _ (mem_sortPaths.mpr
          ((mem_status_paths lists).mpr (Or.inr ⟨directory, shown, rfl⟩)))
        rw [parts_directoryText shown.plain, shown.isDir] at file
        cases file
      refine ⟨files, directories, fun path plain => ⟨fun shown => ?_, fun hidden => ?_, ?_⟩⟩
      · have hashed := (hashes_ok ran (joinParts path)).1 ((listed path plain).mpr shown)
        rw [hashOf_file plain (files path shown)] at hashed
        dsimp only at hashed ⊢
        cases found : entries.lookup (joinParts path) with
        | none =>
            rw [found] at hashed
            cases hashed
        | some digest =>
            rw [found] at hashed
            exact congrArg some (Except.ok.inj hashed).symm
      · exact (hashes_ok ran (joinParts path)).2 fun inside =>
          hidden ((listed path plain).mp inside)
      · refine (hashes_ok ran (directoryText path)).2 fun inside => ?_
        rcases (mem_status_paths lists).mp (mem_sortPaths.mp inside) with
          ⟨other, shown, same⟩ | ⟨directory, shown, _⟩
        · exact joinParts_ne_directoryText shown.plain plain same.symm
        · exact directories directory shown

theorem capture_runs (lists : Lists task.repository task.start before) (revision : Str)
    (files : ∀ path, ShownFile task.repository task.start path → task.start.tree.isDir path = false)
    (directories : ∀ directory, ¬ UntrackedDirectory task.repository task.start directory) :
    ∃ snapshot, captureTaskBaseline sha task.start.tree revision (encodeRecords before) =
      .ok snapshot := by
  have readable : ∀ text ∈ sortPaths (status (encodeRecords before)).paths,
      task.start.tree.isDir (parts text) = false := by
    intro text inside
    rcases (mem_status_paths lists).mp (mem_sortPaths.mp inside) with
      ⟨path, shown, rfl⟩ | ⟨directory, shown, _⟩
    · rw [parts_joinParts shown.plain]
      exact files path shown
    · exact absurd shown (directories directory)
  obtain ⟨entries, ran⟩ := hashes_isOk.mpr readable
  rw [captureTaskBaseline, ran]
  exact ⟨_, rfl⟩

/-- A file that is listed now is judged by the agent's writes and the two digests. -/
theorem isExternal_file {snapshot : GitTaskSnapshot} {path : List Str}
    (plain : ∀ part ∈ path, Plain part)
    (known : ShownFile task.repository task.start path →
      snapshot.fileHashes.lookup (joinParts path) =
      some (fileDigest sha (task.start.tree.fileAt path)))
    (unknown : ¬ ShownFile task.repository task.start path →
      snapshot.fileHashes.lookup (joinParts path) = none)
    (file : ShownFile task.repository task.start path → ¬ task.Wrote path →
      task.now.tree.isDir path = false) :
    ∃ changed, isExternal sha task.now.tree task.agentWritten snapshot (joinParts path) =
        .ok changed ∧
      (changed = true ↔ ¬ task.Wrote path ∧ (ShownFile task.repository task.start path →
        fileDigest sha (task.now.tree.fileAt path) ≠
          fileDigest sha (task.start.tree.fileAt path))) := by
  unfold isExternal
  by_cases wrote : task.Wrote path
  · rw [if_pos ((joinParts_mem_agentWritten plain).mpr wrote)]
    exact ⟨false, rfl, iff_of_false nofun fun both => both.1 wrote⟩
  · rw [if_neg fun listed => wrote ((joinParts_mem_agentWritten plain).mp listed)]
    by_cases shown : ShownFile task.repository task.start path
    · rw [known shown]
      dsimp only
      rw [hashOf_file plain (file shown wrote)]
      refine ⟨_, rfl, ?_⟩
      rw [decide_eq_true_eq]
      exact ⟨fun differ => ⟨wrote, fun _ => differ⟩, fun both => both.2 shown⟩
    · rw [unknown shown]
      exact ⟨true, rfl, iff_of_true rfl ⟨wrote, fun shown' => absurd shown' shown⟩⟩

theorem isExternal_directory {snapshot : GitTaskSnapshot} {directory : List Str}
    (plain : ∀ part ∈ directory, Plain part)
    (unknown : snapshot.fileHashes.lookup (directoryText directory) = none) :
    isExternal sha task.now.tree task.agentWritten snapshot (directoryText directory) =
      .ok true := by
  rw [isExternal, if_neg (directoryText_not_agentWritten plain), unknown]

/-- A detection that succeeds reports the listed paths that are judged external. -/
theorem detect_ok {snapshot : GitTaskSnapshot} {detection : GitChangeDetection}
    (detected : detectExternalModifications sha task.now.tree task.agentWritten
      (encodeRecords after)
      snapshot = .ok detection) :
    (∀ text ∈ (status (encodeRecords after)).paths, ∃ changed,
        isExternal sha task.now.tree task.agentWritten snapshot text = .ok changed) ∧
      ∀ text, text ∈ detection.externalChanges ↔ text ∈ (status (encodeRecords after)).paths ∧
        isExternal sha task.now.tree task.agentWritten snapshot text = .ok true := by
  rw [detectExternalModifications] at detected
  cases ran : externalOf sha task.now.tree task.agentWritten snapshot
      (status (encodeRecords after)).paths.dedup with
  | error reason =>
      simp only [ran] at detected
      cases detected
  | ok external =>
      simp only [ran] at detected
      have same := Except.ok.inj detected
      subst same
      have runs := externalOf_runs ran
      obtain ⟨same, ran', listed⟩ := externalOf_ok runs
      rw [ran, Except.ok.injEq] at ran'
      subst ran'
      refine ⟨fun text inside => runs text (List.mem_dedup.mpr inside), fun text => ?_⟩
      rw [mem_sortPaths, listed, List.mem_dedup]

theorem detect_runs {snapshot : GitTaskSnapshot}
    (runs : ∀ text ∈ (status (encodeRecords after)).paths, ∃ changed,
      isExternal sha task.now.tree task.agentWritten snapshot text = .ok changed) :
    ∃ detection, detectExternalModifications sha task.now.tree task.agentWritten
      (encodeRecords after) snapshot = .ok detection := by
  obtain ⟨external, ran, _⟩ := @externalOf_ok sha task.now.tree task.agentWritten snapshot
    (status (encodeRecords after)).paths.dedup fun text inside =>
      runs text (List.mem_dedup.mp inside)
  simp only [detectExternalModifications, ran]
  exact ⟨_, rfl⟩

theorem detectable_of_detects (lists : Lists task.repository task.start before)
    (lists' : Lists task.repository task.now after)
    (detects : task.Detects sha (encodeRecords before) (encodeRecords after)) :
    task.Detectable sha := by
  obtain ⟨revision, snapshot, detection, captured, detected, complete, sound⟩ := detects
  obtain ⟨files, directories, known⟩ := capture_ok lists captured
  obtain ⟨judged, reported⟩ := detect_ok detected
  have now_files : ∀ path, ShownFile task.repository task.start path →
      ShownFile task.repository task.now path → ¬ task.Wrote path →
        task.now.tree.isDir path = false := by
    intro path before_shown now_shown unwritten
    obtain ⟨changed, answered⟩ :=
      judged _ ((mem_status_paths lists').mpr (Or.inl ⟨path, now_shown, rfl⟩))
    rw [isExternal, if_neg fun listed => unwritten
      ((joinParts_mem_agentWritten now_shown.plain).mp listed),
      (known path now_shown.plain).1 before_shown] at answered
    by_contra dir
    rw [Bool.not_eq_false, ← parts_joinParts now_shown.plain] at dir
    rw [hashOf_dir dir] at answered
    cases answered
  have foreign : ∀ path, task.Foreign path → ¬ task.Wrote path ∧
      ShownFile task.repository task.now path ∧
      (ShownFile task.repository task.start path → fileDigest sha (task.now.tree.fileAt path) ≠
        fileDigest sha (task.start.tree.fileAt path)) := by
    intro path theirs
    obtain ⟨inside, answered⟩ := (reported _).mp (complete path theirs)
    have plain := theirs.1.plain
    have shown : ShownFile task.repository task.now path := by
      rcases (mem_status_paths lists').mp inside with ⟨other, shown, same⟩ |
        ⟨directory, shown, same⟩
      · rw [joinParts_injective plain shown.plain same]
        exact shown
      · exact absurd same (joinParts_ne_directoryText plain shown.plain)
    obtain ⟨changed, answered', rule⟩ := isExternal_file plain (known path plain).1
      (known path plain).2.1 fun before_shown unwritten =>
        now_files path before_shown shown unwritten
    rw [answered, Except.ok.injEq] at answered'
    exact ⟨(rule.mp answered'.symm).1, shown, (rule.mp answered'.symm).2⟩
  refine ⟨files, directories, now_files, ?_, foreign⟩
  intro directory listed path above proper changed
  have inside := (mem_status_paths lists').mpr (Or.inr ⟨directory, listed, rfl⟩)
  have external := (reported _).mpr
    ⟨inside, isExternal_directory listed.plain (known directory listed.plain).2.2⟩
  refine sound _ external ⟨⟨path, ?_, changed⟩, fun other named changed' => ?_⟩
  · exact (names_directoryText listed.plain changed.plain).mpr ⟨above, proper⟩
  · by_contra others
    obtain ⟨above', proper'⟩ := (names_directoryText listed.plain changed'.plain).mp named
    exact listed.hides above' proper' (foreign other ⟨changed', others⟩).2.1

theorem detects_of_detectable (lists : Lists task.repository task.start before)
    (lists' : Lists task.repository task.now after) (detectable : task.Detectable sha) :
    task.Detects sha (encodeRecords before) (encodeRecords after) := by
  obtain ⟨snapshot, captured⟩ := @capture_runs task sha before lists []
    detectable.start_files detectable.start_directories
  obtain ⟨_, _, known⟩ := capture_ok lists captured
  have file_rule := fun (path : List Str) (shown : ShownFile task.repository task.now path) =>
    isExternal_file shown.plain (known path shown.plain).1 (known path shown.plain).2.1
      fun before_shown unwritten => detectable.now_files path before_shown shown unwritten
  have judged : ∀ text ∈ (status (encodeRecords after)).paths, ∃ changed,
      isExternal sha task.now.tree task.agentWritten snapshot text = .ok changed := by
    intro text inside
    rcases (mem_status_paths lists').mp inside with ⟨path, shown, rfl⟩ | ⟨directory, shown, rfl⟩
    · obtain ⟨changed, answered, _⟩ := file_rule path shown
      exact ⟨changed, answered⟩
    · exact ⟨true, isExternal_directory shown.plain (known directory shown.plain).2.2⟩
  obtain ⟨detection, detected⟩ := detect_runs judged
  obtain ⟨_, reported⟩ := detect_ok detected
  refine ⟨[], snapshot, detection, captured, detected, fun path theirs =>
    ?_, fun text inside only => ?_⟩
  · obtain ⟨unwritten, shown, differ⟩ := detectable.foreign path theirs
    obtain ⟨changed, answered, rule⟩ := file_rule path shown
    rw [rule.mpr ⟨unwritten, differ⟩] at answered
    exact (reported _).mpr ⟨(mem_status_paths lists').mpr (Or.inl ⟨path, shown, rfl⟩), answered⟩
  · obtain ⟨⟨path, named, changed⟩, agents⟩ := only
    obtain ⟨listed, external⟩ := (reported _).mp inside
    rcases (mem_status_paths lists').mp listed with ⟨other, shown, rfl⟩ | ⟨directory, shown, rfl⟩
    · obtain ⟨write, made, same, _⟩ := agents path named changed
      rw [names_joinParts shown.plain changed.plain] at named
      subst named
      obtain ⟨judgement, answered, rule⟩ := file_rule path shown
      rw [external, Except.ok.injEq] at answered
      exact (rule.mp answered.symm).1 ⟨write, made, same⟩
    · obtain ⟨above, proper⟩ := (names_directoryText shown.plain changed.plain).mp named
      exact detectable.now_directories directory shown path above proper changed

/-- The changes of others are reported and those of the agent alone are not, exactly when git lists
them as files now, on paths that the agent has never written. -/
theorem external_changes_detected_iff (lists : Lists task.repository task.start before)
    (lists' : Lists task.repository task.now after) :
    task.Detects sha (encodeRecords before) (encodeRecords after) ↔ task.Detectable sha :=
  ⟨detectable_of_detects lists lists', detects_of_detectable lists lists'⟩

end Rules

/-! ### A change that is taken back -/

theorem plain_single : ∀ part ∈ ["a".toList], Plain part :=
  List.forall_mem_singleton.mpr ⟨by decide, by decide, by decide, by decide⟩

def committed : Repository where
  head path := if path = ["a".toList] then some [1] else none
  ignored _ := false
  plain path tracked := by
    have only : path = ["a".toList] := by
      by_contra other
      exact tracked (if_neg other)
    rw [only]
    exact plain_single

theorem singleFile_names (content : Bytes) (path : List Str)
    (present : (Tree.empty.put ["a".toList] (.file content) (by decide)).node path ≠ none) :
    path = ["a".toList] ∨ path = [] := by
  have listed := Tree.listed _ path present
  simpa [Tree.put, Tree.empty] using listed

/-- A working tree with the one file. -/
def singleFile (content : Bytes) : WorkTree where
  tree := Tree.empty.put ["a".toList] (.file content) (by decide)
  plain path present := by
    rcases singleFile_names content path present with rfl | rfl
    · exact plain_single
    · exact nofun

theorem singleFile_fileAt (content : Bytes) (path : List Str) :
    (singleFile content).tree.fileAt path = if path = ["a".toList] then some content else none := by
  by_cases here : path = ["a".toList]
  · subst here
    rw [if_pos rfl]
    rfl
  · rw [if_neg here, Tree.fileAt]
    cases present : (singleFile content).tree.node path with
    | none => rfl
    | some node =>
        have some_node : (singleFile content).tree.node path ≠ none := by
          rw [present]
          exact Option.some_ne_none node
        have root : path = [] := (singleFile_names content path some_node).resolve_left here
        rw [root, (singleFile content).tree.root] at present
        cases present
        rfl

theorem single_not_unknown (content : Bytes) (path : List Str) :
    ¬ Unknown committed (singleFile content) path := by
  rintro ⟨untracked, there, _⟩
  rw [singleFile_fileAt] at there
  by_cases here : path = ["a".toList]
  · rw [here] at untracked
    cases untracked
  · exact there (if_neg here)

theorem single_tracked {content : Bytes} {path : List Str} :
    TrackedChange committed (singleFile content) path ↔ path = ["a".toList] ∧ content ≠ [1] := by
  unfold TrackedChange
  rw [singleFile_fileAt]
  dsimp only [committed]
  by_cases here : path = ["a".toList]
  · rw [if_pos here, if_pos here]
    simp [here]
  · rw [if_neg here, if_neg here]
    exact iff_of_false (fun differ => differ.1 rfl) fun both => here both.1

theorem single_shown {content : Bytes} {path : List Str} :
    ShownFile committed (singleFile content) path ↔ path = ["a".toList] ∧ content ≠ [1] := by
  rw [← single_tracked]
  exact or_iff_left fun untracked => single_not_unknown content path untracked.1

theorem single_no_directory (content : Bytes) (directory : List Str) :
    ¬ UntrackedDirectory committed (singleFile content) directory := by
  rintro ⟨_, _, ⟨path, _, _, unknown⟩, _⟩
  exact single_not_unknown content path unknown

def singleRecord : StatusRecord :=
  .changed .unmodified .modified ⟨"a".toList, by decide, by decide⟩

/-- Git lists the file while it differs from the committed one. -/
theorem single_lists (content : Bytes) :
    Lists committed (singleFile content) (if content = [1] then [] else [singleRecord]) := by
  refine ⟨fun text => ?_, fun text => ?_, fun record listed => ?_⟩
  · simp only [single_tracked]
    by_cases same : content = [1]
    · simp [same]
    · simp [same, singleRecord, StatusRecord.tracked?, joinParts, eq_comm]
  · refine iff_of_false ?_ ?_
    · rintro ⟨record, listed, untracked⟩
      by_cases same : content = [1]
      · rw [if_pos same] at listed
        cases listed
      · rw [if_neg same, List.mem_singleton] at listed
        rw [listed] at untracked
        cases untracked
    · rintro (⟨path, untracked, _⟩ | ⟨directory, untracked, _⟩)
      · exact single_not_unknown content path untracked.1
      · exact single_no_directory content directory untracked
  · by_cases same : content = [1]
    · rw [if_pos same] at listed
      cases listed
    · rw [if_neg same, List.mem_singleton] at listed
      rw [listed]
      rfl

/-- The file was changed before the start, and others have put back what is committed. -/
def takenBack : Task := ⟨committed, singleFile [2], [], singleFile [1]⟩

theorem takenBack_not_detected :
    ¬∀ (sha : Bytes → Digest) (task : Task) (before after : List StatusRecord),
      Lists task.repository task.start before → Lists task.repository task.now after →
      task.Detects sha (encodeRecords before) (encodeRecords after) := by
  intro claimed
  obtain ⟨_, _, _, _, detected, complete, _⟩ :=
    claimed (fun _ => []) takenBack _ _ (single_lists [2]) (single_lists [1])
  have theirs : takenBack.Foreign ["a".toList] := by
    refine ⟨?_, (fun ⟨_, made, _⟩ => nomatch made)⟩
    show (singleFile [1]).tree.fileAt _ ≠ (singleFile [2]).tree.fileAt _
    rw [singleFile_fileAt, singleFile_fileAt]
    decide
  have listed := ((detect_ok detected).2 _).mp (complete _ theirs)
  rcases (mem_status_paths (single_lists [1])).mp listed.1 with ⟨path, shown, _⟩ |
    ⟨directory, shown, _⟩
  · exact (single_shown.mp shown).2 rfl
  · exact single_no_directory [1] directory shown

/-- Others change the committed file after the start. -/
def changedSince : Task := ⟨committed, singleFile [1], [], singleFile [2]⟩

theorem changedSince_detected :
    changedSince.Detects (fun _ => []) (encodeRecords []) (encodeRecords [singleRecord]) := by
  refine (@external_changes_detected_iff changedSince (fun _ => []) [] [singleRecord] ?_ ?_).mpr ?_
  · exact single_lists [1]
  · exact single_lists [2]
  · have clean : ∀ path, ¬ ShownFile changedSince.repository changedSince.start path :=
      fun path shown => (single_shown.mp shown).2 rfl
    refine ⟨fun path shown => absurd shown (clean path), single_no_directory [1],
      fun path shown => absurd shown (clean path),
      fun directory listed => absurd listed (single_no_directory [2] directory), ?_⟩
    rintro path ⟨changed, _⟩
    have here : path = ["a".toList] := by
      by_contra other
      apply changed
      show (singleFile [2]).tree.fileAt path = (singleFile [1]).tree.fileAt path
      rw [singleFile_fileAt, singleFile_fileAt, if_neg other, if_neg other]
    exact ⟨(fun ⟨_, made, _⟩ => nomatch made), single_shown.mpr ⟨here, by decide⟩,
      fun shown => absurd shown (clean path)⟩

end SeMentor.Git
