import SeMentor.Tools.WriteCalls

set_option autoImplicit false

/- What a patch does to its file when others edit the project meanwhile: what it has put there,
copied and recorded when it succeeds, and what it leaves to others when it does not. -/
namespace SeMentor.OnDisk

open Paths Models FileTree Effect Host Policy Tools

/-! ### Replacements -/

section Replacements

variable {α : Type}

/-- The first occurrence of `old` in a text is replaced. -/
def FirstReplaced (old new text result : List α) : Prop :=
  ∃ front back, text = front ++ (old ++ back) ∧ result = front ++ (new ++ back) ∧
    ∀ front' back', text = front' ++ (old ++ back') → front.length ≤ front'.length

variable [DecidableEq α] {old new text result : List α}

theorem replaceFirst_eq_some :
    replaceFirst old new text = some result ↔ FirstReplaced old new text result := by
  induction text generalizing result with
  | nil =>
      rw [replaceFirst]
      constructor
      · intro replaced
        split at replaced
        · rename_i empty
          cases replaced
          exact ⟨[], [], by rw [empty]; rfl, by simp, fun _ _ _ => Nat.zero_le _⟩
        · cases replaced
      · rintro ⟨front, back, shape, rfl, _⟩
        obtain ⟨rfl, rest⟩ := List.append_eq_nil_iff.mp shape.symm
        obtain ⟨empty, rfl⟩ := List.append_eq_nil_iff.mp rest
        rw [if_pos empty, List.nil_append, List.append_nil]
  | cons head rest ih =>
      rw [replaceFirst]
      by_cases here : old.isPrefixOf (head :: rest) = true
      · obtain ⟨back, shape⟩ := List.isPrefixOf_iff_prefix.mp here
        have dropped : (head :: rest).drop old.length = back := by
          rw [← shape, List.drop_left]
        rw [if_pos here, dropped, Option.some.injEq]
        constructor
        · rintro rfl
          exact ⟨[], back, shape.symm, rfl, fun _ _ _ => Nat.zero_le _⟩
        · rintro ⟨front, back', shape', rfl, first⟩
          have at_start := first [] back shape.symm
          obtain rfl : front = [] := List.length_eq_zero_iff.mp (Nat.le_zero.mp at_start)
          rw [List.nil_append, ← shape, List.append_cancel_left_eq] at shape'
          rw [shape', List.nil_append]
      · have not_here : ∀ back, head :: rest ≠ old ++ back := fun back shape =>
          here (List.isPrefixOf_iff_prefix.mpr ⟨back, shape.symm⟩)
        rw [if_neg here, Option.map_eq_some_iff]
        constructor
        · rintro ⟨tail, replaced, rfl⟩
          obtain ⟨front, back, shape, rfl, first⟩ := ih.mp replaced
          refine ⟨head :: front, back, by rw [shape]; rfl, rfl, fun front' back' shape' => ?_⟩
          cases front' with
          | nil => exact absurd shape' (not_here back')
          | cons other front' =>
              have later := first front' back' (List.cons.inj shape').2
              simpa using later
        · rintro ⟨front, back, shape, rfl, first⟩
          cases front with
          | nil => exact absurd shape (not_here back)
          | cons other front =>
              obtain ⟨rfl, tail_shape⟩ := List.cons.inj shape
              refine ⟨front ++ (new ++ back), ih.mpr ⟨front, back, tail_shape, rfl, ?_⟩, rfl⟩
              intro front' back' shape'
              have later := first (head :: front') back' (by rw [shape']; rfl)
              simpa using later

end Replacements

/-- The replacements one after the other, each on what the ones before have made. -/
inductive Folded : Text → List (Text × Text) → Text → Prop where
  | nil (text : Text) : Folded text [] text
  | cons {old new text middle result : Text} {rest : List (Text × Text)}
      (replaced : FirstReplaced old new text middle) (later : Folded middle rest result) :
      Folded text ((old, new) :: rest) result

theorem applyReplacements_ok {text result : Text} {replacements : List (Text × Text)} :
    applyReplacements text replacements = .ok result ↔ Folded text replacements result := by
  induction replacements generalizing text with
  | nil =>
      rw [applyReplacements, Except.ok.injEq]
      constructor
      · rintro rfl
        exact .nil text
      · intro folded
        cases folded
        rfl
  | cons first rest ih =>
      obtain ⟨old, new⟩ := first
      rw [applyReplacements]
      constructor
      · intro applied
        split at applied
        · cases applied
        · rename_i middle replaced
          exact .cons (replaceFirst_eq_some.mp replaced) (ih.mp applied)
      · intro folded
        cases folded with
        | cons replaced later =>
            rw [replaceFirst_eq_some.mpr replaced]
            exact ih.mpr later

theorem patchedBytes_eq_some {old bytes : Bytes} {replacements : List (Text × Text)} :
    patchedBytes old replacements = some bytes ↔ ∃ text new, decodeText old = some text ∧
      Folded text replacements new ∧ encodeText new = some bytes := by
  rw [patchedBytes, Option.bind_eq_some_iff]
  constructor
  · rintro ⟨text, decoded, made⟩
    obtain ⟨new, applied, encoded⟩ := Option.bind_eq_some_iff.mp made
    refine ⟨text, new, decoded, applyReplacements_ok.mp ?_, encoded⟩
    cases outcome : applyReplacements text replacements with
    | error reason =>
        rw [outcome] at applied
        cases applied
    | ok other =>
        rw [outcome] at applied
        exact congrArg Except.ok (Option.some.inj applied)
  · rintro ⟨text, new, decoded, folded, encoded⟩
    refine ⟨text, decoded, Option.bind_eq_some_iff.mpr ⟨new, ?_, encoded⟩⟩
    rw [applyReplacements_ok.mpr folded]
    rfl

/-! ### The moments of a patch -/

/-- The project as others leave it: at the first look at the target, when it is copied, when the
temporary file is opened, and, with what is written there, until the second look. -/
structure Moments where
  first : Tree Str Bytes
  copied : Tree Str Bytes
  opened : Tree Str Bytes
  written : Tree Str Bytes
  reread : Tree Str Bytes
  second : Tree Str Bytes

def moments (around : Around Bytes) (tree : Tree Str Bytes) (target : List Str) (bytes : Bytes) :
    Moments :=
  let first := around.edit .beforeRead tree
  let copied := around.edit .beforeBackup first
  let opened := around.edit .beforeText copied
  let temp := tempPath target around.hex
  let written := ((opened.write temp []).bind (Tree.write · temp bytes)).getD opened
  let reread := around.edit .beforeTempRead written
  ⟨first, copied, opened, written, reread, around.edit .beforeCheck reread⟩

/-- No edit of others changes what stands at a path. -/
def Moments.Unedited (moments : Moments) (tree : Tree Str Bytes) (path : List Str) : Prop :=
  moments.first.node path = tree.node path ∧
    moments.copied.node path = moments.first.node path ∧
    moments.opened.node path = moments.copied.node path ∧
    moments.reread.node path = moments.written.node path ∧
    moments.second.node path = moments.reread.node path

variable {sha : Bytes → Digest} {around : Around Bytes} {caller : Caller} {s after : Site Bytes}
  {patch : StructuredPatch} {simulate : Bool}

/-- What a successful patch leaves: the folded text at the target, its copy of the old bytes, the
digests of both, and every other file as others leave it. -/
structure PatchedExactly (sha : Bytes → Digest) (around : Around Bytes) (s : Site Bytes)
    (patch : StructuredPatch) (target : List Str) (after : Site Bytes) : Prop where
  patched : ∃ old text new bytes, plain.read (around.edit .beforeRead s.tree) target = some old ∧
    sha old = patch.expectedSha256 ∧ decodeText old = some text ∧
    Folded text patch.replacements new ∧ encodeText new = some bytes ∧
    plain.read after.tree target = some bytes ∧
    (∀ path, path ≠ target → (moments around s.tree target bytes).Unedited s.tree path →
      after.tree.node path = s.tree.node path) ∧
    ∃ change entry, after.db.fileChanges = s.db.fileChanges ++ [change] ∧
      after.db.backupEntries = s.db.backupEntries ++ [entry] ∧
      change.backupEntryId = some s.db.backupEntries.length ∧
      change.beforeHash = some (sha old) ∧ change.afterHash = some (sha bytes) ∧
      after.copyAt entry.backupArtifactRef = some old

/-- Others have the target hold the same bytes when it is copied as at the first look, and leave the
temporary file as it was written. -/
def Undisturbed (around : Around Bytes) (s : Site Bytes) (patch : StructuredPatch)
    (target : List Str) : Prop :=
  ∀ old bytes, plain.read (around.edit .beforeRead s.tree) target = some old →
    patchedBytes old patch.replacements = some bytes →
    plain.read (moments around s.tree target bytes).copied target = some old ∧
      plain.read (moments around s.tree target bytes).second (tempPath target around.hex) =
        some bytes

theorem moments_written {tree opened written : Tree Str Bytes} {target : List Str} {bytes : Bytes}
    (opens : (around.edit .beforeText (around.edit .beforeBackup
      (around.edit .beforeRead tree))).write (tempPath target around.hex) [] = some opened)
    (fills : opened.write (tempPath target around.hex) bytes = some written) :
    (moments around tree target bytes).written = written := by
  simp only [moments, opens, Option.bind_some, fills, Option.getD_some]

theorem moments_second (tree : Tree Str Bytes) (target : List Str) (bytes : Bytes) :
    (moments around tree target bytes).second = around.edit .beforeCheck
      (around.edit .beforeTempRead (moments around tree target bytes).written) := rfl

/-- Everything a successful patch has seen and left. -/
structure PatchRun (sha : Bytes → Digest) (around : Around Bytes) (s : Site Bytes)
    (patch : StructuredPatch) (target : List Str) (after : Site Bytes)
    (old bytes copy content : Bytes) : Prop where
  seen : plain.read (around.edit .beforeRead s.tree) target = some old
  expected : sha old = patch.expectedSha256
  made : patchedBytes old patch.replacements = some bytes
  copied : plain.read (moments around s.tree target bytes).copied target = some copy
  written : (moments around s.tree target bytes).written.node =
    Function.update (moments around s.tree target bytes).opened.node (tempPath target around.hex)
      (some (.file bytes))
  checked : plain.read (moments around s.tree target bytes).second (tempPath target around.hex) =
    some content
  below : target ≠ []
  moved : after.tree.node = Function.update (Function.update
    (moments around s.tree target bytes).second.node (tempPath target around.hex) none) target
      (some (.file content))
  recorded : ∃ change entry, after.db.fileChanges = s.db.fileChanges ++ [change] ∧
    after.db.backupEntries = s.db.backupEntries ++ [entry] ∧
    change.backupEntryId = some s.db.backupEntries.length ∧
    change.beforeHash = some (sha old) ∧ change.afterHash = some (sha content) ∧
    after.copyAt entry.backupArtifactRef = some copy

theorem apply_runs {result : ApplyPatchResult}
    (ran : Returns (apply sha plain around caller patch simulate) s result after) :
    ∃ target old bytes copy content,
      (WriteCall.applyPatch patch simulate).target plain s.tree = some target ∧
        PatchRun sha around s patch target after old bytes copy content := by
  simp only [apply, recordPatch, record, returns_bind, returns_attempt, returns_volumeRead,
    returns_read, returns_onRows, returns_pure] at ran
  obtain ⟨prepared, _, files, _, _, ⟨_, rfl⟩, afterBytes, _, ⟨read_back, rfl⟩, _, _,
    ⟨_, _, ⟨rfl, rfl⟩,
    _, _, rfl, rfl, rfl⟩, rfl, rfl⟩ := ran
  obtain ⟨located, found, ready, find, prepare, replace⟩ := returns_patchFile.mp files
  obtain ⟨locate, _, _, rfl⟩ := returns_findTarget.mp find
  obtain ⟨text, copied, read_text, copy, wrote, rfl, temp⟩ := returns_prepareReplacement.mp prepare
  obtain ⟨_, _, old, before, seen, hash, expected, decoded, replaced⟩ :=
    returns_patchedText.mp read_text
  obtain ⟨backed, back, rfl⟩ := returns_copyTarget.mp copy
  obtain ⟨copy, copy_seen, copy_kept, same_tree, same_db, _⟩ := backupFile_returns back
  obtain ⟨written, write, _, _, _, rfl⟩ := returns_writeTemp.mp wrote
  obtain ⟨_, _, opened, bytes, filled, opens, encoded, fills, rfl⟩ := returns_writeText.mp write
  obtain ⟨_, _, _, _, moved, move, rfl⟩ := returns_replaceTarget.mp replace
  rw [temp] at opens fills move
  dsimp only at seen copy_seen same_tree same_db opens read_back move
  rw [same_tree] at opens
  obtain ⟨content, at_temp, node⟩ := Tree.move_node move
  have node_there := Volume.read_eq_some.mp seen
  have below : prepared.located.target ≠ [] := by
    intro root
    rw [root, (around.edit .beforeRead s.tree).root] at node_there
    cases node_there
  obtain rfl : afterBytes = content := by
    have there := Volume.read_eq_some.mp read_back
    rw [node, Function.update_self] at there
    exact (Node.file.inj (Option.some.inj there)).symm
  have all_written : (moments around s.tree prepared.located.target bytes).written = filled :=
    moments_written opens fills
  refine ⟨prepared.located.target, old, bytes, copy, afterBytes, target_of_locate locate, ?_⟩
  refine ⟨seen, hash.trans expected, ?_, copy_seen, ?_, ?_, below, ?_, ?_⟩
  · exact patchedBytes_eq_some.mpr
      ⟨before, text, decoded, applyReplacements_ok.mp replaced, encoded⟩
  · rw [all_written, Tree.write_node fills, Tree.write_node opens, Function.update_idem]
    rfl
  · rw [moments_second, all_written]
    exact Volume.read_eq_some.mpr (Tree.fileAt_eq_some.mp at_temp)
  · rw [moments_second, all_written]
    exact node
  · dsimp only
    rw [same_db, Option.toList_some]
    exact ⟨_, _, rfl, rfl, rfl, by rw [hash], rfl, copy_kept⟩

section Runs

variable {target : List Str} {old bytes copy content : Bytes}

/-- Neither the target nor the temporary name set aside, the run changes nothing itself. -/
theorem PatchRun.others (run : PatchRun sha around s patch target after old bytes copy content)
    (free : s.tree.node (tempPath target around.hex) = none) {path : List Str}
    (apart : path ≠ target)
    (unedited : (moments around s.tree target bytes).Unedited s.tree path) :
    after.tree.node path = s.tree.node path := by
  rw [run.moved, Function.update_of_ne apart]
  by_cases temporary : path = tempPath target around.hex
  · rw [temporary, Function.update_self, free]
  · obtain ⟨first, copied, opened, reread, second⟩ := unedited
    have written : (moments around s.tree target bytes).written.node path =
        (moments around s.tree target bytes).opened.node path := by
      rw [run.written, Function.update_of_ne temporary]
    rw [Function.update_of_ne temporary, second, reread, written, opened, copied, first]

theorem PatchRun.reads (run : PatchRun sha around s patch target after old bytes copy content) :
    plain.read after.tree target = some content := by
  rw [Volume.read_eq_some, run.moved, Function.update_self]
  rfl

/-- A run is exact when it copied what it had seen first and put down what it had written. -/
theorem PatchRun.exact_iff (run : PatchRun sha around s patch target after old bytes copy content)
    (free : s.tree.node (tempPath target around.hex) = none) :
    PatchedExactly sha around s patch target after ↔ copy = old ∧ content = bytes := by
  constructor
  · rintro ⟨old', text, new, bytes', seen, _, decoded, folded, encoded, reads, _, change, entry,
      _, entries, _, _, _, kept⟩
    obtain ⟨_, other, _, others, _, _, _, copied⟩ := run.recorded
    rw [run.seen, Option.some.injEq] at seen
    subst seen
    have made := patchedBytes_eq_some.mpr ⟨text, new, decoded, folded, encoded⟩
    rw [run.made, Option.some.injEq] at made
    subst made
    rw [run.reads, Option.some.injEq] at reads
    rw [entries, List.append_cancel_left_eq, List.cons.injEq] at others
    rw [others.1, copied, Option.some.injEq] at kept
    exact ⟨kept, reads⟩
  · rintro ⟨rfl, rfl⟩
    obtain ⟨text, new, decoded, folded, encoded⟩ := patchedBytes_eq_some.mp run.made
    obtain ⟨change, entry, changes, entries, number, before, later, copied⟩ := run.recorded
    exact ⟨copy, text, new, content, run.seen, run.expected, decoded, folded, encoded, run.reads,
      fun path apart unedited => run.others free apart unedited, change, entry, changes, entries,
      number, before, later, copied⟩

theorem PatchRun.undisturbed_iff
    (run : PatchRun sha around s patch target after old bytes copy content) :
    Undisturbed around s patch target ↔ copy = old ∧ content = bytes := by
  constructor
  · intro undisturbed
    obtain ⟨copied, checked⟩ := undisturbed old bytes run.seen run.made
    rw [run.copied, Option.some.injEq] at copied
    rw [run.checked, Option.some.injEq] at checked
    exact ⟨copied, checked⟩
  · rintro ⟨rfl, rfl⟩ old bytes seen made
    rw [run.seen, Option.some.injEq] at seen
    subst seen
    rw [run.made, Option.some.injEq] at made
    subst made
    exact ⟨run.copied, run.checked⟩

end Runs

/-! ### Foreign content -/

/-- The target differs from what the patch expects. -/
def Differs (sha : Bytes → Digest) (tree : Tree Str Bytes) (target : List Str) (digest : Digest) :
    Prop :=
  (plain.read tree target).map sha ≠ some digest

/-- The call raises, and what others have left at the target stays. -/
def RefusesAndKeeps (program : Op Bytes ApplyPatchResult) (s : Site Bytes) (tree : Tree Str Bytes)
    (target : List Str) : Prop :=
  ∃ reason after, Raises program s reason after ∧ after.tree.node target = tree.node target

theorem first_look_refuses {located : Located} {found : Site Bytes}
    (find : Returns (findTarget plain around caller patch) s located found)
    (differs : Differs sha found.tree located.target patch.expectedSha256) :
    RefusesAndKeeps (apply sha plain around caller patch simulate) s found.tree located.target := by
  rcases returns_or_raises (patchedText sha plain around patch located) found with
    ⟨⟨digest, text⟩, returned⟩ | ⟨reason, refused⟩
  · obtain ⟨_, _, bytes, _, stands, same, expected, _⟩ := returns_patchedText.mp returned
    refine absurd ?_ differs
    rw [stands, Option.map_some, same, expected]
  · have kept : _ = found.tree := (calm_patchedText patch located).raises refused
    refine ⟨reason, _, ?_, congrArg (·.node located.target) kept⟩
    refine raises_bind.mpr (Or.inl (raises_bind.mpr (Or.inr ⟨located, found, find, ?_⟩)))
    exact raises_bind.mpr (Or.inl (raises_bind.mpr (Or.inl refused)))

/-- Every file but the temporary one is as before. -/
def SameBut (temp : List Str) (before after : Site Bytes) : Prop :=
  ∀ path, path ≠ temp → after.tree.node path = before.tree.node path

theorem sameBut (temp : List Str) (s : Site Bytes) : SameBut temp s s := fun _ _ => rfl

theorem SameBut.trans (temp : List Str) (one two three : Site Bytes) (first : SameBut temp one two)
    (second : SameBut temp two three) : SameBut temp one three :=
  fun path apart => (second path apart).trans (first path apart)

theorem sameBut_removeTemp (temp : List Str) :
    Within (SameBut temp) (removeTemp around temp) := by
  refine Within.bind (SameBut.trans temp) (Within.require (sameBut temp) _ _) fun _ s => ?_
  simp only [onTree, Along]
  cases removed : unlinkIfThere temp s.tree with
  | none => exact ⟨by simp [Eff.raise], sameBut temp s⟩
  | some rest =>
      have same : SameBut temp s { s with tree := rest } := by
        intro path apart
        unfold unlinkIfThere at removed
        split at removed
        · cases removed
          rfl
        · exact (congrFun (Tree.unlink_node removed) path).trans (Function.update_of_ne apart _ _)
      exact ⟨by simpa [Eff.emit] using same, same⟩

/-- A replacement that fails has touched the temporary file at most. -/
theorem replaceTarget_keeps {prepared : Prepared} {ready : Site Bytes} {reason : Failure}
    (raised : Raises (replaceTarget sha plain around simulate prepared) ready reason after) :
    SameBut prepared.temp ready after := by
  have chain {α γ : Type} {first : Op Bytes α} {next : α → Op Bytes γ}
      (head : Within (SameBut prepared.temp) first)
      (tail : ∀ value, FailsWithin (SameBut prepared.temp) (next value)) :
      FailsWithin (SameBut prepared.temp) (first >>= next) :=
    FailsWithin.bind (SameBut.trans prepared.temp) head tail
  have refuses (message : Str) : FailsWithin (SameBut prepared.temp) (do
      removeTemp around prepared.temp
      Eff.raise (.applyPatchError message) : Op Bytes Unit) :=
    chain (sameBut_removeTemp _) fun _ => (Within.raise (sameBut _) _).failsWithin
  revert raised
  refine chain (Within.require (sameBut _) _ _) (fun _ => ?_) ready reason after
  refine chain ?_ fun nowBytes => ?_
  · exact Within.bind (SameBut.trans _) (Within.read (sameBut _)) fun _ =>
      Within.fromOption (sameBut _) _ _
  · split
    · exact refuses _
    · split
      · exact refuses _
      · refine chain (Within.require (sameBut _) _ _) fun _ s reason after unmoved => ?_
        rw [(raises_onTree.mp unmoved).2.2]
        exact sameBut _ _

theorem second_look_refuses {located : Located} {prepared : Prepared} {found ready : Site Bytes}
    (find : Returns (findTarget plain around caller patch) s located found)
    (prepare : Returns (prepareReplacement sha plain around patch located) found prepared ready)
    (differs : Differs sha ready.tree located.target patch.expectedSha256) :
    RefusesAndKeeps (apply sha plain around caller patch simulate) s ready.tree located.target := by
  obtain ⟨text, _, read_text, _, _, same_located, temp⟩ := returns_prepareReplacement.mp prepare
  obtain ⟨_, _, bytes, _, seen, _, expected, _⟩ := returns_patchedText.mp read_text
  have below : located.target ≠ [] := by
    intro root
    have node := Volume.read_eq_some.mp seen
    rw [root, found.tree.root] at node
    cases node
  have apart : located.target ≠ prepared.temp := by
    rw [temp]
    exact (tempPath_ne below _).symm
  rcases returns_or_raises (replaceTarget sha plain around simulate prepared) ready with
    ⟨_, returned⟩ | ⟨reason, refused⟩
  · obtain ⟨_, ⟨now, stands, same⟩, _⟩ := returns_replaceTarget.mp returned
    refine absurd ?_ differs
    rw [same_located] at stands
    rw [stands, Option.map_some, same, expected]
  · refine ⟨reason, _, ?_, replaceTarget_keeps refused located.target apart⟩
    refine raises_bind.mpr (Or.inl (raises_bind.mpr (Or.inr ⟨located, found, find, ?_⟩)))
    refine raises_bind.mpr (Or.inr ⟨prepared, ready, prepare, ?_⟩)
    exact raises_bind.mpr (Or.inl refused)

/-- A successful patch is exact, exactly when others leave the target alone until it is copied and
the temporary file as it was written; and what they put at the target before either look stays. -/
theorem patch_exact_iff
    (fresh : (WriteCall.applyPatch patch simulate).Fresh plain around s.tree) :
    (∀ result after, Returns (apply sha plain around caller patch simulate) s result after →
      ∃ target, (WriteCall.applyPatch patch simulate).target plain s.tree = some target ∧
        (PatchedExactly sha around s patch target after ↔ Undisturbed around s patch target)) ∧
    (∀ located found, Returns (findTarget plain around caller patch) s located found →
      Differs sha found.tree located.target patch.expectedSha256 →
        RefusesAndKeeps (apply sha plain around caller patch simulate) s found.tree
          located.target) ∧
    ∀ located found prepared ready,
      Returns (findTarget plain around caller patch) s located found →
      Returns (prepareReplacement sha plain around patch located) found prepared ready →
      Differs sha ready.tree located.target patch.expectedSha256 →
        RefusesAndKeeps (apply sha plain around caller patch simulate) s ready.tree
          located.target := by
  refine ⟨fun result after ran => ?_, fun located found find => first_look_refuses find,
    fun located found prepared ready find prepare => second_look_refuses find prepare⟩
  obtain ⟨target, old, bytes, copy, content, at_target, run⟩ := apply_runs ran
  refine ⟨target, at_target, ?_⟩
  rw [run.exact_iff (fresh target at_target), run.undisturbed_iff]

/-! ### A copy of foreign bytes -/

def oneFile : Site Bytes := openSite (Tree.ofFiles [(["a".toList], [97])])

def aToC : StructuredPatch where
  relativePath := "a".toList
  expectedSha256 := ['a']
  replacements := [([.scalar 'a'], [.scalar 'c'])]

/-- A digest that tells all bytes apart. -/
def spell (bytes : Bytes) : Digest := bytes.map fun byte => Char.ofNat byte.toNat

/-- Someone puts other bytes there before the copy is made, and the old ones back after it. -/
def swapping : Around Bytes where
  edit
    | .beforeBackup, tree => (tree.write ["a".toList] [98]).getD tree
    | .beforeText, tree => (tree.write ["a".toList] [97]).getD tree
    | _, tree => tree

def patchRun (around : Around Bytes) : Ran Unit (Site Bytes) Failure ApplyPatchResult :=
  apply spell plain around (callerFor ["a".toList] []) aToC false oneFile

theorem patchRun_returns (around : Around Bytes)
    (succeeds : (patchRun around).result.toBool = true) :
    ∃ result, Returns (apply spell plain around (callerFor ["a".toList] []) aToC false) oneFile
      result (patchRun around).state := by
  cases outcome : (patchRun around).result with
  | error reason =>
      rw [outcome] at succeeds
      cases succeeds
  | ok result => exact ⟨result, outcome, rfl⟩

/-- The patch succeeds, and what it keeps of the old file are the foreign bytes. -/
theorem foreign_bytes_copied :
    ¬∀ (sha : Bytes → Digest) (around : Around Bytes) (caller : Caller) (s after : Site Bytes)
      (patch : StructuredPatch) (simulate : Bool) (result : ApplyPatchResult) (target : List Str),
      (WriteCall.applyPatch patch simulate).Fresh plain around s.tree →
      Returns (apply sha plain around caller patch simulate) s result after →
      (WriteCall.applyPatch patch simulate).target plain s.tree = some target →
      PatchedExactly sha around s patch target after := by
  intro claimed
  obtain ⟨result, ran⟩ := patchRun_returns swapping rfl
  have at_target : (WriteCall.applyPatch aToC false).target plain oneFile.tree =
      some ["a".toList] := rfl
  have fresh : (WriteCall.applyPatch aToC false).Fresh plain swapping oneFile.tree := by
    intro target same
    rw [at_target, Option.some.injEq] at same
    subst same
    rfl
  have seen : plain.read (swapping.edit .beforeRead oneFile.tree) ["a".toList] = some [97] := rfl
  have copies : (patchRun swapping).state.db.backupEntries.map
      (fun entry => (patchRun swapping).state.copyAt entry.backupArtifactRef) = [some [98]] := rfl
  obtain ⟨old, _, _, _, seen', _, _, _, _, _, _, _, entry, _, entries, _, _, _, copied⟩ :=
    claimed spell swapping _ oneFile _ aToC false result ["a".toList] fresh ran at_target
  rw [seen, Option.some.injEq] at seen'
  subst seen'
  rw [entries, List.map_append, List.map_singleton, copied] at copies
  exact absurd copies (by decide)

/-- With nobody else around, the same patch is exact. -/
theorem lone_patch_exact :
    PatchedExactly spell {} oneFile aToC ["a".toList] (patchRun {}).state := by
  obtain ⟨result, ran⟩ := patchRun_returns {} rfl
  have at_target : (WriteCall.applyPatch aToC false).target plain oneFile.tree =
      some ["a".toList] := rfl
  have fresh : (WriteCall.applyPatch aToC false).Fresh plain {} oneFile.tree := by
    intro target same
    rw [at_target, Option.some.injEq] at same
    subst same
    rfl
  obtain ⟨target, same, exact_iff⟩ := (patch_exact_iff fresh).1 result _ ran
  rw [at_target, Option.some.injEq] at same
  subst same
  have sees : plain.read oneFile.tree ["a".toList] = some [97] := rfl
  have makes : patchedBytes [97] aToC.replacements = some [99] := rfl
  refine exact_iff.mpr fun old bytes seen made => ?_
  rw [show plain.read _ _ = some [97] from sees, Option.some.injEq] at seen
  subst seen
  rw [makes, Option.some.injEq] at made
  subst made
  exact ⟨rfl, rfl⟩

end SeMentor.OnDisk
