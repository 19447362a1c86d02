import SeMentor.Tools.OnDisk

set_option autoImplicit false

/- What each part of a write tool answers and leaves behind. -/
namespace SeMentor.OnDisk

open Paths Models FileTree Effect Host Policy Tools

/-! ### Texts and their bytes -/

theorem decodeUtf8_encodeUtf8 (text : Str) : decodeUtf8 (encodeUtf8 text) = some text := by
  have bytes : (⟨(encodeUtf8 text).toArray⟩ : ByteArray) = (String.ofList text).toByteArray := by
    rw [encodeUtf8, Array.toArray_toList]
  have back : String.fromUTF8? (String.ofList text).toByteArray = some (String.ofList text) := by
    rw [String.fromUTF8?, dif_pos (String.ofList text).isValidUTF8]
    rfl
  rw [decodeUtf8, bytes, back, Option.map_some, String.toList_ofList]

theorem mapM_scalar {text : Text} {letters : Str} :
    text.mapM CodePoint.scalar? = some letters ↔ text = letters.map .scalar := by
  induction text generalizing letters with
  | nil =>
      rw [List.mapM_nil]
      cases letters <;> simp
  | cons first rest ih =>
      rw [List.mapM_cons]
      cases first with
      | surrogate index =>
          cases letters <;> simp [CodePoint.scalar?]
      | scalar letter =>
          simp only [CodePoint.scalar?, Option.pure_def, Option.bind_eq_bind, Option.bind_some,
            Option.bind_eq_some_iff, ih, Option.some.injEq]
          constructor
          · rintro ⟨tail, rfl, rfl⟩
            rfl
          · intro shape
            obtain ⟨head, tail, rfl, same, later⟩ := List.map_eq_cons_iff.mp shape.symm
            cases same
            exact ⟨tail, later.symm, rfl⟩

/-- Bytes that were encoded decode to the text again. -/
theorem decodeText_encodeText {text : Text} {bytes : Bytes}
    (encoded : encodeText text = some bytes) : decodeText bytes = some text := by
  obtain ⟨letters, scalars, rfl⟩ := Option.map_eq_some_iff.mp encoded
  rw [decodeText, decodeUtf8_encodeUtf8, Option.map_some, mapM_scalar.mp scalars]

variable {β : Type} {volume : Volume β}

/-! ### Trees -/

theorem Volume.read_eq_some {tree : Tree Str β} {path : List Str} {bytes : Bytes} :
    volume.read tree path = some bytes ↔
      tree.node path = some (.file (volume.regular bytes)) := by
  rw [Volume.read, Option.bind_eq_some_iff]
  constructor
  · rintro ⟨leaf, stands, holds⟩
    rw [← (volume.content_eq_some leaf bytes).mp holds]
    exact Tree.fileAt_eq_some.mp stands
  · intro stands
    exact ⟨_, Tree.fileAt_eq_some.mpr stands, (volume.content_eq_some _ _).mpr rfl⟩

theorem Volume.regular_injective {one two : Bytes}
    (same : volume.regular one = volume.regular two) : one = two := by
  have first := (volume.content_eq_some (volume.regular one) one).mpr rfl
  have second := (volume.content_eq_some (volume.regular one) two).mpr same
  rw [first] at second
  exact Option.some.inj second

theorem tempPath_ne {target : List Str} (below : target ≠ []) (hex : Str) :
    tempPath target hex ≠ target := by
  intro same
  obtain ⟨above, name, rfl⟩ : ∃ above name, target = above ++ [name] :=
    ⟨_, _, (List.dropLast_append_getLast below).symm⟩
  rw [tempPath, List.dropLast_concat, List.append_cancel_left_eq, List.getLast?_concat] at same
  have lengths := congrArg List.length (List.cons.inj same).1
  simp at lengths
  omega

/-- A free name next to a file can be written. -/
theorem tempPath_fits {tree : Tree Str β} {target : List Str} {hex : Str} {leaf : β}
    (stands : tree.node target = some (.file leaf))
    (free : tree.node (tempPath target hex) = none) :
    tree.Fits (tempPath target hex) := by
  have below : target ≠ [] := by
    rintro rfl
    rw [tree.root] at stands
    cases stands
  refine ⟨by simp [tempPath], ?_, by simp [free]⟩
  rw [tempPath, List.dropLast_concat]
  refine tree.dir_of_prefix (List.dropLast_prefix target) ?_ (by simp [stands])
  intro same
  exact Tree.not_prefix_dropLast below (by rw [same])

theorem write_of_fits {tree : Tree Str β} {path : List Str} (fits : tree.Fits path) (leaf : β) :
    ∃ written, tree.write path leaf = some written :=
  Option.isSome_iff_exists.mp (Tree.write_fits.mpr fits)

/-- What was written can be written again. -/
theorem fits_of_write {tree written : Tree Str β} {path : List Str} {leaf : β}
    (wrote : tree.write path leaf = some written) : written.Fits path := by
  have fits := Tree.write_fits.mp (Option.isSome_iff_exists.mpr ⟨written, wrote⟩)
  have node := Tree.write_node wrote
  have apart : path.dropLast ≠ path := fun same =>
    Tree.not_prefix_dropLast fits.1 (by rw [same])
  refine ⟨fits.1, ?_, ?_⟩
  · rw [node, Function.update_of_ne apart]
    exact fits.2.1
  · rw [node, Function.update_self]
    simp

/-! ### Parts of the tools -/

variable {sha : Bytes → Digest} {around : Around β} {caller : Caller} {s after : Site β}

theorem returns_locate {failure : Str → Failure} {denied : String} {path : Str}
    {located : Located} :
    Returns (locate volume around failure denied caller path) s located after ↔
      s = after ∧ preparedTransaction failure s.db caller.transactionId caller.taskId =
          .ok (located.transaction, located.manifest) ∧
        normalizeRelativePath failure path = .ok located.relativePath ∧
        caller.grant.allowsWrite located.relativePath caller.revision = true ∧
        around.fails .resolve = false ∧
        volume.resolve s.tree located.relativePath = some located.target ∧
        volume.root <+: located.target := by
  simp only [locate, returns_bind, returns_read, returns_lift, returns_require, returns_attempt,
    returns_fromOption, returns_pure]
  constructor
  · rintro ⟨_, _, ⟨rfl, rfl⟩, ⟨transaction, manifest⟩, _, ⟨prepared, rfl⟩, relativePath, _,
      ⟨normal, rfl⟩, _, _, ⟨allowed, rfl⟩, _, _, ⟨resolves, rfl⟩, target, _, ⟨resolved, rfl⟩, _, _,
      ⟨inside, rfl⟩, rfl, rfl⟩
    exact ⟨rfl, prepared, normal, allowed, resolves, resolved, inside⟩
  · rintro ⟨rfl, prepared, normal, allowed, resolves, resolved, inside⟩
    exact ⟨_, _, ⟨rfl, rfl⟩, _, _, ⟨prepared, rfl⟩, _, _, ⟨normal, rfl⟩, (), _,
      ⟨allowed, rfl⟩, (), _,
      ⟨resolves, rfl⟩, _, _, ⟨resolved, rfl⟩, (), _, ⟨inside, rfl⟩, rfl, rfl⟩

theorem returns_findTarget {patch : StructuredPatch} {located : Located} :
    Returns (findTarget volume around caller patch) s located after ↔
      Returns (locate volume around .applyPatchError "policy scope denied" caller
          patch.relativePath) s located s ∧
        around.fails .probe = false ∧ (volume.read s.tree located.target).isSome ∧
        { s with tree := around.edit .beforeRead s.tree } = after := by
  simp only [findTarget, returns_bind, returns_read, returns_require, returns_attempt,
    returns_outside, returns_pure]
  constructor
  · rintro
      ⟨_, _, found, _, _, ⟨rfl, rfl⟩, _, _, ⟨probes, rfl⟩, _, _, ⟨is_file, rfl⟩, _, _, rfl, rfl,
      rfl⟩
    obtain ⟨rfl, _⟩ := returns_locate.mp found
    exact ⟨found, probes, is_file, rfl⟩
  · rintro ⟨found, probes, is_file, rfl⟩
    exact ⟨_, _, found, _, _, ⟨rfl, rfl⟩, (), _, ⟨probes, rfl⟩, (), _, ⟨is_file, rfl⟩, (), _,
      rfl, rfl,
      rfl⟩

theorem returns_patchedText {patch : StructuredPatch} {located : Located} {hash : Digest}
    {text : Text} :
    Returns (patchedText sha volume around patch located) s (hash, text) after ↔
      s = after ∧ around.fails .readTarget = false ∧ ∃ bytes before,
        volume.read s.tree located.target = some bytes ∧ sha bytes = hash ∧
        hash = patch.expectedSha256 ∧ decodeText bytes = some before ∧
        applyReplacements before patch.replacements = .ok text := by
  simp only [patchedText, returns_bind, returns_attempt, returns_volumeRead, returns_require,
    returns_fromOption, returns_lift, returns_pure]
  constructor
  · rintro ⟨_, _, ⟨reads, rfl⟩, bytes, _, ⟨found, rfl⟩, _, _, ⟨expected, rfl⟩, before, _,
      ⟨decoded, rfl⟩, _, _, ⟨replaced, rfl⟩, same, rfl⟩
    cases same
    exact ⟨rfl, reads, bytes, before, found, rfl, expected, decoded, replaced⟩
  · rintro ⟨rfl, reads, bytes, before, found, rfl, expected, decoded, replaced⟩
    exact ⟨(), _, ⟨reads, rfl⟩, _, _, ⟨found, rfl⟩, (), _, ⟨expected, rfl⟩, _, _,
      ⟨decoded, rfl⟩, _, _,
      ⟨replaced, rfl⟩, rfl, rfl⟩

/-- The bytes a backup reference stands for. -/
def Site.copyAt (s : Site β) (ref : ArtifactRef) : Option Bytes :=
  match (s.artifacts ref.taskId).fileAt ref.path with
  | some (.content bytes) => some bytes
  | _ => none

/-- A copy of the target is made, and nothing else of the site changes but the backups. -/
theorem backupFile_returns {folder : String} {located : Located} {ref : ArtifactRef}
    (ran : Returns (backupFile volume around folder located) s ref after) :
    ∃ bytes, volume.read s.tree located.target = some bytes ∧ after.copyAt ref = some bytes ∧
      after.tree = s.tree ∧ after.db = s.db ∧ after.clock = s.clock := by
  simp only [backupFile, returns_bind, returns_attempt, returns_onBackups, returns_volumeRead,
    returns_pure] at ran
  obtain ⟨_, _, ⟨_, rfl⟩, _, _, ⟨made, _, rfl⟩, _, _, ⟨_, rfl⟩, bytes, _, ⟨found, rfl⟩, _, _,
    ⟨_, rfl⟩,
    _, _, ⟨tree, written, rfl⟩, rfl, rfl⟩ := ran
  refine ⟨bytes, found, ?_, rfl, rfl, rfl⟩
  simp [Site.copyAt, Tree.write_fileAt written]

theorem returns_copyTarget {located : Located} {ref : ArtifactRef} :
    Returns (copyTarget volume around located) s ref after ↔ ∃ copied,
      Returns (backupFile volume around "files" located)
        { s with tree := around.edit .beforeBackup s.tree } ref copied ∧
      { copied with tree := around.edit .beforeText copied.tree } = after := by
  simp only [copyTarget, returns_bind, returns_outside, returns_pure]
  constructor
  · rintro ⟨_, _, rfl, _, copied, done, _, _, rfl, rfl, rfl⟩
    exact ⟨copied, done, rfl⟩
  · rintro ⟨copied, done, rfl⟩
    exact ⟨(), _, rfl, _, _, done, (), _, rfl, rfl, rfl⟩

theorem returns_writeText {path : List Str} {text : Text} {answer : Unit} :
    Returns (volume.writeText around path text) s answer after ↔
      around.fails .openText = false ∧ around.fails .writeText = false ∧
        ∃ opened bytes written, s.tree.write path (volume.regular []) = some opened ∧
          encodeText text = some bytes ∧ opened.write path (volume.regular bytes) = some written ∧
          { s with tree := written } = after := by
  simp only [Volume.writeText, returns_bind, returns_attempt, returns_onTree, returns_fromOption]
  constructor
  · rintro ⟨_, _, ⟨opens, rfl⟩, _, _, ⟨opened, wrote, rfl⟩, bytes, _, ⟨encoded, rfl⟩, _, _,
      ⟨writes, rfl⟩, written, filled, rfl⟩
    exact ⟨opens, writes, opened, bytes, written, wrote, encoded, filled, rfl⟩
  · rintro ⟨opens, writes, opened, bytes, written, wrote, encoded, filled, rfl⟩
    exact ⟨(), _, ⟨opens, rfl⟩, (), _, ⟨opened, wrote, rfl⟩, _, _, ⟨encoded, rfl⟩, (), _,
      ⟨writes, rfl⟩, written, filled, rfl⟩

theorem returns_writeTemp {temp : List Str} {text : Text} {answer : Unit} :
    Returns (writeTemp volume around temp text) s answer after ↔ ∃ written,
      Returns (volume.writeText around temp text) s () written ∧ around.fails .readTemp = false ∧
        (∃ bytes, volume.read (around.edit .beforeTempRead written.tree) temp = some bytes ∧
          (decodeText bytes).isSome) ∧
        around.hook = none ∧
        { written with tree := around.edit .beforeCheck (around.edit .beforeTempRead written.tree) }
          = after := by
  simp only [writeTemp, returns_bind, returns_outside, returns_attempt, returns_volumeRead,
    returns_fromOption, returns_lift]
  constructor
  · rintro ⟨_, written, wrote, _, _, rfl, _, _, ⟨reads, rfl⟩, bytes, _, ⟨found, rfl⟩, text', _,
      ⟨decoded, rfl⟩, _, _, ⟨hooked, rfl⟩, rfl⟩
    refine ⟨written, wrote, reads, ⟨bytes, found, by rw [decoded]; rfl⟩, ?_, rfl⟩
    cases hook : around.hook with
    | none => rfl
    | some failure =>
        rw [hook] at hooked
        cases hooked
  · rintro ⟨written, wrote, reads, ⟨bytes, found, decodes⟩, hook, rfl⟩
    obtain ⟨text', decoded⟩ := Option.isSome_iff_exists.mp decodes
    exact ⟨(), written, wrote, (), _, rfl, (), _, ⟨reads, rfl⟩, bytes, _, ⟨found, rfl⟩, text', _,
      ⟨decoded, rfl⟩, (), _, ⟨by rw [hook], rfl⟩, rfl⟩

theorem returns_prepareReplacement {patch : StructuredPatch} {located : Located}
    {prepared : Prepared} :
    Returns (prepareReplacement sha volume around patch located) s prepared after ↔
      ∃ text copied, Returns (patchedText sha volume around patch located) s
          (prepared.beforeHash, text) s ∧
        Returns (copyTarget volume around located) s prepared.backup copied ∧
        Returns (writeTemp volume around prepared.temp text) copied () after ∧
        prepared.located = located ∧ prepared.temp = tempPath located.target around.hex := by
  simp only [prepareReplacement, returns_bind, returns_pure]
  constructor
  · rintro ⟨⟨hash, text⟩, _, read_text, backup, copied, copy, _, _, wrote, rfl, rfl⟩
    obtain ⟨rfl, _⟩ := returns_patchedText.mp read_text
    exact ⟨text, copied, read_text, copy, wrote, rfl, rfl⟩
  · rintro ⟨text, copied, read_text, copy, wrote, rfl, temp⟩
    rw [temp] at wrote
    refine ⟨_, _, read_text, _, copied, copy, (), _, wrote, ?_, rfl⟩
    rw [← temp]

theorem returns_replaceTarget {simulate : Bool} {prepared : Prepared} {answer : Unit} :
    Returns (replaceTarget sha volume around simulate prepared) s answer after ↔
      around.fails .readAgain = false ∧
        (∃ bytes, volume.read s.tree prepared.located.target = some bytes ∧
          sha bytes = prepared.beforeHash) ∧
        simulate = false ∧ around.fails .replace = false ∧ ∃ moved,
          s.tree.move prepared.temp prepared.located.target = some moved ∧
          { s with tree := moved } = after := by
  simp only [replaceTarget, returns_bind, returns_attempt, returns_volumeRead]
  constructor
  · rintro ⟨_, _, ⟨reads, rfl⟩, bytes, _, ⟨found, rfl⟩, ran⟩
    split at ran
    · simp at ran
    · rename_i same
      split at ran
      · simp at ran
      · rename_i real
        simp only [returns_bind, returns_attempt, returns_onTree] at ran
        obtain ⟨_, _, ⟨replaces, rfl⟩, moved, done, rfl⟩ := ran
        exact ⟨reads, ⟨bytes, found, not_not.mp same⟩, by simpa using real, replaces, moved, done,
          rfl⟩
  · rintro ⟨reads, ⟨bytes, found, same⟩, rfl, replaces, moved, done, rfl⟩
    refine ⟨(), _, ⟨reads, rfl⟩, bytes, _, ⟨found, rfl⟩, ?_⟩
    rw [if_neg (not_not.mpr same), if_neg (by simp)]
    simp only [returns_bind, returns_attempt, returns_onTree]
    exact ⟨(), _, ⟨replaces, rfl⟩, moved, done, rfl⟩

theorem returns_patchFile {patch : StructuredPatch} {simulate : Bool} {prepared : Prepared} :
    Returns (patchFile sha volume around caller patch simulate) s prepared after ↔
      ∃ located found ready, Returns (findTarget volume around caller patch) s located found ∧
        Returns (prepareReplacement sha volume around patch located) found prepared ready ∧
        Returns (replaceTarget sha volume around simulate prepared) ready () after := by
  simp only [patchFile, returns_bind, returns_pure]
  constructor
  · rintro ⟨located, found, find, _, ready, prepare, _, _, replace, rfl, rfl⟩
    exact ⟨located, found, ready, find, prepare, replace⟩
  · rintro ⟨located, found, ready, find, prepare, replace⟩
    exact ⟨located, found, find, _, ready, prepare, (), _, replace, rfl, rfl⟩

theorem returns_findPlace {path : Str} {located : Located} :
    Returns (findPlace volume around caller path) s located after ↔
      Returns (locate volume around .createFileError "policy scope denied" caller path) s located
          s ∧
        around.fails .probe = false ∧ s.tree.isDir located.target.dropLast = true ∧
        volume.root <+: located.target.dropLast ∧ s.tree.node located.target = none ∧
        { s with tree := around.edit .beforeText s.tree } = after := by
  simp only [findPlace, returns_bind, returns_read, returns_require, returns_attempt,
    returns_outside, returns_pure, Option.isNone_iff_eq_none]
  constructor
  · rintro ⟨_, _, found, _, _, ⟨rfl, rfl⟩, _, _, ⟨probes, rfl⟩, _, _, ⟨parent, rfl⟩, _, _,
      ⟨missing, rfl⟩, _, _, rfl, rfl, rfl⟩
    obtain ⟨rfl, _⟩ := returns_locate.mp found
    exact ⟨found, probes, parent.1, parent.2, missing, rfl⟩
  · rintro ⟨found, probes, is_dir, inside, missing, rfl⟩
    exact ⟨_, _, found, _, _, ⟨rfl, rfl⟩, (), _, ⟨probes, rfl⟩, (), _,
      ⟨⟨is_dir, inside⟩, rfl⟩, (), _,
      ⟨missing, rfl⟩, (), _, rfl, rfl, rfl⟩

theorem returns_newFile {path : Str} {content : Text} {located : Located} :
    Returns (newFile volume around caller path content) s located after ↔ ∃ found,
      Returns (findPlace volume around caller path) s located found ∧
        found.tree.node located.target = none ∧
        Returns (volume.writeText around located.target content) found () after := by
  simp only [newFile, returns_bind, returns_read, returns_require, returns_pure,
    Option.isNone_iff_eq_none]
  constructor
  · rintro ⟨_, found, find, _, _, ⟨rfl, rfl⟩, _, _, ⟨missing, rfl⟩, _, _, wrote, rfl, rfl⟩
    exact ⟨_, find, missing, wrote⟩
  · rintro ⟨found, find, missing, wrote⟩
    exact ⟨_, found, find, _, _, ⟨rfl, rfl⟩, (), _, ⟨missing, rfl⟩, (), _, wrote, rfl, rfl⟩

/-- A deletion takes its target away, and nothing else that others have left. -/
theorem removeFile_returns {path : Str} {removed : Prepared}
    (ran : Returns (removeFile sha volume around caller path) s removed after) :
    ∃ last, Returns (locate volume around .deleteFileError "matching grant required" caller path) s
        removed.located s ∧
      last = around.edit .beforeUnlink
        (around.edit .beforeBackup (around.edit .beforeRead s.tree)) ∧
      last.unlink removed.located.target = some after.tree := by
  simp only [removeFile, returns_bind, returns_read, returns_require, returns_attempt,
    returns_volumeRead, returns_outside, returns_onTree, returns_pure] at ran
  obtain ⟨located, _, found, _, _, ⟨rfl, rfl⟩, _, _, ⟨_, rfl⟩, _, _, ⟨_, rfl⟩, _, _, ⟨_, rfl⟩,
    ran⟩ := ran
  obtain ⟨_, _, ⟨_, rfl⟩, _, _, rfl, _, _, ⟨_, rfl⟩, bytes, _, ⟨_, rfl⟩, _, _, rfl, ran⟩ := ran
  obtain ⟨backup, copied, copy, ran⟩ := ran
  obtain ⟨_, _, edited, _, _, ⟨_, same_site⟩, ran⟩ := ran
  obtain ⟨_, _, ⟨tree, unlinked, stored⟩, given, ended⟩ := ran
  subst edited
  subst same_site
  subst stored
  subst given
  subst ended
  obtain ⟨rfl, _⟩ := returns_locate.mp found
  obtain ⟨_, _, _, same, _⟩ := backupFile_returns copy
  rw [same] at unlinked
  exact ⟨_, found, rfl, unlinked⟩

/-! ### Parts that leave the project alone -/

def SameTree (before after : Site β) : Prop := after.tree = before.tree

theorem sameTree (s : Site β) : SameTree s s := rfl

theorem SameTree.trans (one two three : Site β) (first : SameTree one two)
    (second : SameTree two three) : SameTree one three := Eq.trans second first

theorem Calm.then {α γ : Type} {first : Op β α} {next : α → Op β γ}
    (head : Within SameTree first) (tail : ∀ value, Within SameTree (next value)) :
    Within SameTree (first >>= next) := Within.bind SameTree.trans head tail

theorem calm_attempt (point : Point) : Within SameTree (around.attempt point) :=
  Within.require sameTree _ _

theorem calm_readBytes (path : List Str) : Within SameTree (volume.readBytes path) :=
  Calm.then (Within.read sameTree) fun _ => Within.fromOption sameTree _ _

theorem calm_onBackups {taskId : Nat}
    (operation : Tree Str Artifact → Option (Tree Str Artifact)) :
    Within SameTree (onBackups taskId operation : Op β Unit) := by
  intro s
  simp only [onBackups, Along]
  cases operation (s.artifacts taskId) with
  | none => exact ⟨by simp [Eff.raise], rfl⟩
  | some tree => exact ⟨by simp [Eff.emit, SameTree], rfl⟩

theorem calm_outside (alone : around.Alone) (gap : Gap) : Within SameTree (around.outside gap) :=
  Within.emit fun s => alone gap s.tree

theorem calm_locate (failure : Str → Failure) (denied : String) (path : Str) :
    Within SameTree (locate volume around failure denied caller path) := by
  refine Calm.then (Within.read sameTree) fun s => ?_
  refine Calm.then (Within.lift sameTree _) fun ⟨transaction, manifest⟩ => ?_
  refine Calm.then (Within.lift sameTree _) fun relativePath => ?_
  refine Calm.then (Within.require sameTree _ _) fun _ => ?_
  refine Calm.then (calm_attempt _) fun _ => ?_
  refine Calm.then (Within.fromOption sameTree _ _) fun target => ?_
  exact Calm.then (Within.require sameTree _ _) fun _ => Within.pure sameTree _

theorem calm_backupFile (folder : String) (located : Located) :
    Within SameTree (backupFile volume around folder located) := by
  refine Calm.then (calm_attempt _) fun _ => Calm.then (calm_onBackups _) fun _ => ?_
  refine Calm.then (calm_attempt _) fun _ => Calm.then (calm_readBytes _) fun bytes => ?_
  refine Calm.then (calm_attempt _) fun _ => Calm.then (calm_onBackups _) fun _ => ?_
  exact Within.pure sameTree _

theorem calm_findTarget (alone : around.Alone) (patch : StructuredPatch) :
    Within SameTree (findTarget volume around caller patch) := by
  refine Calm.then (calm_locate _ _ _) fun located => ?_
  refine Calm.then (Within.read sameTree) fun s => Calm.then (calm_attempt _) fun _ => ?_
  refine Calm.then (Within.require sameTree _ _) fun _ => ?_
  exact Calm.then (calm_outside alone _) fun _ => Within.pure sameTree _

theorem calm_patchedText (patch : StructuredPatch) (located : Located) :
    Within SameTree (patchedText sha volume around patch located) := by
  refine Calm.then (calm_attempt _) fun _ => Calm.then (calm_readBytes _) fun bytes => ?_
  refine Calm.then (Within.require sameTree _ _) fun _ => ?_
  refine Calm.then (Within.fromOption sameTree _ _) fun before => ?_
  exact Calm.then (Within.lift sameTree _) fun text => Within.pure sameTree _

theorem calm_copyTarget (alone : around.Alone) (located : Located) :
    Within SameTree (copyTarget volume around located) := by
  refine Calm.then (calm_outside alone _) fun _ => ?_
  refine Calm.then (calm_backupFile _ _) fun backup => ?_
  exact Calm.then (calm_outside alone _) fun _ => Within.pure sameTree _

theorem calm_findPlace (alone : around.Alone) (path : Str) :
    Within SameTree (findPlace volume around caller path) := by
  refine Calm.then (calm_locate _ _ _) fun located => ?_
  refine Calm.then (Within.read sameTree) fun s => Calm.then (calm_attempt _) fun _ => ?_
  refine Calm.then (Within.require sameTree _ _) fun _ => ?_
  refine Calm.then (Within.require sameTree _ _) fun _ => ?_
  exact Calm.then (calm_outside alone _) fun _ => Within.pure sameTree _

end SeMentor.OnDisk
