import SeMentor.Tools.WriteCalls

set_option autoImplicit false

/- What a write tool that fails leaves in the project: nothing while it has not opened a file, and
what it has opened from then on, except where it takes that away again. -/
namespace SeMentor.OnDisk

open Paths Models FileTree Effect Host Policy Tools

variable {β : Type} {sha : Bytes → Digest} {volume : Volume β} {around : Around β}
  {caller : Caller} {s after : Site β} {reason : Failure}

/-- A deletion fails before it has taken anything away. -/
theorem removeFile_fails (alone : around.Alone) {path : Str}
    (raised : Raises (removeFile sha volume around caller path) s reason after) :
    after.tree = s.tree := by
  have chain {α γ : Type} {first : Op β α} {next : α → Op β γ} (head : Within SameTree first)
      (tail : ∀ value, FailsWithin SameTree (next value)) : FailsWithin SameTree (first >>= next) :=
    FailsWithin.bind SameTree.trans head tail
  revert raised
  refine chain (calm_locate _ _ _) (fun located => ?_) s reason after
  refine chain (Within.read sameTree) fun s => chain (Within.require sameTree _ _) fun _ => ?_
  refine chain (calm_attempt _) fun _ => chain (Within.require sameTree _ _) fun _ => ?_
  refine chain (Within.require sameTree _ _) fun _ => chain (calm_outside alone _) fun _ => ?_
  refine chain (calm_attempt _) fun _ => chain (calm_readBytes _) fun bytes => ?_
  refine chain (calm_outside alone _) fun _ => chain (calm_backupFile _ _) fun backup => ?_
  refine chain (calm_outside alone _) fun _ => chain (calm_attempt _) fun _ => ?_
  intro s reason after raised
  rcases raises_bind.mp raised with unlink | ⟨_, _, _, impossible⟩
  · rw [(raises_onTree.mp unlink).2.2]
    exact sameTree _
  · exact (raises_pure.mp impossible).elim

/-! ### Parts that write -/

/-- A write that fails has either not opened its file, or leaves it empty. -/
theorem writeText_fails {path : List Str} {text : Text} (fits : s.tree.Fits path)
    (raised : Raises (volume.writeText around path text) s reason after) :
    around.fails .openText = true ∧ after.tree = s.tree ∨
      around.fails .openText = false ∧
        ¬((encodeText text).isSome ∧ around.fails .writeText = false) ∧
        after.tree.node = Function.update s.tree.node path (some (.file (volume.regular []))) := by
  simp only [Volume.writeText, raises_bind, raises_attempt, raises_onTree, raises_fromOption,
    returns_attempt, returns_onTree, returns_fromOption] at raised
  rcases raised with ⟨refused, _, rfl⟩ | ⟨_, _, ⟨opens, rfl⟩, raised⟩
  · exact Or.inl ⟨refused, rfl⟩
  · refine Or.inr ⟨opens, ?_⟩
    rcases raised with ⟨unwritten, _⟩ | ⟨_, _, ⟨opened, wrote, rfl⟩, raised⟩
    · obtain ⟨written, wrote⟩ := write_of_fits fits (volume.regular [])
      rw [wrote] at unwritten
      cases unwritten
    · have node := Tree.write_node wrote
      rcases raised with ⟨unencoded, _, rfl⟩ | ⟨bytes, _, ⟨encoded, rfl⟩, raised⟩
      · exact ⟨by simp [unencoded], node⟩
      · rcases raised with ⟨refused, _, rfl⟩ | ⟨_, _, ⟨_, rfl⟩, unfilled, _⟩
        · exact ⟨by simp [refused], node⟩
        · obtain ⟨filled, fills⟩ := write_of_fits (fits_of_write wrote) (volume.regular bytes)
          rw [fills] at unfilled
          cases unfilled

/-- The temporary file stays as long as the call goes on. -/
def TempHolds (around : Around β) (text : Text) : Prop :=
  (encodeText text).isSome ∧ around.fails .writeText = false ∧ around.fails .readTemp = false ∧
    around.hook = none

theorem writeTemp_fails (alone : around.Alone) {temp : List Str} {text : Text}
    (fits : s.tree.Fits temp)
    (raised : Raises (writeTemp volume around temp text) s reason after) :
    around.fails .openText = true ∧ after.tree = s.tree ∨
      around.fails .openText = false ∧ ¬TempHolds around text ∧ after.tree.node temp ≠ none := by
  simp only [writeTemp, raises_bind, raises_outside, raises_attempt, raises_volumeRead,
    raises_fromOption, raises_lift, returns_outside, returns_attempt, returns_volumeRead,
    returns_fromOption, returns_lift, false_or] at raised
  rcases raised with unwritten | ⟨_, written, wrote, _, _, rfl, raised⟩
  · rcases writeText_fails fits unwritten with refused | ⟨opens, unheld, node⟩
    · exact Or.inl refused
    · refine Or.inr ⟨opens, fun holds => unheld ⟨holds.1, holds.2.1⟩, ?_⟩
      rw [node, Function.update_self]
      exact Option.some_ne_none _
  · obtain ⟨opens, _, opened, bytes, filled, _, encoded, fills, rfl⟩ := returns_writeText.mp wrote
    have stands : filled.node temp = some (.file (volume.regular bytes)) := by
      rw [Tree.write_node fills, Function.update_self]
    rw [alone] at raised
    refine Or.inr ⟨opens, ?_⟩
    rcases raised with ⟨refused, _, rfl⟩ | ⟨_, _, ⟨_, rfl⟩, raised⟩
    · exact ⟨fun holds => by simp [holds.2.2.1] at refused, by simp [stands]⟩
    · rcases raised with ⟨unread, _⟩ | ⟨found, _, ⟨read_back, rfl⟩, raised⟩
      · rw [Volume.read_eq_some.mpr stands] at unread
        cases unread
      · rw [Volume.read_eq_some.mpr stands, Option.some.injEq] at read_back
        subst read_back
        rcases raised with ⟨undecoded, _⟩ | ⟨_, _, ⟨_, rfl⟩, raised⟩
        · rw [decodeText_encodeText encoded] at undecoded
          cases undecoded
        · rcases raised with ⟨hooked, rfl⟩ | ⟨_, _, _, impossible⟩
          · refine ⟨fun holds => ?_, by simp [stands]⟩
            rw [holds.2.2.2] at hooked
            cases hooked
          · exact impossible.elim

theorem move_of_files {tree : Tree Str β} {source target : List Str} {leaf other : β}
    (here : tree.node source = some (.file leaf)) (there : tree.node target = some (.file other))
    (apart : source ≠ target) : ∃ moved, tree.move source target = some moved := by
  have found := Tree.fileAt_eq_some.mpr here
  obtain ⟨rest, gone⟩ := Option.isSome_iff_exists.mp
    (Tree.unlink_isSome.mpr (by rw [found]; rfl : (tree.fileAt source).isSome))
  have node := Tree.unlink_node gone
  have below : target ≠ [] := by
    rintro rfl
    rw [tree.root] at there
    cases there
  have above : tree.node target.dropLast = some .dir := by
    refine tree.dir_of_prefix (List.dropLast_prefix target) ?_ (by simp [there])
    intro same
    exact Tree.not_prefix_dropLast below (by rw [same])
  have fits : rest.Fits target := by
    have not_source : target.dropLast ≠ source := by
      intro same
      rw [same, here] at above
      cases above
    refine ⟨below, ?_, ?_⟩
    · rw [node, Function.update_of_ne not_source]
      exact above
    · rw [node, Function.update_of_ne apart.symm, there]
      simp
  obtain ⟨moved, done⟩ := write_of_fits fits leaf
  refine ⟨moved, ?_⟩
  rw [Tree.move, found]
  exact Option.bind_eq_some_iff.mpr ⟨rest, gone, done⟩

/-- Nothing goes wrong from the second look at the target on. -/
def Finishes (around : Around β) (simulate : Bool) : Prop :=
  around.fails .readAgain = false ∧
    if simulate then around.fails .removeTemp = false else around.fails .replace = false

/-- A replacement that fails leaves the temporary file, or takes it away. -/
theorem replaceTarget_fails {simulate : Bool} {prepared : Prepared} {bytes : Bytes} {leaf : β}
    (target : volume.read s.tree prepared.located.target = some bytes)
    (same : sha bytes = prepared.beforeHash)
    (temp : s.tree.node prepared.temp = some (.file leaf))
    (apart : prepared.temp ≠ prepared.located.target)
    (raised : Raises (replaceTarget sha volume around simulate prepared) s reason after) :
    ¬Finishes around simulate ∧ after.tree = s.tree ∨
      Finishes around simulate ∧
        after.tree.node = Function.update s.tree.node prepared.temp none := by
  have there := Volume.read_eq_some.mp target
  have gone : ∃ rest, unlinkIfThere prepared.temp s.tree = some rest ∧
      rest.node = Function.update s.tree.node prepared.temp none := by
    obtain ⟨rest, gone⟩ := Option.isSome_iff_exists.mp (Tree.unlink_isSome.mpr
      (by rw [Tree.fileAt_eq_some.mpr temp]; rfl : (s.tree.fileAt prepared.temp).isSome))
    refine ⟨rest, ?_, Tree.unlink_node gone⟩
    rw [unlinkIfThere, temp, if_neg (by simp)]
    exact gone
  obtain ⟨rest, removes, rest_node⟩ := gone
  simp only [replaceTarget, raises_bind, raises_attempt, raises_volumeRead, returns_attempt,
    returns_volumeRead] at raised
  rcases raised with ⟨refused, _, rfl⟩ | ⟨_, _, ⟨reads, rfl⟩, raised⟩
  · exact Or.inl ⟨fun finishes => by simp [finishes.1] at refused, rfl⟩
  · rcases raised with ⟨unread, _⟩ | ⟨found, _, ⟨read_again, rfl⟩, raised⟩
    · rw [target] at unread
      cases unread
    · rw [target, Option.some.injEq] at read_again
      subst read_again
      rw [if_neg (not_not.mpr same)] at raised
      cases simulate with
      | true =>
          rw [if_pos rfl] at raised
          simp only [removeTemp, raises_bind, raises_attempt, raises_onTree, raises_raise,
            returns_bind, returns_attempt, returns_onTree] at raised
          rcases raised with (⟨refused, _, rfl⟩ | ⟨_, _, ⟨_, rfl⟩, kept, _⟩) |
            ⟨_, _, ⟨_, _, ⟨removes_ok, rfl⟩, other, removed, rfl⟩, _, rfl⟩
          · exact Or.inl ⟨fun finishes => by simp [Finishes, refused] at finishes, rfl⟩
          · rw [removes] at kept
            cases kept
          · rw [removes, Option.some.injEq] at removed
            subst removed
            exact Or.inr ⟨⟨reads, removes_ok⟩, rest_node⟩
      | false =>
          rw [if_neg (by simp)] at raised
          simp only [raises_bind, raises_attempt, raises_onTree, returns_attempt] at raised
          rcases raised with ⟨refused, _, rfl⟩ | ⟨_, _, ⟨_, rfl⟩, unmoved, _⟩
          · exact Or.inl ⟨fun finishes => by simp [Finishes, refused] at finishes, rfl⟩
          · obtain ⟨moved, done⟩ := move_of_files temp there apart
            rw [done] at unmoved
            cases unmoved

/-! ### Whole calls -/

/-- The call passes its checks, makes its copy and opens the file it will write this text to. -/
def WriteCall.Opens (sha : Bytes → Digest) (volume : Volume β) (around : Around β)
    (caller : Caller) (s : Site β) (text : Text) : WriteCall → Prop
  | .applyPatch patch _ => around.fails .openText = false ∧
      ∃ located found digest backup copied,
        Returns (findTarget volume around caller patch) s located found ∧
        Returns (patchedText sha volume around patch located) found (digest, text) found ∧
        Returns (copyTarget volume around located) found backup copied
  | .createFile path content => around.fails .openText = false ∧ content = text ∧
      ∃ located found, Returns (findPlace volume around caller path) s located found
  | .deleteFile _ => False

/-- What has to go right once a call has opened a file, for it not to leave the file behind. -/
def WriteCall.Completes (around : Around β) (text : Text) : WriteCall → Prop
  | .applyPatch _ simulate => TempHolds around text ∧ Finishes around simulate
  | .createFile _ _ => (encodeText text).isSome ∧ around.fails .writeText = false
  | .deleteFile _ => True

theorem returns_unique {ν σ ε α : Type} {program : Eff ν σ ε α} {before one two : σ}
    {value other : α}
    (returned : Returns program before value one) (also : Returns program before other two) :
    value = other ∧ one = two :=
  ⟨Except.ok.inj (returned.1.symm.trans also.1), returned.2.symm.trans also.2⟩

/-- The files of the project are those of before. -/
def SameFiles (before after : Site β) : Prop := ∀ path, after.tree.node path = before.tree.node path

theorem SameFiles.of_tree (same : after.tree = s.tree) : SameFiles s after := fun path =>
    by rw [same]

/-- Where the temporary file goes, and what stands there and at the target before. -/
structure TempPlace (sha : Bytes → Digest) (volume : Volume β) (around : Around β)
    (tree : Tree Str β)
    (target : List Str) (digest : Digest) : Prop where
  free : tree.node (tempPath target around.hex) = none
  fits : tree.Fits (tempPath target around.hex)
  apart : tempPath target around.hex ≠ target
  stands : ∃ bytes, volume.read tree target = some bytes ∧ sha bytes = digest

theorem tempPlace {patch : StructuredPatch} {simulate : Bool} {located : Located} {digest : Digest}
    {text : Text} {found : Site β} (alone : around.Alone)
    (fresh : (WriteCall.applyPatch patch simulate).Fresh volume around s.tree)
    (find : Returns (findTarget volume around caller patch) s located found)
    (read_text : Returns (patchedText sha volume around patch located) found (digest, text) found) :
    TempPlace sha volume around s.tree located.target digest := by
  obtain ⟨locate, _, _, rfl⟩ := returns_findTarget.mp find
  obtain ⟨_, _, bytes, _, stands, same, _⟩ := returns_patchedText.mp read_text
  rw [show around.edit .beforeRead s.tree = s.tree from alone _ _] at stands
  have node := Volume.read_eq_some.mp stands
  have free := fresh _ (@target_of_locate _ _ _ _ _ _ _ _ (.applyPatch patch simulate) _ locate)
  have below : located.target ≠ [] := by
    intro root
    rw [root, s.tree.root] at node
    cases node
  exact ⟨free, tempPath_fits node free, tempPath_ne below _, bytes, stands, same⟩

theorem patchFile_fails_iff (alone : around.Alone) {patch : StructuredPatch} {simulate : Bool}
    (fresh : (WriteCall.applyPatch patch simulate).Fresh volume around s.tree)
    (raised : Raises (patchFile sha volume around caller patch simulate) s reason after) :
    SameFiles s after ↔ ∀ text,
      (WriteCall.applyPatch patch simulate).Opens sha volume around caller s text →
        (WriteCall.applyPatch patch simulate).Completes around text := by
  rcases raises_bind.mp raised with lost | ⟨located, found, find, raised⟩
  · refine iff_of_true (.of_tree ((calm_findTarget alone patch).raises lost)) ?_
    rintro text ⟨_, _, _, _, _, _, find, _⟩
    exact absurd lost find.result_unique
  have found_tree : found.tree = s.tree := (calm_findTarget alone patch).returns find
  have gets_text : ∀ {digest text}, Returns (patchedText sha volume around patch located) found
      (digest, text) found → ∀ text', (WriteCall.applyPatch patch simulate).Opens sha volume around
        caller s text' → text' = text := by
    rintro digest text read_text text' ⟨_, _, _, _, _, _, find', read_text', _⟩
    obtain ⟨rfl, rfl⟩ := returns_unique find find'
    exact (Prod.mk.inj (returns_unique read_text' read_text).1).2
  rcases raises_bind.mp raised with unprepared | ⟨prepared, ready, prepare, raised⟩
  · rcases raises_bind.mp unprepared with unread | ⟨⟨digest, text⟩, _, read_text, unprepared⟩
    · have same : after.tree = found.tree := (calm_patchedText patch located).raises unread
      refine iff_of_true (.of_tree (same.trans found_tree)) ?_
      rintro text ⟨_, _, _, _, _, _, find', read_text, _⟩
      obtain ⟨rfl, rfl⟩ := returns_unique find find'
      exact absurd unread read_text.result_unique
    obtain ⟨rfl, _⟩ := returns_patchedText.mp read_text
    have place := tempPlace alone fresh find read_text
    rcases raises_bind.mp unprepared with uncopied | ⟨backup, copied, copy, unprepared⟩
    · have same : after.tree = found.tree := (calm_copyTarget alone located).raises uncopied
      refine iff_of_true (.of_tree (same.trans found_tree)) ?_
      rintro text ⟨_, _, _, _, _, _, find', _, copy⟩
      obtain ⟨rfl, rfl⟩ := returns_unique find find'
      exact absurd uncopied copy.result_unique
    have copied_tree : copied.tree = s.tree :=
      (show copied.tree = found.tree from (calm_copyTarget alone located).returns copy).trans
        found_tree
    rcases raises_bind.mp unprepared with unwritten | ⟨_, _, _, impossible⟩
    · rcases writeTemp_fails alone (copied_tree ▸ place.fits) unwritten with
        ⟨refused, same⟩ | ⟨opens, unheld, left⟩
      · refine iff_of_true (.of_tree (same.trans copied_tree)) ?_
        rintro text ⟨opens, _⟩
        rw [refused] at opens
        cases opens
      · refine iff_of_false (fun same => left ((same _).trans place.free)) fun completes => ?_
        exact unheld (completes text
          ⟨opens, located, found, digest, backup, copied, find, read_text, copy⟩).1
    · exact (raises_pure.mp impossible).elim
  · obtain ⟨text, copied, read_text, copy, write, same_located, temp⟩ :=
      returns_prepareReplacement.mp prepare
    have place := tempPlace alone fresh find read_text
    have copied_tree : copied.tree = s.tree :=
      (show copied.tree = found.tree from (calm_copyTarget alone located).returns copy).trans
        found_tree
    obtain ⟨written, wrote, reads, _, hook, rfl⟩ := returns_writeTemp.mp write
    obtain ⟨opens, writes, opened, bytes, filled, opening, encoded, fills, rfl⟩ :=
      returns_writeText.mp wrote
    have holds : TempHolds around text := ⟨by rw [encoded]; rfl, writes, reads, hook⟩
    have node : filled.node = Function.update s.tree.node prepared.temp
        (some (.file (volume.regular bytes))) := by
      rw [Tree.write_node fills, Tree.write_node opening, Function.update_idem, copied_tree]
    have opened_text :
      (WriteCall.applyPatch patch simulate).Opens sha volume around caller s text :=
      ⟨opens, located, found, prepared.beforeHash, prepared.backup, copied, find, read_text, copy⟩
    have apart : prepared.temp ≠ prepared.located.target := by
      rw [temp, same_located]
      exact place.apart
    obtain ⟨before, stands, same_hash⟩ := place.stands
    have at_check : around.edit .beforeCheck (around.edit .beforeTempRead filled) = filled := by
      rw [alone, alone]
    rw [at_check] at raised
    have there : volume.read filled prepared.located.target = some before := by
      rw [Volume.read_eq_some, node, Function.update_of_ne apart.symm, same_located]
      exact Volume.read_eq_some.mp stands
    have temp_there : filled.node prepared.temp = some (.file (volume.regular bytes)) := by
      rw [node, Function.update_self]
    have free : s.tree.node prepared.temp = none := by
      rw [temp]
      exact place.free
    rcases raises_bind.mp raised with unreplaced | ⟨_, _, _, impossible⟩
    · rcases replaceTarget_fails there same_hash temp_there apart unreplaced with
        ⟨unfinished, left⟩ | ⟨finishes, gone⟩
      · refine iff_of_false (fun same => ?_) fun completes => unfinished (completes _ opened_text).2
        have at_temp := same prepared.temp
        rw [left, free, show filled.node prepared.temp = _ from temp_there] at at_temp
        cases at_temp
      · refine iff_of_true (fun path => ?_) fun text' opens' => ?_
        · rw [gone, node, Function.update_idem, ← free, Function.update_eq_self]
        · rw [gets_text read_text text' opens']
          exact ⟨holds, finishes⟩
    · exact (raises_pure.mp impossible).elim

theorem newFile_fails_iff (alone : around.Alone) {path : Str} {content : Text}
    (raised : Raises (newFile volume around caller path content) s reason after) :
    SameFiles s after ↔ ∀ text,
      (WriteCall.createFile path content).Opens sha volume around caller s text →
        (WriteCall.createFile path content).Completes around text := by
  rcases raises_bind.mp raised with lost | ⟨located, found, find, raised⟩
  · refine iff_of_true (.of_tree ((calm_findPlace alone path).raises lost)) ?_
    rintro text ⟨_, _, _, _, find⟩
    exact absurd lost find.result_unique
  obtain ⟨_, _, parent, _, missing, rfl⟩ := returns_findPlace.mp find
  rw [show around.edit .beforeText s.tree = s.tree from alone _ _] at raised
  simp only [raises_bind, raises_read, raises_require, returns_read, returns_require, raises_pure,
    false_or, and_false, or_false, exists_false, Option.isNone_iff_eq_none] at raised
  obtain ⟨_, _, ⟨rfl, rfl⟩, raised⟩ := raised
  rcases raised with ⟨taken, _⟩ | ⟨_, _, ⟨_, rfl⟩, unwritten⟩
  · exact absurd missing taken
  have below : located.target ≠ [] := by
    intro root
    rw [root, s.tree.root] at missing
    cases missing
  have fits : s.tree.Fits located.target :=
    ⟨below, Tree.isDir_iff.mp parent, by rw [missing]; simp⟩
  rcases writeText_fails fits unwritten with ⟨refused, same⟩ | ⟨opens, unheld, node⟩
  · refine iff_of_true (.of_tree same) ?_
    rintro text ⟨opens, _⟩
    rw [refused] at opens
    cases opens
  · refine iff_of_false (fun same => ?_) fun completes => ?_
    · have at_target := same located.target
      rw [node, Function.update_self, missing] at at_target
      cases at_target
    · exact unheld (completes content ⟨opens, rfl, located, _, find⟩)

def emptyProject : Site Bytes := openSite Tree.empty

def surrogateCall : WriteCall := .createFile "a".toList [.surrogate 0]

end SeMentor.OnDisk
