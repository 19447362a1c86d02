import SeMentor.Tools.WriteCalls

set_option autoImplicit false

/- Which files the write tools change in a project with symbolic links: the policy is asked about
the path as it is written, and the file is where that path leads. -/
namespace SeMentor.OnDisk

open Paths Models FileTree LinkTree Effect Host Policy Tools

/-! ### What a grant covers -/

def temporaryCovers (grant : TemporaryGrant) (path : Str) : Bool :=
  pathAllowed path grant.writePaths && !pathAllowed path grant.protectedPaths

/-- The policy lists the path as it stands, and does not protect it. -/
def covers (grant : Grant) (path : Str) : Bool :=
  match grant with
  | .temporary grant => temporaryCovers grant path
  | .authorization baseline =>
      (pathAllowed path baseline.writePaths && !pathAllowed path baseline.protectedPaths) &&
        baseline.temporaryGrant.all fun grant => temporaryCovers grant path

/-- A real path, from the root on. -/
def relativeTo (root path : List Str) : Str := joinParts (path.drop root.length)

section Links

variable {sha : Bytes → Digest} {root : List Str} {around : Around (Leaf Str Bytes)}
  {caller : Caller} {s after : Site (Leaf Str Bytes)} {call : WriteCall}

/-- Only files the grant covers are changed, exactly when it covers the file that the path of the
call leads to, or the call writes what that file holds already. -/
theorem changed_files_covered_iff (alone : around.Alone)
    (fresh : call.Fresh (linked root) around s.tree)
    (ran : Returns (call.run sha (linked root) around caller) s () after) :
    (∀ path, root <+: path → after.tree.node path ≠ s.tree.node path →
        covers caller.grant (relativeTo root path) = true) ↔
      ∀ target, call.target (linked root) s.tree = some target →
        covers caller.grant (relativeTo root target) = true ∨
          call.Idle (linked root) s.tree target := by
  obtain ⟨target, resolved, inside, elsewhere, idle⟩ := call.run_changes alone fresh ran
  constructor
  · intro covered other resolved'
    rw [resolved, Option.some.injEq] at resolved'
    subst resolved'
    by_cases same : after.tree.node target = s.tree.node target
    · exact Or.inr (idle.mp same)
    · exact Or.inl (covered target inside same)
  · intro condition path _ changed
    by_cases here : path = target
    · subst here
      rcases condition path resolved with covered | kept
      · exact covered
      · exact absurd (idle.mpr kept) changed
    · exact absurd (elsewhere path here) changed

end Links

/-! ### A link to a protected file -/

def linkTree : Tree Str (Leaf Str Bytes) :=
  Tree.ofFiles [(["repo".toList, "link".toList], .link false [.down "secret".toList]),
    (["repo".toList, "secret".toList], .regular [1])]

def linkCaller : Caller := callerFor ["link".toList] ["secret".toList]

def throughLink : WriteCall := .deleteFile "link".toList

/-- A call that succeeds and leaves nothing at the path. -/
structure Removes (root : List Str) (caller : Caller) (tree : Tree Str (Leaf Str Bytes))
    (call : WriteCall) (path : List Str) : Prop where
  runs : ((call.run (fun _ => []) (linked root) {} caller) (openSite tree)).result = .ok ()
  gone : ((call.run (fun _ => []) (linked root) {} caller) (openSite tree)).state.tree.node path =
    none

theorem throughLink_removes :
    Removes ["repo".toList] linkCaller linkTree throughLink ["repo".toList, "secret".toList] where
  runs := rfl
  gone := rfl

/-- The protected file is removed by a call on the link. -/
theorem link_reaches_protected :
    ¬∀ (sha : Bytes → Digest) (root : List Str) (around : Around (Leaf Str Bytes))
      (caller : Caller) (s after : Site (Leaf Str Bytes)) (call : WriteCall), around.Alone →
      call.Fresh (linked root) around s.tree →
      Returns (call.run sha (linked root) around caller) s () after →
      ∀ path, root <+: path → after.tree.node path ≠ s.tree.node path →
        covers caller.grant (relativeTo root path) = true := by
  intro claimed
  have covered := claimed (fun _ => []) ["repo".toList] {} linkCaller (openSite linkTree) _
    throughLink (fun _ _ => rfl) trivial ⟨throughLink_removes.runs, rfl⟩
    ["repo".toList, "secret".toList] (by decide)
  rw [throughLink_removes.gone] at covered
  exact absurd (covered (by decide)) (by decide)

/-- A call on the file itself, where the grant lists it, changes no other file. -/
theorem listed_file_covered :
    covers (callerFor ["secret".toList] []).grant
        (relativeTo ["repo".toList] ["repo".toList, "secret".toList]) = true ∧
      (∀ path, ["repo".toList] <+: path →
        (((WriteCall.deleteFile "secret".toList).run (fun _ => []) (linked ["repo".toList]) {}
          (callerFor ["secret".toList] [])) (openSite linkTree)).state.tree.node path ≠
            linkTree.node path →
        covers (callerFor ["secret".toList] []).grant (relativeTo ["repo".toList] path) =
          true) := by
  have ran : Returns ((WriteCall.deleteFile "secret".toList).run (fun _ => [])
      (linked ["repo".toList]) {} (callerFor ["secret".toList] [])) (openSite linkTree) () _ :=
    ⟨by decide, rfl⟩
  have resolved : (WriteCall.deleteFile "secret".toList).target (linked ["repo".toList]) linkTree =
      some ["repo".toList, "secret".toList] := by decide +kernel
  refine ⟨rfl, (changed_files_covered_iff (by exact fun _ _ => rfl)
    (by exact trivial) ran).mpr ?_⟩
  intro target same
  rw [show (openSite linkTree).tree = linkTree from rfl, resolved, Option.some.injEq] at same
  subst same
  exact Or.inl rfl

end SeMentor.OnDisk
