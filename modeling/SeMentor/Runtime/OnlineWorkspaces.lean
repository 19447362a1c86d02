import SeMentor.Lib.Unpack
import SeMentor.Runtime.OnlineSessions
import SeMentor.Runtime.ZipPlan

set_option autoImplicit false

/- `runtime/online_workspaces.py`: the workspace of a session is replaced by an imported archive,
and packed into one. -/
namespace SeMentor.Runtime

open Paths Models FileTree

structure WorkspaceHandle where
  sessionId : Str
  createdAt : Nat
  lastUsedAt : Nat
  baselineName : Str
  baselineRevision : Option Str
  deriving DecidableEq, Repr

/-- The workspace directory of one session, if there is one, and the handle the factory keeps. -/
structure SessionWorkspace where
  tree : Option (Tree Str Bytes)
  handle : Option WorkspaceHandle

inductive ImportFailure where
  | workspace (error : OnlineWorkspaceError)
  | badZipFile
  | osError
  deriving DecidableEq, Repr

/-- The exit codes of `git` in the workspace, and the revision it prints. It writes below `.git`
only. -/
structure Git where
  exit : List Str → Int
  revision : Option Str

def gitCommands : List (List Str) :=
  [["git".toList, "init".toList],
    ["git".toList, "config".toList, "user.email".toList, "online-safe@example.invalid".toList],
    ["git".toList, "config".toList, "user.name".toList, "SE-Mentor Online Safe".toList],
    ["git".toList, "config".toList, "--unset-all".toList, "credential.helper".toList],
    ["git".toList, "add".toList, ".".toList],
    ["git".toList, "commit".toList, "-m".toList, "baseline".toList]]

def Git.accepts (git : Git) (command : List Str) : Bool :=
  git.exit command = 0 ||
    (command.take 3 = ["git".toList, "config".toList, "--unset-all".toList] && git.exit command = 5)

/-- Every command of the baseline succeeds. -/
def Git.ready (git : Git) : Bool := gitCommands.all git.accepts

/-- `_init_session_git_repo` -/
def initSessionGitRepo (git : Git) : Except OnlineWorkspaceError Unit :=
  if git.ready then .ok ()
  else .error (baselineError "ONLINE_SAFE session Git baseline could not be initialized")

/-- `_SESSION_ID_PATTERN` -/
def validSessionId (sessionId : Str) : Bool :=
  decide (16 ≤ sessionId.length) &&
    sessionId.all fun letter => letter.isAlphanum || letter = '_' || letter = '-'

/-- `_safe_archive_label` -/
def safeArchiveLabel (archiveName : Str) : Str :=
  let name := (parts (slashes archiveName)).getLast?.getD []
  let label := if ".zip".toList <:+ lowered name then name.take (name.length - 4) else name
  let label := (strip label).take 80
  if label = [] then "zip-import".toList else label

/-- The loop over the planned members. The member is opened before its target, and the target
has no links and no `..` on its way, so it stays inside the workspace. -/
def extract : List (ZipInfo × List Str) → Tree Str Bytes → Except ImportFailure (Tree Str Bytes)
  | [], tree => .ok tree
  | (entry, target) :: rest, tree => match tree.mkdirs target.dropLast with
    | none => .error .osError
    | some made => match entry.member with
      | .unreadable => .error .badZipFile
      | .truncated written =>
          .error (if (made.write target written).isSome then .badZipFile else .osError)
      | .intact content => match made.write target content with
        | none => .error .osError
        | some placed => extract rest placed

/-- `import_zip` -/
def importZip (limits : WorkspaceLimits) (git : Git) (now : Nat) (sessionId : Str)
    (archive : Archive) (archiveName : Str) (before : SessionWorkspace) :
    Except ImportFailure WorkspaceHandle × SessionWorkspace :=
  match zipImportPlan limits archive with
  | .error reason => (.error (.workspace reason), before)
  | .ok plan =>
      if validSessionId sessionId = false then
        (.error (.workspace
          (boundaryError "ONLINE_SAFE session id is not a valid workspace identifier")), before)
      else
        -- the old workspace is removed here; a failure below removes the new one and the handle
        match extract plan Tree.empty with
        | .error reason => (.error reason, ⟨none, none⟩)
        | .ok tree => match initSessionGitRepo git with
          | .error reason => (.error (.workspace reason), ⟨none, none⟩)
          | .ok _ =>
              let handle := ⟨sessionId, now, now, safeArchiveLabel archiveName, git.revision⟩
              (.ok handle, ⟨some tree, some handle⟩)

/-- What a reader finds in the workspace. -/
def SessionWorkspace.fileAt (workspace : SessionWorkspace) (path : List Str) : Option Bytes :=
  workspace.tree.bind fun tree => tree.fileAt path

def MemberContent.isIntact : MemberContent → Bool
  | .intact _ => true
  | _ => false

def MemberContent.bytes : MemberContent → Bytes
  | .intact content => content
  | .truncated written => written
  | .unreadable => []

/-- The files a plan stands for. -/
def planFiles (plan : List (ZipInfo × List Str)) : List (List Str × Bytes) :=
  plan.map fun item => (item.2, item.1.member.bytes)

/-! ### The extraction -/

section Extract

variable {plan : List (ZipInfo × List Str)} {tree done : Tree Str Bytes}

theorem extract_ok : extract plan tree = .ok done ↔
    (∀ item ∈ plan, item.1.member.isIntact = true) ∧ tree.unpack (planFiles plan) = some done := by
  induction plan generalizing tree with
  | nil => simp [extract, planFiles, Tree.unpack]
  | cons item rest ih =>
      obtain ⟨entry, target⟩ := item
      rw [List.forall_mem_cons, planFiles, List.map_cons, Tree.unpack, Tree.place]
      unfold extract
      cases tree.mkdirs target.dropLast with
      | none => simp
      | some made =>
          dsimp only
          cases member : entry.member with
          | unreadable => simp [MemberContent.isIntact]
          | truncated written => simp [MemberContent.isIntact]
          | intact content =>
              have read : (MemberContent.intact content).bytes = content := rfl
              have whole : (MemberContent.intact content).isIntact = true := rfl
              rw [Option.bind_some, read, and_iff_right whole]
              dsimp only
              cases made.write target content with
              | none => simp
              | some placed =>
                  rw [Option.bind_some, ← planFiles]
                  exact ih

/-- No planned target lies below another one. -/
def Unobstructed (plan : List (ZipInfo × List Str)) : Prop :=
  plan.Pairwise fun one other => Tree.Apart one.2 other.2

theorem planFiles_named (named : ∀ item ∈ plan, item.2 ≠ []) :
    ∀ file ∈ planFiles plan, file.1 ≠ [] := by
  intro file listed
  obtain ⟨item, planned, rfl⟩ := List.mem_map.mp listed
  exact named item planned

theorem planFiles_distinct (distinct : (plan.map Prod.snd).Nodup) :
    ((planFiles plan ++ []).map Prod.fst).Nodup := by
  rw [List.append_nil, planFiles, List.map_map]
  exact distinct

/-- A plan with different targets is extracted exactly when every member is intact and no target
is in the way of another. -/
theorem extract_succeeds (named : ∀ item ∈ plan, item.2 ≠ [])
    (distinct : (plan.map Prod.snd).Nodup) :
    (∃ done, extract plan Tree.empty = .ok done) ↔
      (∀ item ∈ plan, item.1.member.isIntact = true) ∧ Unobstructed plan := by
  have unpacked := Tree.holds_empty.unpack_isSome (planFiles_named named)
    (planFiles_distinct distinct)
  simp only [extract_ok, exists_and_left, ← Option.isSome_iff_exists, unpacked]
  simp [planFiles, List.pairwise_map, Unobstructed]

theorem extract_holds (named : ∀ item ∈ plan, item.2 ≠ [])
    (distinct : (plan.map Prod.snd).Nodup) (success : extract plan Tree.empty = .ok done) :
    done.Holds (planFiles plan).reverse := by
  have holds := Tree.holds_empty.unpack (planFiles_named named) (planFiles_distinct distinct)
    (extract_ok.mp success).2
  simpa using holds

end Extract

end SeMentor.Runtime
