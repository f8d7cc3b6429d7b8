import LockBench.Host.Machine
import LockBench.Proofs.Host.Requests

/-!
# Snapshots

A snapshot is what a host answers to every request as long as nothing changes.
What an action sees that only looks at files depends on the snapshot alone: on a
machine it ends in what it sees in the machine's snapshot, and the machine stays
as it is.
-/

namespace LockBench

/-- What a host answers to every request, as long as nothing changes. -/
abbrev Snapshot := (request : Request) -> request.Answer

namespace Snapshot

/-- What a path leads to. -/
def kind
    (snapshot : Snapshot)
    (path : Path) : Option Kind := snapshot (.kind path)

/-- What the path of an entry leads to. -/
def kindAt
    (snapshot : Snapshot) : EntryPath -> Option Kind
  | .text path => snapshot.kind path
  | .raw path => snapshot (.rawKind path)

/-- What a file holds that is an entry. -/
def contentAt
    (snapshot : Snapshot) : EntryPath -> Except OsError ByteArray
  | .text path => snapshot (.read path)
  | .raw path => snapshot (.rawRead path)

/-- The names of what is in a directory. -/
def entries
    (snapshot : Snapshot)
    (dir : Path) : Except OsError (List EntryName) := snapshot (.entries dir)

end Snapshot

/-- The request asks for files and changes nothing. -/
inductive Request.IsLook : Request -> Prop
  | kind (path : Path) : IsLook (.kind path)
  | rawKind (path : RawPath) : IsLook (.rawKind path)
  | read (path : Path) : IsLook (.read path)
  | rawRead (path : RawPath) : IsLook (.rawRead path)
  | entries (dir : Path) : IsLook (.entries dir)

namespace Action

/-- What an action ends in that is answered from a snapshot. -/
def seen (snapshot : Snapshot) : Action α -> α
  | .done result => result
  | .ask request next => (next (snapshot request)).seen snapshot

@[simp] theorem seen_pure
    (snapshot : Snapshot)
    (result : α) : (pure result : Action α).seen snapshot = result := rfl

@[simp] theorem seen_bind
    (snapshot : Snapshot)
    (action : Action α)
    (next : α -> Action β) :
    (action >>= next).seen snapshot =
      (next (action.seen snapshot)).seen snapshot := by
  change (action.bind next).seen snapshot = _
  induction action with
  | done result => rfl
  | ask request continuation inductionHypothesis =>
      exact inductionHypothesis (snapshot request)

@[simp] theorem seen_kindAt?
    (snapshot : Snapshot)
    (path : EntryPath) :
    (kindAt? path).seen snapshot = snapshot.kindAt path := by
  cases path <;> rfl

@[simp] theorem seen_readAt
    (snapshot : Snapshot)
    (path : EntryPath) :
    (readAt path).seen snapshot = snapshot.contentAt path := by
  cases path <;> rfl

@[simp] theorem seen_entries
    (snapshot : Snapshot)
    (dir : Path) : (entries dir).seen snapshot = snapshot.entries dir := rfl

theorem seen_run_lift
    (snapshot : Snapshot)
    (action : Action α) :
    (liftM action : ExceptT ε Action α).run.seen snapshot =
      .ok (action.seen snapshot) := by
  change (action >>= fun result => pure (Except.ok result)).seen snapshot = _
  rw [seen_bind]
  rfl

@[simp] theorem seen_run_lift_bind
    (snapshot : Snapshot)
    (action : Action α)
    (next : α -> ExceptT ε Action β) :
    ((liftM action : ExceptT ε Action α) >>= next).run.seen snapshot =
      (next (action.seen snapshot)).run.seen snapshot := by
  rw [ExceptT.run_bind, seen_bind, seen_run_lift]

end Action

namespace Snapshot

/-- The path of an entry leads to a regular file. -/
def IsFileAt
    (snapshot : Snapshot)
    (path : EntryPath) : Prop :=
  ∃ executable, snapshot.kindAt path = some (.file executable)

/-- A path leads to a regular file. -/
def IsFile
    (snapshot : Snapshot)
    (path : Path) : Prop := snapshot.IsFileAt (.text path)

/-- The same names in another order, or no names for the same reason. -/
inductive Permuted :
    Except OsError (List EntryName) -> Except OsError (List EntryName) -> Prop
  | names
      {names others : List EntryName}
      (perm : names.Perm others) : Permuted (.ok names) (.ok others)
  | refused (cause : OsError) : Permuted (.error cause) (.error cause)

/-- Another snapshot shows the same files, except that the entries of
directories may be in another order, and that only some of the files need hold
the same. -/
structure Reorders
    (snapshot : Snapshot)
    (alike : EntryPath -> Prop)
    (other : Snapshot) : Prop where
  /-- Paths lead to the same kinds of files. -/
  kind_eq : ∀ path, other.kindAt path = snapshot.kindAt path
  /-- Some of the files hold the same. -/
  content_eq : ∀ path, alike path ->
    other.contentAt path = snapshot.contentAt path
  /-- Directories have the same entries. -/
  entries : ∀ dir, Permuted (snapshot.entries dir) (other.entries dir)

variable {snapshot other : Snapshot} {alike : EntryPath -> Prop}
  {path : EntryPath}

instance : Decidable (snapshot.IsFileAt path) :=
  match found : snapshot.kindAt path with
  | some (.file executable) => .isTrue ⟨executable, found⟩
  | some .directory => .isFalse fun ⟨_, isFile⟩ => by
    rw [found] at isFile
    cases isFile
  | none => .isFalse fun ⟨_, isFile⟩ => by
    rw [found] at isFile
    cases isFile

instance (path : Path) : Decidable (snapshot.IsFile path) :=
  inferInstanceAs (Decidable (snapshot.IsFileAt (.text path)))

theorem Reorders.isFileAt_iff
    (reorders : snapshot.Reorders alike other)
    (path : EntryPath) : other.IsFileAt path ↔ snapshot.IsFileAt path := by
  rw [IsFileAt, IsFileAt, reorders.kind_eq]

end Snapshot

@[simp] theorem Action.seen_isFileAt
    (snapshot : Snapshot)
    (path : EntryPath) :
    (isFileAt path).seen snapshot = decide (snapshot.IsFileAt path) := by
  rw [isFileAt, seen_bind, seen_kindAt?]
  by_cases holds : snapshot.IsFileAt path
  · rw [decide_eq_true holds]
    obtain ⟨executable, kind_eq⟩ := holds
    rw [kind_eq]
    rfl
  · rw [decide_eq_false holds]
    cases kind_eq : snapshot.kindAt path with
    | none => rfl
    | some kind =>
        cases kind with
        | directory => rfl
        | file executable => exact absurd ⟨executable, kind_eq⟩ holds

@[simp] theorem Action.seen_isFile
    (snapshot : Snapshot)
    (path : Path) :
    (isFile path).seen snapshot = decide (snapshot.IsFile path) :=
  seen_isFileAt snapshot (.text path)

/-! ## Machines -/

/-- What a machine answers. -/
def Machine.snapshot (machine : Machine) : Snapshot :=
  fun request => (machine.answer request).1

/-- An action that only looks leaves a machine as it is. -/
theorem Action.AsksOnly.runOn_eq
    {action : Action α}
    (looks : action.AsksOnly Request.IsLook)
    (machine : Machine) :
    action.runOn machine = (action.seen machine.snapshot, machine) := by
  induction action with
  | done result => rfl
  | ask request next inductionHypothesis =>
      have same : (machine.answer request).2 = machine := by
        cases looks.1 <;> rfl
      change (next (machine.answer request).1).runOn
        (machine.answer request).2 = _
      rw [same]
      exact inductionHypothesis _ (looks.2 _)

end LockBench
