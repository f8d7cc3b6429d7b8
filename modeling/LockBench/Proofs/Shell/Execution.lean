import LockBench.Proofs.Shell.Lists

/-!
# What a shell runs of a list

A shell goes through a list of commands: a link decides whether a command runs,
a command may change the directory or end the shell, and commands in the
background run in a shell of their own, at the same time as what follows.
Nothing is known of what a command does, except that a change to an absolute
path either succeeds and leads there, or fails and changes nothing.
-/

namespace LockBench
namespace Shell

/-- How a command ended. -/
inductive Ending
  /-- The shell goes on in a directory. -/
  | stays (succeeded : Bool) (dir : Path)
  /-- The shell ended with it. -/
  | quits
  deriving DecidableEq, Repr

/-- A simple command that ran. -/
structure Ran where
  /-- The command as it is written. -/
  command : String
  /-- The directory that it started in. -/
  dir : Path
  /-- How it ended. -/
  ending : Ending
  deriving DecidableEq, Repr

namespace Ran

/-- A change to an absolute path leads there, or fails. -/
def Possible (ran : Ran) : Prop :=
  ∀ target : Path, target.isAbsolute = true ->
    andList? ran.command = some [⟨[], ["cd", target.text]⟩] ->
      ran.ending = .stays true target ∨ ran.ending = .stays false ran.dir

/-- The command leaves the directory as it is. -/
def Remains (ran : Ran) : Prop :=
  ∀ succeeded dir, ran.ending = .stays succeeded dir -> dir = ran.dir

/-- A command that fails and changes nothing. -/
def failing
    (command : String)
    (dir : Path) : Ran :=
  ⟨command, dir, .stays false dir⟩

theorem possible_failing
    (command : String)
    (dir : Path) : (failing command dir).Possible :=
  fun _ _ _ => .inr rfl

end Ran

/-- Whether the command behind a link runs. -/
def Link.proceeds : Link -> Bool -> Bool
  | .andIf, succeeded => succeeded
  | .orIf, succeeded => !succeeded

/-- What runs of commands of which each depends on those before it. -/
inductive RunsLinks :
    Bool -> Path -> List (Link × String) -> List Ran -> Ending -> Prop
  | nil
      (succeeded : Bool)
      (dir : Path) : RunsLinks succeeded dir [] [] (.stays succeeded dir)
  | skip
      {succeeded : Bool}
      {dir : Path}
      {link : Link}
      {links : List (Link × String)}
      {ran : List Ran}
      {ending : Ending}
      (command : String)
      (skips : link.proceeds succeeded = false)
      (rest : RunsLinks succeeded dir links ran ending) :
      RunsLinks succeeded dir ((link, command) :: links) ran ending
  | run
      {succeeded after : Bool}
      {dir next : Path}
      {link : Link}
      {command : String}
      {links : List (Link × String)}
      {ran : List Ran}
      {ending : Ending}
      (proceeds : link.proceeds succeeded = true)
      (isPossible : Ran.Possible ⟨command, dir, .stays after next⟩)
      (rest : RunsLinks after next links ran ending) :
      RunsLinks succeeded dir ((link, command) :: links)
        (⟨command, dir, .stays after next⟩ :: ran) ending
  | quit
      {succeeded : Bool}
      {dir : Path}
      {link : Link}
      {command : String}
      (links : List (Link × String))
      (proceeds : link.proceeds succeeded = true)
      (isPossible : Ran.Possible ⟨command, dir, .quits⟩) :
      RunsLinks succeeded dir ((link, command) :: links)
        [⟨command, dir, .quits⟩] .quits

/-- What runs of an and-or list; its first command always does. -/
def AndOr.Runs
    (list : AndOr)
    (dir : Path)
    (ran : List Ran)
    (ending : Ending) : Prop :=
  RunsLinks true dir ((.andIf, list.first) :: list.more) ran ending

/-- What runs at the same time, in some order. -/
inductive Interleaved : List Ran -> List Ran -> List Ran -> Prop
  | nil : Interleaved [] [] []
  | left
      {left right both : List Ran}
      (ran : Ran)
      (rest : Interleaved left right both) :
      Interleaved (ran :: left) right (ran :: both)
  | right
      {left right both : List Ran}
      (ran : Ran)
      (rest : Interleaved left right both) :
      Interleaved left (ran :: right) (ran :: both)

/-- What runs of a list. -/
inductive RunsList :
    Path -> List (AndOr × Separator) -> List Ran -> Prop
  | nil (dir : Path) : RunsList dir [] []
  | sequence
      {dir next : Path}
      {succeeded : Bool}
      {list : AndOr}
      {others : List (AndOr × Separator)}
      {early late : List Ran}
      (first : list.Runs dir early (.stays succeeded next))
      (rest : RunsList next others late) :
      RunsList dir ((list, .sequence) :: others) (early ++ late)
  | quits
      {dir : Path}
      {list : AndOr}
      {early : List Ran}
      (others : List (AndOr × Separator))
      (first : list.Runs dir early .quits) :
      RunsList dir ((list, .sequence) :: others) early
  | background
      {dir : Path}
      {list : AndOr}
      {others : List (AndOr × Separator)}
      {early late both : List Ran}
      {ending : Ending}
      (first : list.Runs dir early ending)
      (rest : RunsList dir others late)
      (interleaved : Interleaved early late both) :
      RunsList dir ((list, .background) :: others) both

/-! ## Interleaved runs -/

variable {dir : Path} {early late both ran : List Ran} {ending : Ending}
  {links : List (Link × String)} {list : AndOr}
  {lists others : List (AndOr × Separator)}

theorem interleaved_append (early late : List Ran) :
    Interleaved early late (early ++ late) := by
  induction early with
  | nil =>
      induction late with
      | nil => exact .nil
      | cons event rest inductionHypothesis =>
          exact .right event inductionHypothesis
  | cons event rest inductionHypothesis => exact .left event inductionHypothesis

theorem Interleaved.mem_iff
    (interleaved : Interleaved early late both)
    (event : Ran) : event ∈ both ↔ event ∈ early ∨ event ∈ late := by
  induction interleaved with
  | nil => simp
  | left ran _ inductionHypothesis => simp [inductionHypothesis, or_assoc]
  | right ran _ inductionHypothesis =>
      simp [inductionHypothesis, or_left_comm]

/-- What runs at the same time as nothing is all that runs. -/
theorem interleaved_nil_iff :
    Interleaved early [] both ↔ both = early := by
  constructor
  · intro interleaved
    generalize nothing : ([] : List Ran) = late at interleaved
    induction interleaved with
    | nil => rfl
    | left ran _ inductionHypothesis => rw [inductionHypothesis nothing]
    | right ran _ _ => cases nothing
  · rintro rfl
    simpa using interleaved_append both []

/-- A list of one and-or list runs as that. -/
theorem runsList_singleton_iff
    {separator : Separator} :
    RunsList dir [(list, separator)] ran ↔
      ∃ ending, list.Runs dir ran ending := by
  constructor
  · intro runs
    cases runs with
    | sequence first rest =>
        cases rest
        exact ⟨_, by rwa [List.append_nil]⟩
    | quits _ first => exact ⟨_, first⟩
    | background first rest interleaved =>
        cases rest
        rw [interleaved_nil_iff.mp interleaved]
        exact ⟨_, first⟩
  · rintro ⟨ending, runs⟩
    cases separator with
    | background =>
        exact .background runs (.nil dir) (interleaved_nil_iff.mpr rfl)
    | sequence =>
        cases ending with
        | quits => exact .quits [] runs
        | stays succeeded next => simpa using RunsList.sequence runs (.nil next)

/-- What follows a semicolon runs where what precedes it left the shell. -/
theorem runsList_sequence_iff :
    RunsList dir ((list, .sequence) :: others) ran ↔
      (∃ early late succeeded next, ran = early ++ late ∧
        list.Runs dir early (.stays succeeded next) ∧
        RunsList next others late) ∨
      list.Runs dir ran .quits := by
  constructor
  · intro runs
    cases runs with
    | sequence first rest => exact .inl ⟨_, _, _, _, rfl, first, rest⟩
    | quits _ first => exact .inr first
  · rintro (⟨early, late, succeeded, next, rfl, first, rest⟩ | first)
    · exact .sequence first rest
    · exact .quits others first

/-! ## Some runs -/

/-- Commands may all fail. -/
theorem exists_runsLinks
    (succeeded : Bool)
    (dir : Path)
    (links : List (Link × String)) :
    ∃ ran after, RunsLinks succeeded dir links ran (.stays after dir) ∧
      ∀ event ∈ ran, event.dir = dir := by
  induction links generalizing succeeded with
  | nil => exact ⟨[], succeeded, .nil succeeded dir, by simp⟩
  | cons entry rest inductionHypothesis =>
      obtain ⟨link, command⟩ := entry
      cases proceeds : link.proceeds succeeded with
      | false =>
          obtain ⟨ran, after, runs, here⟩ := inductionHypothesis succeeded
          exact ⟨ran, after, .skip command proceeds runs, here⟩
      | true =>
          obtain ⟨ran, after, runs, here⟩ := inductionHypothesis false
          exact ⟨_, after,
            .run proceeds (Ran.possible_failing command dir) runs,
            List.forall_mem_cons.mpr ⟨rfl, here⟩⟩

/-- After a failure a command behind `||` runs. -/
theorem exists_runsLinks_of_orIf
    (dir : Path)
    (alternative : ∃ command, (.orIf, command) ∈ links) :
    ∃ ran after, RunsLinks false dir links ran (.stays after dir) ∧
      (∀ event ∈ ran, event.dir = dir) ∧ ran ≠ [] := by
  induction links with
  | nil => simp at alternative
  | cons entry rest inductionHypothesis =>
      obtain ⟨link, command⟩ := entry
      cases link with
      | andIf =>
          obtain ⟨other, isOther⟩ := alternative
          obtain ⟨ran, after, runs, here, someRan⟩ :=
            inductionHypothesis ⟨other, by simpa using isOther⟩
          exact ⟨ran, after, .skip command rfl runs, here, someRan⟩
      | orIf =>
          obtain ⟨ran, after, runs, here⟩ := exists_runsLinks false dir rest
          exact ⟨_, after, .run rfl (Ran.possible_failing command dir) runs,
            List.forall_mem_cons.mpr ⟨rfl, here⟩, List.cons_ne_nil _ _⟩

/-- What follows commands that leave the directory as it is runs there. -/
theorem RunsList.cons
    {succeeded : Bool}
    (first : list.Runs dir early (.stays succeeded dir))
    (rest : RunsList dir others late) :
    ∀ separator, RunsList dir ((list, separator) :: others) (early ++ late)
  | .sequence => .sequence first rest
  | .background => .background first rest (interleaved_append early late)

/-- The first command of a list always runs. -/
theorem exists_runsList
    (dir : Path)
    (lists : List (AndOr × Separator)) :
    ∃ ran, RunsList dir lists ran ∧ (∀ event ∈ ran, event.dir = dir) ∧
      (lists ≠ [] -> ran ≠ []) := by
  induction lists with
  | nil => exact ⟨[], .nil dir, by simp, fun someList => absurd rfl someList⟩
  | cons entry rest inductionHypothesis =>
      obtain ⟨list, separator⟩ := entry
      obtain ⟨early, after, runs, here⟩ :=
        exists_runsLinks false dir list.more
      have first : list.Runs dir (.failing list.first dir :: early)
          (.stays after dir) :=
        .run rfl (Ran.possible_failing list.first dir) runs
      obtain ⟨late, runsRest, hereRest, -⟩ := inductionHypothesis
      refine ⟨_, .cons first runsRest separator, ?_, by simp⟩
      rw [List.forall_mem_append, List.forall_mem_cons]
      exact ⟨⟨rfl, here⟩, hereRest⟩

/-! ## Where commands run -/

/-- Commands that leave the directory as it is all run in the one that they
start in. -/
theorem RunsLinks.dir_eq
    {succeeded : Bool}
    (runs : RunsLinks succeeded dir links ran ending)
    (remain : ∀ event ∈ ran, event.Remains) :
    (∀ event ∈ ran, event.dir = dir) ∧
      ∀ after next, ending = .stays after next -> next = dir := by
  induction runs with
  | nil succeeded dir =>
      refine ⟨by simp, ?_⟩
      rintro after next ⟨⟩
      rfl
  | skip command skips rest inductionHypothesis =>
      exact inductionHypothesis remain
  | run proceeds isPossible rest inductionHypothesis =>
      rw [List.forall_mem_cons] at remain
      obtain rfl := remain.1 _ _ rfl
      obtain ⟨here, stays⟩ := inductionHypothesis remain.2
      exact ⟨List.forall_mem_cons.mpr ⟨rfl, here⟩, stays⟩
  | quit links proceeds isPossible =>
      refine ⟨by simp, ?_⟩
      rintro after next ⟨⟩

theorem RunsList.dir_eq
    (runs : RunsList dir lists ran)
    (remain : ∀ event ∈ ran, event.Remains) :
    ∀ event ∈ ran, event.dir = dir := by
  induction runs with
  | nil dir => simp
  | sequence first rest inductionHypothesis =>
      rw [List.forall_mem_append] at remain
      obtain ⟨here, stays⟩ := RunsLinks.dir_eq first remain.1
      obtain rfl := stays _ _ rfl
      exact List.forall_mem_append.mpr ⟨here, inductionHypothesis remain.2⟩
  | quits others first => exact (RunsLinks.dir_eq first remain).1
  | background first rest interleaved inductionHypothesis =>
      simp only [interleaved.mem_iff] at remain ⊢
      intro event member
      rcases member with inEarly | inLate
      · exact (RunsLinks.dir_eq first fun other isOther =>
          remain other (.inl isOther)).1 event inEarly
      · exact inductionHypothesis
          (fun other isOther => remain other (.inr isOther)) event inLate

/-! ## Behind a change of the directory -/

/-- A change of the directory that succeeds, or fails. -/
def changing
    (change : String)
    (here target : Path)
    (entered : Bool) : Ran :=
  ⟨change, here, if entered then .stays true target else .stays false here⟩

theorem possible_changing
    {change : String}
    {target : Path}
    (isChange : andList? change = some [⟨[], ["cd", target.text]⟩])
    (here : Path)
    (entered : Bool) : (changing change here target entered).Possible := by
  intro other _ isOther
  have text_eq : target.text = other.text := by
    rw [changing, isChange] at isOther
    simpa using isOther
  obtain rfl : target = other := congrArg Path.mk text_eq
  cases entered with
  | false => exact .inr rfl
  | true => exact .inl rfl

/-- After a failure nothing behind `&&` runs. -/
theorem runsLinks_false_iff
    (onlyAnd : ∀ entry ∈ links, entry.1 = .andIf) :
    RunsLinks false dir links ran ending ↔
      ran = [] ∧ ending = .stays false dir := by
  induction links with
  | nil =>
      constructor
      · rintro ⟨⟩
        exact ⟨rfl, rfl⟩
      · rintro ⟨rfl, rfl⟩
        exact .nil false dir
  | cons entry rest inductionHypothesis =>
      obtain ⟨link, command⟩ := entry
      obtain ⟨rfl, onlyAndRest⟩ := List.forall_mem_cons.mp onlyAnd
      rw [← inductionHypothesis onlyAndRest]
      constructor
      · intro runs
        cases runs with
        | skip _ _ rest => exact rest
        | run proceeds _ _ => cases proceeds
        | quit _ proceeds _ => cases proceeds
      · exact .skip command rfl

/-- An and-or list behind a change of the directory runs where that leads; if it
fails, only what is behind `||` can run. -/
theorem after_runs_iff
    {change : String}
    {here target : Path}
    (absolute : target.isAbsolute = true)
    (isChange : andList? change = some [⟨[], ["cd", target.text]⟩]) :
    (list.after change .andIf).Runs here ran ending ↔
      (∃ rest, ran = changing change here target true :: rest ∧
        list.Runs target rest ending) ∨
      ∃ rest, ran = changing change here target false :: rest ∧
        RunsLinks false here list.more rest ending := by
  constructor
  · intro runs
    cases runs with
    | skip _ skips _ => cases skips
    | quit _ _ isPossible =>
        rcases isPossible target absolute isChange with isStay | isStay <;>
          cases isStay
    | @run _ after _ next _ _ _ _ _ _ isPossible rest =>
        rcases isPossible target absolute isChange with isStay | isStay
        · obtain ⟨rfl, rfl⟩ : after = true ∧ next = target := by
            simpa using isStay
          exact .inl ⟨_, rfl, rest⟩
        · obtain ⟨rfl, rfl⟩ : after = false ∧ next = here := by
            simpa using isStay
          refine .inr ⟨_, rfl, ?_⟩
          cases rest with
          | skip _ _ rest => exact rest
          | run proceeds _ _ => cases proceeds
          | quit _ proceeds _ => cases proceeds
  · rintro (⟨rest, rfl, runs⟩ | ⟨rest, rfl, runs⟩)
    · exact .run rfl (possible_changing isChange here true) runs
    · exact .run rfl (possible_changing isChange here false)
        (.skip list.first rfl runs)

end Shell
end LockBench
