import LockBench.Host.FileTree

/-!
# Ways through a file tree

A path leads to a node when every location that is left behind on the way is a
directory.  Which locations these are depends on the path alone.  So a tree in
which some locations are gone leads to what the tree led to before, except by
ways that touch what is gone.
-/

namespace LockBench

/-! ## The names of entries -/

namespace Path

/-- A text that names an entry of a directory. -/
def IsName (text : String) : Prop :=
  '/' ∉ text.toList ∧ '\x00' ∉ text.toList ∧ text ∉ ["", ".", ".."]

instance (text : String) : Decidable (IsName text) :=
  inferInstanceAs (Decidable (_ ∧ _))

theorem IsName.isStep
    {name : String}
    (isName : IsName name) : isStep name = true := by
  obtain ⟨_, _, noOther⟩ := isName
  simp only [List.mem_cons, List.not_mem_nil, or_false, not_or] at noOther
  simp [Path.isStep, noOther]

theorem IsName.ne_up
    {name : String}
    (isName : IsName name) : name ≠ ".." := by
  rintro rfl
  exact absurd isName (by decide)

/-- A text is split at a mark wherever it stands. -/
theorem splitFrom_append
    (mark : Char)
    (left right current : List Char) :
    splitFrom mark current (left ++ mark :: right) =
      splitFrom mark current left ++ splitFrom mark [] right := by
  induction left generalizing current with
  | nil => simp [splitFrom]
  | cons c rest inductionHypothesis =>
      by_cases isMark : c = mark
      · simp [splitFrom, isMark, inductionHypothesis]
      · simp [splitFrom, isMark, inductionHypothesis]

/-- A text without marks is one part. -/
theorem splitFrom_of_notMem
    {mark : Char}
    {text : List Char}
    (noMark : mark ∉ text)
    (current : List Char) :
    splitFrom mark current text =
      [String.ofList (current.reverse ++ text)] := by
  induction text generalizing current with
  | nil => simp [splitFrom]
  | cons c rest inductionHypothesis =>
      rw [List.mem_cons, not_or] at noMark
      rw [splitFrom, if_neg (Ne.symm noMark.1), inductionHypothesis noMark.2]
      simp

/-- The parts of a path below a directory are parts that lead to the directory
and the name. -/
theorem parts_join
    (dir : Path)
    {name : String}
    (noSlash : '/' ∉ name.toList) :
    ∃ front, (dir.join name).parts = front ++ [name] ∧
      front.filter isStep = dir.steps := by
  have notAbsolute : name.toList.head? ≠ some '/' := by
    intro starts
    exact noSlash (List.mem_of_head? starts)
  have name_eq : splitFrom '/' [] name.toList = [name] := by
    simpa using splitFrom_of_notMem noSlash []
  rw [join, if_neg notAbsolute]
  by_cases isEmpty : dir.text.isEmpty = true
  · have text_eq : dir.text = "" := by simpa using isEmpty
    refine ⟨[], ?_, ?_⟩
    · simp [text_eq, parts, splitAt, name_eq]
    · simp [steps, parts, splitAt, text_eq, splitFrom, Path.isStep]
  by_cases endsInSlash : dir.text.toList.getLast? = some '/'
  · obtain ⟨init, text_eq⟩ := List.getLast?_eq_some_iff.mp endsInSlash
    refine ⟨splitFrom '/' [] init, ?_, ?_⟩
    · simp [parts, splitAt, text_eq, splitFrom_append, name_eq]
    · simp [steps, parts, splitAt, text_eq, splitFrom_append, splitFrom,
        Path.isStep]
  · refine ⟨dir.parts, ?_, rfl⟩
    simp [isEmpty, endsInSlash, parts, splitAt, splitFrom_append, name_eq]

/-- One step leads from a directory to an entry of it. -/
theorem steps_join
    (dir : Path)
    {name : String}
    (isName : IsName name) :
    (dir.join name).steps = dir.steps ++ [name] := by
  obtain ⟨front, parts_eq, front_eq⟩ := parts_join dir isName.1
  rw [steps, parts_eq, List.filter_append, front_eq]
  simp [isName.isStep]

/-- What is below an absolute path is absolute. -/
theorem isAbsolute_join
    {dir : Path}
    (absolute : dir.isAbsolute = true)
    (child : String) :
    (dir.join child).isAbsolute = true := by
  have starts : dir.text.toList.head? = some '/' := by
    simpa [isAbsolute] using absolute
  rw [join]
  split
  · simpa [isAbsolute] using by assumption
  · split <;> simp [isAbsolute, starts]

/-- The characters of a path below another one. -/
theorem mem_join
    {dir : Path}
    {child : String}
    {c : Char}
    (present : c ∈ (dir.join child).text.toList) :
    c ∈ dir.text.toList ∨ c = '/' ∨ c ∈ child.toList := by
  rw [join] at present
  split at present
  · exact .inr (.inr present)
  · split at present
    · rw [String.toList_append, List.mem_append] at present
      exact present.elim .inl fun inChild => .inr (.inr inChild)
    · simp only [String.toList_append, List.mem_append] at present
      rcases present with (inDir | isSlash) | inChild
      · exact .inl inDir
      · exact .inr (.inl (by simpa using isSlash))
      · exact .inr (.inr inChild)

end Path

/-! ## The way that steps lead -/

namespace Location

/-- The location that a step leads to. -/
def after
    (location : Location)
    (step : String) : Location :=
  if step = ".." then location.dropLast else location ++ [step]

/-- The location that steps lead to. -/
def follow
    (location : Location)
    (steps : List String) : Location :=
  steps.foldl after location

/-- The locations that are left behind by steps. -/
def passed
    (location : Location) : List String -> List Location
  | [] => []
  | step :: rest => location :: passed (location.after step) rest

@[simp] theorem follow_nil (location : Location) :
    location.follow [] = location := rfl

@[simp] theorem follow_cons
    (location : Location)
    (step : String)
    (rest : List String) :
    location.follow (step :: rest) = (location.after step).follow rest := rfl

theorem follow_append
    (location : Location)
    (steps others : List String) :
    location.follow (steps ++ others) = (location.follow steps).follow others :=
  List.foldl_append

theorem passed_append
    (location : Location)
    (steps others : List String) :
    location.passed (steps ++ others) =
      location.passed steps ++ (location.follow steps).passed others := by
  induction steps generalizing location with
  | nil => rfl
  | cons step rest inductionHypothesis =>
      simp [passed, inductionHypothesis]

/-- Steps without double dots lead further down one by one. -/
theorem length_follow
    (location : Location)
    {steps : List String}
    (downward : ".." ∉ steps) :
    (location.follow steps).length = location.length + steps.length := by
  induction steps generalizing location with
  | nil => rfl
  | cons step rest inductionHypothesis =>
      rw [List.mem_cons, not_or] at downward
      rw [follow_cons, inductionHypothesis _ downward.2, after,
        if_neg (Ne.symm downward.1)]
      simp only [List.length_append, List.length_cons, List.length_nil]
      omega

/-- What is left behind by such steps is not as far down as where they
lead. -/
theorem length_lt_of_mem_passed
    {location earlier : Location}
    {steps : List String}
    (downward : ".." ∉ steps)
    (leftBehind : earlier ∈ location.passed steps) :
    earlier.length < (location.follow steps).length := by
  rw [length_follow location downward]
  induction steps generalizing location with
  | nil => simp [passed] at leftBehind
  | cons step rest inductionHypothesis =>
      rw [List.mem_cons, not_or] at downward
      rw [passed, List.mem_cons] at leftBehind
      rcases leftBehind with rfl | further
      · simp
      · have shorter := inductionHypothesis downward.2 further
        rw [after, if_neg (Ne.symm downward.1)] at shorter
        simp only [List.length_append, List.length_cons, List.length_nil]
          at shorter ⊢
        omega

end Location

namespace Path

/-- The location that an absolute path leads to, if it leads anywhere. -/
def location (path : Path) : Location :=
  Location.follow [] path.steps

/-- The locations that are left behind on the way of an absolute path. -/
def way (path : Path) : List Location :=
  Location.passed [] path.steps

theorem location_join
    (dir : Path)
    {name : String}
    (isName : IsName name) :
    (dir.join name).location = dir.location ++ [name] := by
  rw [location, steps_join dir isName, Location.follow_append,
    Location.follow_cons, Location.after, if_neg isName.ne_up]
  rfl

theorem way_join
    (dir : Path)
    {name : String}
    (isName : IsName name) :
    (dir.join name).way = dir.way ++ [dir.location] := by
  rw [way, steps_join dir isName, Location.passed_append]
  rfl

/-- The location that a path leads to from a working directory. -/
def locationFrom
    (workingDir : Location)
    (path : Path) : Location :=
  (FileTree.start workingDir path).follow path.steps

/-- A name keeps a path absolute or relative. -/
theorem isAbsolute_join_eq
    (dir : Path)
    {name : String}
    (isName : IsName name) :
    (dir.join name).isAbsolute = dir.isAbsolute := by
  have notAbsolute : name.toList.head? ≠ some '/' := by
    intro starts
    exact isName.1 (List.mem_of_head? starts)
  rw [join, if_neg notAbsolute]
  cases text_eq : dir.text.toList with
  | nil =>
      have isEmpty : dir.text = "" := by simpa using text_eq
      simp [isAbsolute, isEmpty, notAbsolute]
  | cons c rest => split <;> simp [isAbsolute, text_eq]

theorem locationFrom_join
    (workingDir : Location)
    (dir : Path)
    {name : String}
    (isName : IsName name) :
    (dir.join name).locationFrom workingDir =
      dir.locationFrom workingDir ++ [name] := by
  rw [locationFrom, FileTree.start, isAbsolute_join_eq dir isName,
    steps_join dir isName, Location.follow_append, Location.follow_cons,
    Location.after, if_neg isName.ne_up]
  rfl

end Path

namespace FileTree

/-- The steps that a file can be reached by, whatever the tree. -/
def ShortSteps (steps : List String) : Prop :=
  ∀ step ∈ steps, step = ".." ∨ step.utf8ByteSize ≤ nameLimit

/-- Steps can be followed to a node where all that is left behind is a
directory. -/
theorem walk_bind_get?
    (tree : FileTree)
    (location place : Location)
    (steps : List String)
    (node : Node) :
    (tree.walk location steps = .ok place ∧ tree.get? place = some node) ↔
      ShortSteps steps ∧ place = location.follow steps ∧
        (∀ earlier ∈ location.passed steps,
          tree.get? earlier = some .directory) ∧
        tree.get? place = some node := by
  induction steps generalizing location with
  | nil =>
      simp only [walk, Except.ok.injEq, Location.follow_nil, Location.passed,
        ShortSteps, List.not_mem_nil, false_implies, implies_true, true_and]
      exact and_congr_left fun _ => eq_comm
  | cons step rest inductionHypothesis =>
      simp only [walk, Location.follow_cons, Location.passed, ShortSteps,
        List.forall_mem_cons]
      cases here_eq : tree.get? location with
      | none => simp
      | some here =>
          cases here with
          | file content executable => simp
          | directory =>
              by_cases isUp : step = ".."
              · simp only [isUp, if_true, true_or, true_and,
                  inductionHypothesis, Location.after, ShortSteps]
              simp only [isUp, if_false, false_or, true_and, Location.after]
              by_cases isLong : nameLimit < step.utf8ByteSize
              · simp [isLong, Nat.not_le_of_lt isLong]
              · simp only [isLong, if_false, Nat.le_of_not_lt isLong, true_and]
                cases next_eq : tree.get? (location ++ [step]) with
                | some next => simp only [inductionHypothesis, ShortSteps]
                | none =>
                    -- Nothing is where the step leads, so it is neither left
                    -- behind nor the end of the way.
                    simp only [reduceCtorEq, false_and, false_iff, not_and]
                    rintro - rfl directories present
                    cases rest with
                    | nil => simp [next_eq] at present
                    | cons other others =>
                        simp [Location.passed, next_eq] at directories

/-- A path leads to a node at a place. -/
structure Leads
    (tree : FileTree)
    (workingDir : Location)
    (path : Path)
    (place : Location)
    (node : Node) : Prop where
  /-- A file can have the path. -/
  usable : unusable? path = none
  /-- No step is too long. -/
  short : ShortSteps path.steps
  /-- The place is where the steps lead. -/
  place_eq : place = (start workingDir path).follow path.steps
  /-- All that is left behind is a directory. -/
  passes : ∀ earlier ∈ (start workingDir path).passed path.steps,
    tree.get? earlier = some .directory
  /-- The node is there. -/
  present : tree.get? place = some node
  /-- A file is not asked to be a directory. -/
  suits : node ≠ .directory -> path.asksDirectory = false

theorem locate_eq_ok_iff
    (tree : FileTree)
    (workingDir : Location)
    (path : Path)
    (place : Location)
    (node : Node)
    (present : tree.get? place = some node) :
    tree.locate workingDir path = .ok place ↔
      unusable? path = none ∧
        tree.walk (start workingDir path) path.steps = .ok place ∧
        (node ≠ .directory -> path.asksDirectory = false) := by
  rw [locate]
  cases unusable? path with
  | some cause => simp
  | none =>
      cases walk_eq : tree.walk (start workingDir path) path.steps with
      | error cause => simp [bind, Except.bind]
      | ok location =>
          simp only [bind, Except.bind, true_and, Except.ok.injEq]
          by_cases isPlace : location = place
          · cases node with
            | directory => simp [isPlace, present, pure, Except.pure]
            | file content executable =>
                by_cases asks : path.asksDirectory = true
                · simp [isPlace, present, asks]
                · simp [isPlace, present, asks, pure, Except.pure]
          · simp only [isPlace, false_and, iff_false]
            split
            · split <;> simp [pure, Except.pure, isPlace]
            · simp [pure, Except.pure, isPlace]

/-- A path is found where it leads to. -/
theorem find_eq_ok_iff
    (tree : FileTree)
    (workingDir : Location)
    (path : Path)
    (place : Location)
    (node : Node) :
    tree.find workingDir path = .ok (place, node) ↔
      tree.Leads workingDir path place node := by
  have found_iff : tree.find workingDir path = .ok (place, node) ↔
      tree.locate workingDir path = .ok place ∧
        tree.get? place = some node := by
    rw [find]
    cases tree.locate workingDir path with
    | error cause => simp [bind, Except.bind]
    | ok location =>
        simp only [bind, Except.bind, Except.ok.injEq]
        cases here_eq : tree.get? location with
        | none =>
            simp only [reduceCtorEq, false_iff, not_and]
            rintro rfl
            simp [here_eq]
        | some here =>
            simp only [pure, Except.pure, Except.ok.injEq, Prod.mk.injEq]
            apply and_congr_right
            rintro rfl
            simp [here_eq]
  rw [found_iff]
  constructor
  · rintro ⟨located, present⟩
    rw [locate_eq_ok_iff tree workingDir path place node present] at located
    obtain ⟨usable, walked, suits⟩ := located
    obtain ⟨short, place_eq, passes, _⟩ :=
      (walk_bind_get? tree _ place _ node).mp ⟨walked, present⟩
    exact ⟨usable, short, place_eq, passes, present, suits⟩
  · intro leads
    refine ⟨?_, leads.present⟩
    rw [locate_eq_ok_iff tree workingDir path place node leads.present]
    have walked := (walk_bind_get? tree _ place _ node).mpr
      ⟨leads.short, leads.place_eq, leads.passes, leads.present⟩
    exact ⟨leads.usable, walked.1, leads.suits⟩

/-- A path is a directory's where it leads to one. -/
theorem isDirectory_iff
    (tree : FileTree)
    (workingDir : Location)
    (path : Path) :
    tree.isDirectory workingDir path = true ↔
      ∃ place, tree.Leads workingDir path place .directory := by
  simp only [← find_eq_ok_iff, isDirectory]
  cases tree.find workingDir path with
  | error cause => simp
  | ok found =>
      obtain ⟨place, node⟩ := found
      cases node <;> simp

/-! ## Absolute paths -/

section Absolute

variable {tree : FileTree} {workingDir : Location} {path : Path}
  {place : Location} {node : Node}

theorem start_of_absolute
    (absolute : path.isAbsolute = true)
    (workingDir : Location) : start workingDir path = [] := by
  simp [start, absolute]

theorem Leads.place_eq_location
    (leads : tree.Leads workingDir path place node)
    (absolute : path.isAbsolute = true) : place = path.location := by
  rw [leads.place_eq, start_of_absolute absolute]
  rfl

theorem leads_location_of_isDirectory
    (absolute : path.isAbsolute = true)
    (isDirectory : tree.isDirectory workingDir path = true) :
    tree.Leads workingDir path path.location .directory := by
  obtain ⟨place, leads⟩ :=
    (tree.isDirectory_iff workingDir path).mp isDirectory
  rw [← leads.place_eq_location absolute]
  exact leads

/-- All that an absolute path leaves behind on its way is a directory. -/
theorem Leads.isDirectory_of_mem_way
    (leads : tree.Leads workingDir path place node)
    (absolute : path.isAbsolute = true)
    {earlier : Location}
    (onWay : earlier ∈ path.way) :
    tree.get? earlier = some .directory := by
  apply leads.passes
  rw [start_of_absolute absolute]
  exact onWay

end Absolute

/-- Something is where a path leads to. -/
def Reaches
    (tree : FileTree)
    (workingDir : Location)
    (path : Path) : Prop :=
  ∃ place node, tree.Leads workingDir path place node

/-! ## Trees in which something is gone -/

/-- A tree is another one in which some locations are gone. -/
structure Pruned
    (tree : FileTree)
    (removed : Location -> Prop)
    (after : FileTree) : Prop where
  /-- Nothing is at the locations that are gone. -/
  gone : ∀ location, removed location -> after.get? location = none
  /-- All else is as it was. -/
  kept : ∀ location, ¬removed location ->
    after.get? location = tree.get? location

namespace Pruned

variable {tree after : FileTree} {removed : Location -> Prop}

/-- Nothing needs to be gone. -/
theorem rfl : Pruned tree (fun _ => False) tree :=
  ⟨fun _ => False.elim, fun _ _ => Eq.refl _⟩

/-- What is gone in two steps is gone altogether. -/
theorem trans
    {last : FileTree}
    {others : Location -> Prop}
    (first : Pruned tree removed after)
    (second : Pruned after others last) :
    Pruned tree (fun location => removed location ∨ others location) last where
  gone location isGone := by
    by_cases isOther : others location
    · exact second.gone location isOther
    · rw [second.kept location isOther]
      exact first.gone location (isGone.resolve_right isOther)
  kept location isKept := by
    rw [not_or] at isKept
    rw [second.kept location isKept.2, first.kept location isKept.1]

/-- Only which locations are gone matters. -/
theorem congr
    {others : Location -> Prop}
    (pruned : Pruned tree removed after)
    (same : ∀ location, removed location ↔ others location) :
    Pruned tree others after where
  gone location isGone := pruned.gone location ((same location).mpr isGone)
  kept location isKept :=
    pruned.kept location fun isGone => isKept ((same location).mp isGone)

theorem get?_eq_some_iff
    (pruned : Pruned tree removed after)
    (location : Location)
    (node : Node) :
    after.get? location = some node ↔
      tree.get? location = some node ∧ ¬removed location := by
  by_cases isGone : removed location
  · simp [pruned.gone location isGone, isGone]
  · simp [pruned.kept location isGone, isGone]

/-- A path leads to what it led to before, if neither that nor anything on the
way is gone. -/
theorem leads_iff
    (pruned : Pruned tree removed after)
    (workingDir : Location)
    (path : Path)
    (place : Location)
    (node : Node) :
    after.Leads workingDir path place node ↔
      tree.Leads workingDir path place node ∧ ¬removed place ∧
        ∀ earlier ∈ (start workingDir path).passed path.steps,
          ¬removed earlier := by
  constructor
  · intro leads
    have wasThere := (pruned.get?_eq_some_iff place node).mp leads.present
    have passed := fun earlier member =>
      (pruned.get?_eq_some_iff earlier .directory).mp
        (leads.passes earlier member)
    exact ⟨{ leads with
        passes := fun earlier member => (passed earlier member).1
        present := wasThere.1 },
      wasThere.2, fun earlier member => (passed earlier member).2⟩
  · rintro ⟨leads, isKept, passesKept⟩
    exact { leads with
      passes := fun earlier member =>
        (pruned.get?_eq_some_iff earlier .directory).mpr
          ⟨leads.passes earlier member, passesKept earlier member⟩
      present := (pruned.get?_eq_some_iff place node).mpr
        ⟨leads.present, isKept⟩ }

/-- An absolute path leads to what it led to before, if neither its location
nor anything on its way is gone. -/
theorem leads_iff_of_absolute
    (pruned : Pruned tree removed after)
    {path : Path}
    (absolute : path.isAbsolute = true)
    (workingDir : Location)
    (place : Location)
    (node : Node) :
    after.Leads workingDir path place node ↔
      tree.Leads workingDir path place node ∧ ¬removed path.location ∧
        ∀ earlier ∈ path.way, ¬removed earlier := by
  rw [pruned.leads_iff, start_of_absolute absolute]
  refine and_congr_right fun leads => ?_
  rw [leads.place_eq_location absolute]
  rfl

theorem reaches_iff_of_absolute
    (pruned : Pruned tree removed after)
    {path : Path}
    (absolute : path.isAbsolute = true)
    (workingDir : Location) :
    after.Reaches workingDir path ↔
      tree.Reaches workingDir path ∧ ¬removed path.location ∧
        ∀ earlier ∈ path.way, ¬removed earlier := by
  simp only [Reaches, pruned.leads_iff_of_absolute absolute,
    exists_and_right]

end Pruned

/-- The nodes left by a filter on locations. -/
theorem lookup_filter
    (keep : Location -> Bool)
    (location : Location)
    (nodes : List (Location × Node)) :
    (nodes.filter fun node => keep node.1).lookup location =
      if keep location then nodes.lookup location else none := by
  induction nodes with
  | nil => simp
  | cons first rest inductionHypothesis =>
      obtain ⟨place, node⟩ := first
      by_cases isPlace : location = place
      · subst isPlace
        by_cases isKept : keep location = true
        · simp [isKept]
        · simp [isKept, inductionHypothesis]
      · have differs : (location == place) = false := by simpa using isPlace
        by_cases isKept : keep place = true
        · simp [isKept, List.lookup_cons, differs, inductionHypothesis]
        · simp [isKept, List.lookup_cons, differs, inductionHypothesis]

theorem get?_of_ne_root
    (tree : FileTree)
    {location : Location}
    (below : location ≠ []) :
    tree.get? location = tree.nodes.lookup location := by
  cases location with
  | nil => exact absurd rfl below
  | cons name rest => rfl

theorem pruned_filter
    (tree : FileTree)
    {keep : Location -> Bool}
    (keepsRoot : keep [] = true) :
    Pruned tree (fun location => keep location = false)
      ⟨tree.nodes.filter fun node => keep node.1⟩ where
  gone location isGone := by
    have below : location ≠ [] := by
      rintro rfl
      simp [keepsRoot] at isGone
    rw [get?_of_ne_root _ below, lookup_filter]
    simp [isGone]
  kept location isKept := by
    cases location with
    | nil => rfl
    | cons name rest =>
        rw [get?_of_ne_root _ (by simp), get?_of_ne_root _ (by simp),
          lookup_filter, if_pos (by simpa using isKept)]

/-- A location that is removed is gone, and no other. -/
theorem pruned_remove
    (tree : FileTree)
    {place : Location}
    (below : place ≠ []) :
    Pruned tree (· = place) (tree.remove place) := by
  have pruned := @pruned_filter tree (fun location => location ≠ place)
    (by simpa using Ne.symm below)
  exact pruned.congr (by simp)

/-- A location below which all is removed is gone with what was below it. -/
theorem pruned_removeBelow
    (tree : FileTree)
    {place : Location}
    (below : place ≠ []) :
    Pruned tree (place <+: ·) (tree.removeBelow place) := by
  have pruned := @pruned_filter tree
    (fun location => !place.isPrefixOf location)
    (by
      rw [Bool.not_eq_true', ← Bool.not_eq_true, List.isPrefixOf_iff_prefix,
        List.prefix_nil]
      exact below)
  exact pruned.congr (by simp)

end FileTree
end LockBench
