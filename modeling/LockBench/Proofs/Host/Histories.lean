import LockBench.Proofs.Host.Runs

/-!
# Histories of runs

What may be said of a moment can depend on the moments before it.  A property
of a history and of the files that are left is carried through a run if every
part of the run carries it on; parts that show no moments only need to keep it
for the files.
-/

namespace LockBench

/-! ## Lists judged from the front -/

/-- Every item of a list is as required of an item after those before it. -/
def EachAfter
    (required : List α -> α -> Prop)
    (list : List α) : Prop :=
  ∀ front item back, list = front ++ item :: back -> required front item

namespace EachAfter

variable {required : List α -> α -> Prop} {list other : List α}

theorem nil : EachAfter required [] := by
  intro front item back split_eq
  simp at split_eq

/-- A list goes on with an item that is as required after it. -/
theorem concat
    (each : EachAfter required list)
    {item : α}
    (isLast : required list item) : EachAfter required (list ++ [item]) := by
  intro front found back split_eq
  rcases List.eq_nil_or_concat back with rfl | ⟨rest, last, rfl⟩
  · obtain ⟨rfl, same⟩ := List.append_inj' split_eq rfl
    obtain rfl : item = found := by simpa using same
    exact isLast
  · have split_eq' : list ++ [item] = (front ++ found :: rest) ++ [last] := by
      simpa using split_eq
    obtain ⟨rfl, _⟩ := List.append_inj' split_eq' rfl
    exact each front found rest rfl

/-- Where more items before one do no harm, lists can be joined. -/
theorem append
    (lasts : ∀ early front item, required front item ->
      required (early ++ front) item)
    (each : EachAfter required list)
    (eachOther : EachAfter required other) :
    EachAfter required (list ++ other) := by
  intro front item back split_eq
  rcases List.append_eq_append_iff.mp split_eq with
    ⟨late, front_eq, other_eq⟩ | ⟨late, list_eq, back_eq⟩
  · rw [front_eq]
    exact lasts list late item (eachOther late item back other_eq)
  · cases late with
    | nil =>
        have other_eq : other = [] ++ item :: back := by simpa using back_eq.symm
        have kept := lasts list [] item (eachOther [] item back other_eq)
        rw [list_eq] at kept
        simpa using kept
    | cons first rest =>
        rw [List.cons_append, List.cons.injEq] at back_eq
        obtain ⟨rfl, _⟩ := back_eq
        exact each front item rest list_eq

theorem flatten
    (lasts : ∀ early front item, required front item ->
      required (early ++ front) item)
    {lists : List (List α)}
    (each : ∀ list ∈ lists, EachAfter required list) :
    EachAfter required lists.flatten := by
  induction lists with
  | nil => exact nil
  | cons list rest inductionHypothesis =>
      rw [List.forall_mem_cons] at each
      rw [List.flatten_cons]
      exact append lasts each.1 (inductionHypothesis each.2)

/-- A part of a list up to some item is judged as the list is. -/
theorem of_initial
    (each : EachAfter required other)
    (isPrefix : list <+: other) : EachAfter required list := by
  obtain ⟨rest, rfl⟩ := isPrefix
  rintro front item back rfl
  exact each front item (back ++ rest) (by simp)

end EachAfter

namespace Action

variable {world : World μ} {tree last : FileTree} {moments : List μ}

/-! ## Runs taken apart -/

/-- A run of two actions is a run of the first one and then one of the second
one. -/
theorem runs_bind
    {action : Action α}
    {next : α -> Action β}
    {result : β}
    (runs : (action >>= next).Runs world tree result moments last) :
    ∃ value early middle late,
      action.Runs world tree value early middle ∧
        (next value).Runs world middle result late last ∧
        moments = early ++ late := by
  change (action.bind next).Runs world tree result moments last at runs
  induction action generalizing tree moments with
  | done value => exact ⟨value, [], tree, moments, .done value tree, runs, rfl⟩
  | ask request continuation inductionHypothesis =>
      cases runs with
      | ask answered continued =>
          obtain ⟨value, early, middle, late, first, second, rfl⟩ :=
            inductionHypothesis _ continued
          exact ⟨value, _, middle, late, .ask answered first, second,
            (List.append_assoc _ _ _).symm⟩

/-- What follows an action that fails is left out. -/
theorem runs_run_bind
    {action : ExceptT ε Action α}
    {next : α -> ExceptT ε Action β}
    {result : Except ε β}
    (runs : (action >>= next).run.Runs world tree result moments last) :
    ∃ value early middle late,
      action.run.Runs world tree value early middle ∧
        moments = early ++ late ∧
        match value with
        | .ok given => (next given).run.Runs world middle result late last
        | .error failure =>
          result = .error failure ∧ late = [] ∧ last = middle := by
  rw [ExceptT.run_bind] at runs
  obtain ⟨value, early, middle, late, first, second, rfl⟩ := runs_bind runs
  refine ⟨value, early, middle, late, first, rfl, ?_⟩
  cases value with
  | ok given => exact second
  | error failure =>
      cases second
      exact ⟨rfl, rfl, rfl⟩

/-- An action that cannot fail comes to its result. -/
theorem runs_run_lift
    {action : Action α}
    {result : Except ε α}
    (runs : (liftM action : ExceptT ε Action α).run.Runs world tree result
      moments last) :
    ∃ value, result = .ok value ∧
      action.Runs world tree value moments last := by
  change (action >>= fun value => pure (Except.ok value) :
    Action (Except ε α)).Runs world tree result moments last at runs
  obtain ⟨value, early, middle, late, first, second, rfl⟩ := runs_bind runs
  cases second
  exact ⟨value, rfl, by simpa using first⟩

/-- A run of one request is what the world allows. -/
theorem world_of_runs
    {request : Request}
    {answer : request.Answer}
    (runs : (Action.request request).Runs world tree answer moments last) :
    world request tree answer moments last := by
  cases runs with
  | ask answered continued =>
      cases continued
      simpa using answered

/-- Where no moment is good, none is shown. -/
theorem Runs.silent
    {action : Action α}
    {required : α -> FileTree -> Prop}
    {result : α}
    (runs : action.Runs world tree result moments last)
    (ensures : action.Ensures world (fun _ => False) required tree) :
    moments = [] ∧ required result last := by
  obtain ⟨noneGood, holds⟩ := runs.of_ensures ensures
  exact ⟨List.eq_nil_iff_forall_not_mem.mpr noneGood, holds⟩

/-! ## What runs carry on -/

/-- An action carries a property of the moments seen and of the files on to
its end. -/
def Carries
    (world : World μ)
    (kept : List μ -> FileTree -> Prop)
    (action : Action α) : Prop :=
  ∀ tree result moments last, action.Runs world tree result moments last ->
    ∀ seen, kept seen tree -> kept (seen ++ moments) last

variable {kept : List μ -> FileTree -> Prop}

theorem carries_pure
    (kept : List μ -> FileTree -> Prop)
    (result : α) : Carries world kept (pure result : Action α) := by
  rintro tree _ _ _ ⟨⟩ seen holds
  simpa using holds

theorem Carries.bind
    {action : Action α}
    {next : α -> Action β}
    (first : Carries world kept action)
    (second : ∀ result, Carries world kept (next result)) :
    Carries world kept (action >>= next) := by
  intro tree result moments last runs seen holds
  obtain ⟨value, early, middle, late, runsFirst, runsSecond, rfl⟩ :=
    runs_bind runs
  rw [← List.append_assoc]
  exact second value _ _ _ _ runsSecond _
    (first _ _ _ _ runsFirst seen holds)

/-- An action carries on what each of its requests carries on. -/
theorem AsksOnly.carries
    {asked : Request -> Prop}
    {action : Action α}
    (asks : action.AsksOnly asked)
    (each : ∀ request, asked request ->
      Carries world kept (Action.request request)) :
    Carries world kept action := by
  induction action with
  | done result => exact carries_pure kept result
  | ask request next inductionHypothesis =>
      exact (each request asks.1).bind fun answer =>
        inductionHypothesis answer (asks.2 answer)

/-- What follows an action that fails is left out. -/
theorem Carries.run_bind
    {action : ExceptT ε Action α}
    {next : α -> ExceptT ε Action β}
    (first : Carries world kept action.run)
    (second : ∀ result, Carries world kept (next result).run) :
    Carries world kept (action >>= next).run := by
  rw [ExceptT.run_bind]
  refine first.bind ?_
  rintro (failure | value)
  · exact carries_pure kept _
  · exact second value

theorem Carries.run_lift
    {action : Action α}
    (carries : Carries world kept action) :
    Carries world kept (liftM action : ExceptT ε Action α).run :=
  carries.bind fun _ => carries_pure kept _

/-- An action that shows no moments carries on what it keeps. -/
theorem carries_of_keeps
    {action : Action α}
    (keeps : ∀ seen, Keeps world (fun _ => False) (kept seen) action) :
    Carries world kept action := by
  intro tree result moments last runs seen holds
  obtain ⟨rfl, holdsLast⟩ := runs.silent (keeps seen tree holds)
  simpa using holdsLast

end Action
end LockBench
