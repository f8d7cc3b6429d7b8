import LockBench.Proofs.Host.Walk
import LockBench.Proofs.Shell.Lines

/-!
# Removals in a shell line

A preparation is a list of removals.  A file is removed if it is there, and a
directory in its place stops the list; or everything at and below a path is
removed, whatever it is.  What is not there need not be removed.
-/

namespace LockBench
namespace Shell

/-- A path below another one holds no NUL where neither part does. -/
theorem nulFree_join
    {base : Path}
    {child : String}
    (nulFree : NulFree base.text)
    (nulFreeChild : NulFree child) : NulFree (base.join child).text := by
  intro present
  rcases Path.mem_join present with inBase | isSlash | inChild
  · exact nulFree inBase
  · exact absurd isSlash (by decide)
  · exact nulFreeChild inChild

/-- A removal that a line asks for. -/
structure Removal where
  /-- Whether directories are removed with all that is in them. -/
  recursive : Bool
  /-- What is removed. -/
  target : Path
  deriving DecidableEq, Repr

namespace Removal

/-- The options of a removal. -/
def option (removal : Removal) : String :=
  if removal.recursive then "-rf" else "-f"

/-- A removal as a simple command. -/
def command (removal : Removal) : SimpleCommand :=
  ⟨[], ["rm", removal.option, removal.target.text]⟩

/-- A removal as a line. -/
def line (removal : Removal) : String :=
  "rm " ++ removal.option ++ " " ++ quote removal.target.text

/-- The tree after a removal, or `none` where it fails.  The root is not
removed. -/
def perform?
    (removal : Removal)
    (workingDir : Location)
    (tree : FileTree) : Option FileTree :=
  match tree.find workingDir removal.target with
  | .error _ => some tree
  | .ok ([], _) => none
  | .ok (place, .directory) =>
    if removal.recursive then some (tree.removeBelow place) else none
  | .ok (place, .file _ _) =>
    if removal.recursive then some (tree.removeBelow place)
    else some (tree.remove place)

/-- A removal takes a location away. -/
def Removes
    (removal : Removal)
    (workingDir : Location)
    (tree : FileTree)
    (location : Location) : Prop :=
  ∃ place node, tree.Leads workingDir removal.target place node ∧
    if removal.recursive then place <+: location else location = place

/-- A removal can be carried out: it is not aimed at the root, and not at a
directory unless it is recursive. -/
def Permitted
    (removal : Removal)
    (workingDir : Location)
    (tree : FileTree) : Prop :=
  ∀ place node, tree.Leads workingDir removal.target place node ->
    place ≠ [] ∧ (removal.recursive = false -> node ≠ .directory)

/-- A location lies where the removal of an absolute path is aimed at. -/
def Covers
    (removal : Removal)
    (location : Location) : Prop :=
  if removal.recursive then removal.target.location <+: location
  else location = removal.target.location

theorem covers_target (removal : Removal) :
    removal.Covers removal.target.location := by
  rw [Covers]
  split
  · exact List.prefix_rfl
  · rfl

/-- The removal of an absolute path takes away what it is aimed at, where
there is something. -/
theorem removes_iff_of_absolute
    {removal : Removal}
    (absolute : removal.target.isAbsolute = true)
    (workingDir : Location)
    (tree : FileTree)
    (location : Location) :
    removal.Removes workingDir tree location ↔
      tree.Reaches workingDir removal.target ∧ removal.Covers location := by
  constructor
  · rintro ⟨place, node, leads, removes⟩
    rw [leads.place_eq_location absolute] at removes
    exact ⟨⟨place, node, leads⟩, removes⟩
  · rintro ⟨⟨place, node, leads⟩, covers⟩
    refine ⟨place, node, leads, ?_⟩
    rw [leads.place_eq_location absolute]
    exact covers

/-- Everything at and below an absolute path may be removed, except for the
root. -/
theorem permitted_of_recursive
    {removal : Removal}
    (isRecursive : removal.recursive = true)
    (absolute : removal.target.isAbsolute = true)
    (below : removal.target.location ≠ [])
    (workingDir : Location)
    (tree : FileTree) : removal.Permitted workingDir tree := by
  intro place node leads
  rw [leads.place_eq_location absolute]
  exact ⟨below, by simp [isRecursive]⟩

/-- A file that may be removed is on no way that leads somewhere. -/
theorem Permitted.not_removes_of_mem_way
    {removal : Removal}
    {workingDir : Location}
    {tree : FileTree}
    (permitted : removal.Permitted workingDir tree)
    (notRecursive : removal.recursive = false)
    {path : Path}
    (absolute : path.isAbsolute = true)
    (reaches : tree.Reaches workingDir path)
    {earlier : Location}
    (onWay : earlier ∈ path.way) :
    ¬removal.Removes workingDir tree earlier := by
  rintro ⟨place, node, leads, removes⟩
  obtain rfl : earlier = place := by simpa [notRecursive] using removes
  obtain ⟨other, otherNode, otherLeads⟩ := reaches
  have isDirectory := otherLeads.isDirectory_of_mem_way absolute onWay
  have notDirectory := (permitted earlier node leads).2 notRecursive
  rw [leads.present] at isDirectory
  exact notDirectory (Option.some.inj isDirectory)

/-- What leads nowhere need not be removed. -/
theorem perform?_of_missing
    {removal : Removal}
    {workingDir : Location}
    {tree : FileTree}
    (missing : ¬tree.Reaches workingDir removal.target) :
    removal.perform? workingDir tree = some tree := by
  rw [perform?]
  cases found_eq : tree.find workingDir removal.target with
  | error cause => rfl
  | ok found =>
      obtain ⟨place, node⟩ := found
      rw [FileTree.find_eq_ok_iff] at found_eq
      exact absurd ⟨place, node, found_eq⟩ missing

/-- A permitted removal succeeds, and takes away what it is aimed at and
nothing else. -/
theorem perform?_eq_some
    {removal : Removal}
    {workingDir : Location}
    {tree : FileTree}
    (permitted : removal.Permitted workingDir tree) :
    ∃ after, removal.perform? workingDir tree = some after ∧
      tree.Pruned (removal.Removes workingDir tree) after := by
  cases found_eq : tree.find workingDir removal.target with
  | error cause =>
      have missing : ¬tree.Reaches workingDir removal.target := by
        rintro ⟨place, node, leads⟩
        rw [← FileTree.find_eq_ok_iff, found_eq] at leads
        cases leads
      refine ⟨tree, perform?_of_missing missing, FileTree.Pruned.rfl.congr ?_⟩
      intro location
      rw [false_iff]
      rintro ⟨place, node, leads, _⟩
      exact missing ⟨place, node, leads⟩
  | ok found =>
      obtain ⟨place, node⟩ := found
      have leads := (tree.find_eq_ok_iff workingDir removal.target place
        node).mp found_eq
      obtain ⟨below, noDirectory⟩ := permitted place node leads
      have removes_iff : ∀ location,
          removal.Removes workingDir tree location ↔
            if removal.recursive then place <+: location
            else location = place := by
        intro location
        constructor
        · rintro ⟨other, otherNode, otherLeads, removes⟩
          rw [otherLeads.place_eq, ← leads.place_eq] at removes
          exact removes
        · exact fun removes => ⟨place, node, leads, removes⟩
      obtain ⟨name, rest, rfl⟩ := List.exists_cons_of_ne_nil below
      cases isRecursive : removal.recursive with
      | true =>
          refine ⟨tree.removeBelow (name :: rest), ?_,
            (tree.pruned_removeBelow below).congr ?_⟩
          · cases node <;> simp [perform?, found_eq, isRecursive]
          · intro location
            simp [removes_iff, isRecursive]
      | false =>
          refine ⟨tree.remove (name :: rest), ?_,
            (tree.pruned_remove below).congr ?_⟩
          · cases node with
            | directory => exact absurd rfl (noDirectory isRecursive)
            | file content executable =>
                simp [perform?, found_eq, isRecursive]
          · intro location
            simp [removes_iff, isRecursive]

end Removal

/-! ## Lines of removals -/

/-- The tree after a simple command, or `none` where it fails or is none of
those that preparations are made of. -/
def SimpleCommand.perform?
    (workingDir : Location)
    (tree : FileTree) : SimpleCommand -> Option FileTree
  | ⟨[], ["true"]⟩ => some tree
  | ⟨[], ["rm", option, operand]⟩ =>
    -- An operand that starts with a dash would be one more option.
    if operand.toList.head? = some '-' then none
    else if option = "-f" then
      Removal.perform? ⟨false, ⟨operand⟩⟩ workingDir tree
    else if option = "-rf" then
      Removal.perform? ⟨true, ⟨operand⟩⟩ workingDir tree
    else none
  | _ => none

/-- The tree after a list of commands, each of which runs if all before it
succeeded. -/
def performAll?
    (workingDir : Location)
    (tree : FileTree)
    (commands : List SimpleCommand) : Option FileTree :=
  commands.foldlM (SimpleCommand.perform? workingDir) tree

/-- The tree after a line, or `none` where it fails. -/
def run?
    (workingDir : Location)
    (tree : FileTree)
    (line : String) : Option FileTree :=
  (andList? line).bind (performAll? workingDir tree)

@[simp] theorem performAll?_nil
    (workingDir : Location)
    (tree : FileTree) :
    performAll? workingDir tree [] = some tree := rfl

@[simp] theorem performAll?_cons
    (workingDir : Location)
    (tree : FileTree)
    (command : SimpleCommand)
    (rest : List SimpleCommand) :
    performAll? workingDir tree (command :: rest) =
      (command.perform? workingDir tree).bind
        (performAll? workingDir · rest) := by
  simp only [performAll?, List.foldlM_cons]
  rfl

/-- A removal of an absolute path is carried out as a command. -/
theorem Removal.perform?_command
    {removal : Removal}
    (absolute : removal.target.isAbsolute = true)
    (workingDir : Location)
    (tree : FileTree) :
    removal.command.perform? workingDir tree =
      removal.perform? workingDir tree := by
  have starts : removal.target.text.toList.head? = some '/' := by
    simpa [Path.isAbsolute] using absolute
  obtain ⟨recursive, target⟩ := removal
  cases recursive <;>
    simp [command, Removal.option, SimpleCommand.perform?, starts]

/-- The line of a removal reads as its command. -/
theorem Removal.readsList_line
    {removal : Removal}
    (nulFree : NulFree removal.target.text) :
    ReadsList removal.line.toList [removal.command] := by
  have bareOption : IsBareWord removal.option := by
    rw [Removal.option]
    split <;> decide
  have bareName : IsBareWord "rm" := by decide
  have readable : ∀ piece ∈ [Piece.bare "rm", .bare removal.option,
      .quoted removal.target.text], piece.Readable := by
    simp only [List.forall_mem_cons, List.not_mem_nil, false_implies,
      implies_true, and_true]
    exact ⟨reads_bareWord bareName, reads_bareWord bareOption,
      reads_quote nulFree⟩
  have reads := readsList_words (assignment?_bareLetters bareName) readable
  simpa [Piece.bare, Piece.quoted, Removal.line, Removal.command] using reads

/-- The lines of some removals, put together, read as all of them. -/
theorem Removal.readsList_lines
    {removals : List Removal}
    (someRemoval : removals ≠ [])
    (nulFree : ∀ removal ∈ removals, NulFree removal.target.text) :
    ReadsList (" && ".intercalate (removals.map Removal.line)).toList
      (removals.map Removal.command) := by
  induction removals with
  | nil => exact absurd rfl someRemoval
  | cons removal rest inductionHypothesis =>
      rw [List.forall_mem_cons] at nulFree
      have readsFirst := Removal.readsList_line nulFree.1
      cases rest with
      | nil => simpa using readsFirst
      | cons next others =>
          have readsRest := inductionHypothesis (by simp) nulFree.2
          have readsAll := readsFirst.andIf readsRest
          rw [List.map_cons, String.intercalate_cons_of_ne_nil (by simp)]
          simpa using readsAll

/-! ## Removals read back -/

/-- The removal that a command is, if it is one. -/
def Removal.ofCommand? : SimpleCommand -> Option Removal
  | ⟨[], ["rm", "-f", target]⟩ => some ⟨false, ⟨target⟩⟩
  | ⟨[], ["rm", "-rf", target]⟩ => some ⟨true, ⟨target⟩⟩
  | _ => none

/-- The removals that a line is made of, if it is made of nothing else. -/
def removals? (line : String) : Option (List Removal) :=
  (andList? line).bind fun commands => commands.mapM Removal.ofCommand?

theorem Removal.ofCommand?_command (removal : Removal) :
    ofCommand? removal.command = some removal := by
  obtain ⟨recursive, target⟩ := removal
  cases recursive <;> rfl

/-- The lines of some removals, put together, are read back as these. -/
theorem removals?_lines
    {removals : List Removal}
    (someRemoval : removals ≠ [])
    (nulFree : ∀ removal ∈ removals, NulFree removal.target.text) :
    removals? (" && ".intercalate (removals.map Removal.line)) =
      some removals := by
  have read := (Removal.readsList_lines someRemoval nulFree).andList?_eq
  rw [String.ofList_toList] at read
  rw [removals?, read, Option.bind_some]
  clear read someRemoval nulFree
  induction removals with
  | nil => rfl
  | cons removal rest inductionHypothesis =>
      rw [List.map_cons, List.mapM_cons, Removal.ofCommand?_command,
        inductionHypothesis]
      rfl

/-! ## Removals one after another -/

namespace Removal

/-- The tree after removals, or `none` where one of them fails. -/
def performAll?
    (workingDir : Location)
    (tree : FileTree)
    (removals : List Removal) : Option FileTree :=
  removals.foldlM (fun tree removal => removal.perform? workingDir tree) tree

/-- The line of some removals carries them out. -/
theorem run?_lines
    {removals : List Removal}
    (someRemoval : removals ≠ [])
    (nulFree : ∀ removal ∈ removals, NulFree removal.target.text)
    (absolute : ∀ removal ∈ removals, removal.target.isAbsolute = true)
    (workingDir : Location)
    (tree : FileTree) :
    run? workingDir tree (" && ".intercalate (removals.map line)) =
      performAll? workingDir tree removals := by
  have read := (readsList_lines someRemoval nulFree).andList?_eq
  rw [String.ofList_toList] at read
  rw [run?, read, Option.bind_some]
  clear read someRemoval nulFree
  induction removals generalizing tree with
  | nil => rfl
  | cons removal rest inductionHypothesis =>
      rw [List.forall_mem_cons] at absolute
      rw [List.map_cons, performAll?_cons, perform?_command absolute.1,
        performAll?, List.foldlM_cons]
      cases removal.perform? workingDir tree with
      | none => rfl
      | some after => exact inductionHypothesis absolute.2 after

/-- Removals of what leads nowhere change nothing. -/
theorem performAll?_of_missing
    {removals : List Removal}
    {workingDir : Location}
    {tree : FileTree}
    (missing : ∀ removal ∈ removals,
      ¬tree.Reaches workingDir removal.target) :
    performAll? workingDir tree removals = some tree := by
  induction removals with
  | nil => rfl
  | cons removal rest inductionHypothesis =>
      rw [List.forall_mem_cons] at missing
      rw [performAll?, List.foldlM_cons, perform?_of_missing missing.1]
      exact inductionHypothesis missing.2

/-- One removal that is only wanted in some cases, before others. -/
theorem performAll?_ite_append
    (wanted : Bool)
    {removal : Removal}
    {workingDir : Location}
    {tree : FileTree}
    (permitted : removal.Permitted workingDir tree) :
    ∃ after, tree.Pruned (fun location => wanted = true ∧
        removal.Removes workingDir tree location) after ∧
      ∀ rest, performAll? workingDir tree
        ((if wanted then [removal] else []) ++ rest) =
          performAll? workingDir after rest := by
  cases wanted with
  | false =>
      exact ⟨tree, FileTree.Pruned.rfl.congr (by simp), fun rest => rfl⟩
  | true =>
      obtain ⟨after, performed, pruned⟩ := perform?_eq_some permitted
      refine ⟨after, pruned.congr (by simp), fun rest => ?_⟩
      rw [if_pos rfl, List.singleton_append, performAll?, List.foldlM_cons,
        performed]
      rfl

end Removal

end Shell
end LockBench
