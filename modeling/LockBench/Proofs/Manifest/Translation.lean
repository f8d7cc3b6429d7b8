import LockBench.Manifest.Project
import LockBench.Proofs.Toml.Tables

/-!
# Project files keep what Pipfiles require

The text of a project file is a document of the grammar whatever the names,
constraints and options are, and its entries are these, in their order.
-/

namespace LockBench
namespace Project

open Toml Toml.Grammar

/-- The array that lists requirements: each name, with its constraint right
after it. -/
def listed (requirements : List Requirement) : Value :=
  .array (requirements.map fun requirement =>
    .text (requirement.name ++ requirement.constraint.getD ""))

/-- What a project file has to hold: two tables, the second for the
requirements of development alone. -/
def contents
    (options : ProjectOptions)
    (pipfile : Pipfile) : Entries :=
  [("project", .table .header
    [("name", .text options.name),
     ("version", .text options.version),
     ("requires-python", .text options.requiresPython),
     ("dependencies", listed pipfile.packages)]),
   ("dependency-groups", .table .header
    [("dev", listed pipfile.devPackages)])]

variable (options : ProjectOptions) (pipfile : Pipfile)

theorem isBare_tables :
    ∀ table ∈ tables options pipfile, table.IsBare := by
  rw [tables, List.forall_mem_cons, List.forall_mem_singleton]
  refine ⟨⟨?_, ?_⟩, ⟨?_, ?_⟩⟩
  · rintro name ⟨⟩
    decide
  · simp only [List.forall_mem_cons]
    decide
  · rintro name ⟨⟩
    decide
  · simp only [List.forall_mem_cons]
    decide

theorem areTables_tables : AreTables (tables options pipfile) where
  named := by simp [tables]
  keys := by simp [tables, plainEntries, keys]
  tops := by simp [tables, PlainTable.placed, keys]

theorem placed_tables :
    (tables options pipfile).flatMap PlainTable.placed =
      contents options pipfile := by
  simp [tables, contents, PlainTable.placed, plainEntries, Plain.toValue,
    listed, Requirement.text]

/-- The text of a project file is a document that holds the options and the
requirements of both lists, and nothing else: so the grammar says, and so the
reader of documents finds. -/
theorem render_holds_exactly :
    (∀ entries, Holds (render options pipfile) entries ↔
      entries = contents options pipfile) ∧
    read? (render options pipfile) = some (contents options pipfile) := by
  have holds := holds_writeDocument .compact (isBare_tables options pipfile)
    (areTables_tables options pipfile)
  rw [placed_tables] at holds
  have found := read?_eq_some holds
  refine ⟨fun entries => ⟨fun others => ?_, ?_⟩, found⟩
  · exact Option.some.inj ((read?_eq_some others).symm.trans found)
  · rintro rfl
    exact holds

end Project
end LockBench
