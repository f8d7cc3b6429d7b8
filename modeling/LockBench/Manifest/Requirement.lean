/-!
# Requirements

A requirement is a package name with an optional version constraint.  A
manifest writes `*` for "any version", which is no constraint at all.
-/

namespace LockBench

/-- A dependency: a package name and the constraint on its version, if any. -/
structure Requirement where
  /-- The package's name. -/
  name : String
  /-- The constraint on its version, such as `==1.2.3`. -/
  constraint : Option String
  deriving DecidableEq, Repr, Inhabited

namespace Requirement

/-- The value that a manifest writes for "any version". -/
def wildcard : String := "*"

/-- The requirement that a manifest's `name = "value"` declares. -/
def ofEntry
    (name value : String) : Requirement :=
  ⟨name, if value = wildcard then none else some value⟩

/-- The name followed by the constraint. -/
def text (requirement : Requirement) : String :=
  requirement.name ++ requirement.constraint.getD ""

@[simp] theorem ofEntry_wildcard (name : String) :
    ofEntry name wildcard = ⟨name, none⟩ := rfl

theorem ofEntry_of_ne
    (name value : String)
    (versioned : value ≠ wildcard) :
    ofEntry name value = ⟨name, some value⟩ := by
  simp [ofEntry, versioned]

end Requirement
end LockBench
