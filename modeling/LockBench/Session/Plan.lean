import LockBench.Suite

/-!
# The plan of a session's directories

Every binary of every tool gets a working directory and a cache directory of
its own, directly below the session's directory.
-/

namespace LockBench
namespace Session

/-- What is added to the names of the `index`-th binary of a tool: nothing
when it is the only one. -/
def indexMark
    (count index : Nat) : String :=
  if 1 < count then "-" ++ toString index else ""

/-- The context of the `index`-th of `count` binaries of a tool. -/
def planContext
    (tool : Tool)
    (sessionDir : Path)
    (count index : Nat)
    (binary : Path) : Context where
  binary := binary
  label := binary.fileName?.getD tool.name ++ indexMark count index
  workingDir := sessionDir.join (tool.name ++ indexMark count index)
  cacheDir := sessionDir.join (tool.name ++ "-cache" ++ indexMark count index)

/-- The contexts of a tool's binaries, in order. -/
def planContexts
    (tool : Tool)
    (sessionDir : Path)
    (binaries : List Path) : List Context :=
  binaries.mapIdx fun index binary =>
    planContext tool sessionDir binaries.length index binary

@[simp] theorem length_planContexts
    (tool : Tool)
    (sessionDir : Path)
    (binaries : List Path) :
    (planContexts tool sessionDir binaries).length = binaries.length := by
  simp [planContexts]

end Session
end LockBench
