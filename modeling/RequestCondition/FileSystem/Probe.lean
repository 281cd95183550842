import RequestCondition.FileSystem.Basic

/-!
# File systems from probes

A `Probe` is all there is to know about one path.  A program that can look at the real file system
takes probes of the paths that an evaluation asks about, and evaluates in the file system that they
make up.  A path that has not been probed is treated as if nothing were there.
-/

set_option autoImplicit false

namespace RequestCondition

/-- What was found at a path. -/
structure Probe where
  status? : Option FileStatus
  isLink : Bool
  contents : Except FileError (List UInt8)

namespace Probe

/-- Nothing was found. -/
def missing : Probe := ⟨none, false, .error .notFound⟩

end Probe

namespace FileSystem

/-- The file system that probes make up. -/
def ofProbes (probes : List (String × Probe)) : FileSystem where
  status? path := (probes.lookup path).bind Probe.status?
  isLink path := (probes.lookup path).any Probe.isLink
  read path := ((probes.lookup path).getD .missing).contents

end FileSystem

end RequestCondition
