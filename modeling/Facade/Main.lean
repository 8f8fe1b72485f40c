import Facade.Command.Run

/-!
This module contains the program: it gives its command line to the commands, which then have access
to the files of the machine.
-/

namespace Facade

open Files

def attempt (path : Path) (other : α) (action : IO α) : IO α :=
  if path.isUsable then try action catch _ => return other else return other

instance : Access IO where
  readText? path := attempt path none (some <$> IO.FS.readFile path)
  isFile path := attempt path false (return !(← (← IO.FS.realPath path).isDir))
  isDirectory path := attempt path false (do (← IO.FS.realPath path).isDir)
  entries path :=
    attempt path [] (return ((← (← IO.FS.realPath path).readDir).map (·.fileName)).toList)
  makeDirectories path :=
    if path.isEmpty then return true
    else attempt path false (do IO.FS.createDirAll path; return true)
  writeText path content := attempt path false (do IO.FS.writeFile path content; return true)

end Facade

def main (arguments : List String) : IO UInt32 := do
  let ending ← Facade.Command.run (m := IO) arguments
  IO.print ending.output
  IO.eprint ending.problems
  return ending.status.toUInt32
