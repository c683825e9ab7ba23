import Thoroughfare.Grid.Program

/-!
# The commuter program on the command line

Reads the configuration, runs the commuters, shows how it went and leaves the tables and the
summary in a directory.
-/

namespace Thoroughfare

/-- The configuration in the file, or the program's own one if there is no file. -/
def loadConfig : IO (Except Grid.Failure Config) := do
  match ← (IO.FS.readBinFile Grid.configPath).toBaseIO with
  | .ok bytes => return (ConfigFile.ofBytes bytes.toList).mapError Grid.Failure.config
  | .error (.noFileOrDirectory ..) => return .ok Grid.ownConfig
  | .error _ => return .error (.config .unreadable)

def showLines (lines : List String) : IO Unit :=
  lines.forM fun line => IO.println line

def giveUp (failure : Grid.Failure) : IO UInt32 := do
  IO.eprintln ("Error: " ++ failure.message)
  return failure.code.toUInt32

def runCommuters (config : Config) : IO UInt32 := do
  match Grid.network with
  | .error e => giveUp (.network e)
  | .ok g =>
      showLines (Grid.opening config g Grid.commuters.length)
      let begun ← IO.monoNanosNow
      match Grid.simulate config with
      | .error failure => giveUp failure
      | .ok outcome =>
          let nanos := (← IO.monoNanosNow) - begun
          IO.FS.createDirAll Grid.outputDirectory
          (outcome.files (Float.ofNat nanos / 1000000000)).forM fun file =>
            IO.FS.writeFile (Grid.outputDirectory ++ "/" ++ file.1) file.2
          showLines (outcome.closing (Grid.Outcome.secondsText (nanos / 1000000)))
          return 0

end Thoroughfare

def main : IO UInt32 := do
  match ← Thoroughfare.loadConfig with
  | .error failure => Thoroughfare.giveUp failure
  | .ok config => Thoroughfare.runCommuters config
