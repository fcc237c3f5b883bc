import StereoMapping.Image.Graymap
import StereoMapping.Odometry.Program

/-!
# `Main` — the command line

`stereo_reconstruct config.json associations.txt` prints a trajectory. Image files are binary portable images.
-/

namespace StereoMapping

/-- The world of files and standard output. -/
def World.system : World IO where
  fileAt path := do
    try return .text (← IO.FS.readFile path)
    catch _ => return .unreadable
  imageAt path := do
    try return Graymap.read? (← IO.FS.readBinFile path).toList
    catch _ => return none
  printLine line := IO.println line

end StereoMapping

/-- Runs the program; a failure is reported and ends with a status of one. -/
def main (arguments : List String) : IO UInt32 := do
  match ← (StereoMapping.runProgram StereoMapping.World.system arguments).run with
  | .ok () => return 0
  | .error failure =>
    IO.eprintln failure.message
    return 1
