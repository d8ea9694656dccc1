import RenderMaterials.CommandLine.Run
import RenderMaterials.Shader.BasicTranslator

/-!
# The program

Records the files that a request can see, answers it, and prints the answer.  While watching, it
looks at the files again four times a second.
-/

namespace RenderMaterials.Program

open CommandLine

/-- Records a file, or a directory without what is in it.  What cannot be opened is left out. -/
def addEntry (d : Disk) (l : Location) : IO Disk := do
  let path := (← IO.currentDir) / d.absolute l
  if ← path.isDir then return { d with directories := l :: d.directories }
  try return { d with files := d.files.assign l (← IO.FS.readBinFile path).toList }
  catch _ => return d

/-- Records everything at a location and below it. -/
partial def addTree (d : Disk) (l : Location) : IO Disk := do
  let path := (← IO.currentDir) / d.absolute l
  let mut d ← addEntry d l
  if ← path.isDir then
    for entry in ← path.readDir do
      d ← addTree d (Disk.enter l entry.fileName)
  return d

/-- Records what is on the way to a local path and what it leads to; answers where that is. -/
def addPath (d : Disk) (path : String) : IO (Disk × Location) := do
  let mut d := d
  let mut l := []
  for name in d.location path do
    l := Disk.enter l name
    d ← addEntry d l
  return (d, l)

/-- What can be seen with some options. -/
def snapshot (o : Options) : IO Disk := do
  let (d, assets) ← addPath { home := (← IO.currentDir).toString } o.assets
  let d ← addTree d assets
  match o.config? with
  | some path => return (← addPath d path).1
  | none      => return d

def print (lines : List Line) : IO Unit := do
  for l in lines do IO.println l.text
  (← IO.getStdout).flush

/-- Follows the files from one look to the next. -/
partial def follow (o : Options) (w : Watch) (old : Disk) : IO Unit := do
  IO.sleep 250
  let new ← snapshot o
  match w.changes old new with
  | []      => follow o w new
  | changed =>
    let (lines, w) := w.follow new changed
    print lines
    follow o w new

/-- Carries out a request that sees some files. -/
def carryOut (o : Options) (d : Disk) (r : Request) : IO UInt32 := do
  let a := answer (tools .basic) d r
  print a.lines
  if let some note := a.note? then IO.eprintln note
  match a.next with
  | .exit status => return status.toUInt32
  | .watch w     =>
    follow o w d
    return 0

/-- Does what arguments ask for. -/
def run (args : List String) : IO UInt32 :=
  match Request.ofArguments args with
  | .run o a root => do carryOut o (← snapshot o) (.run o a root)
  | r             => carryOut {} {} r

end RenderMaterials.Program

def main (args : List String) : IO UInt32 := RenderMaterials.Program.run args
