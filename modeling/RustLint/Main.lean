import RustLint.CommandLine.Run

set_option autoImplicit false

/- The program: it reads the part of the disk that the arguments point at, runs, and prints. It has
no parser of its own, so every file is skipped; a program that has one passes it to the run instead.
-/
namespace RustLint.Program

/-- The place on disk. -/
def onDisk (place : Path) := (fun here => here / place.toString) <$> IO.currentDir

/-- The text of a link on disk, as a path from the root. A link to nothing gets a control character
for its text, which is hardly the name of a file, and a link in a circle leads to itself. -/
def linkText (place : Path) : IO String := do
  let file ← onDisk place
  try return (← IO.FS.realPath file).toString
  catch _ =>
    try
      let _ ← file.metadata
      return place.toString
    catch
      | .noFileOrDirectory .. => return "\x01"
      | _ => return place.toString

/-- The file system with what is on disk at the place put into it. What cannot be read is left
out. -/
partial def load (place : Path) (tree : FileTree) : IO FileTree := do
  let file ← onDisk place
  let put (e : Entry) : FileTree := ⟨e.put place.parts tree.root⟩
  try
    match (← file.symlinkMetadata).type with
    | .dir =>
      let mut tree := put (.dir [])
      for entry in ← file.readDir do
        if !Scan.skippedDirs.contains entry.fileName then
          tree ← load (place.child entry.fileName) tree
      return tree
    | .file => return put (.file (← IO.FS.readBinFile file).data.toList)
    | _ =>
      let text ← linkText place
      let tree := put (.link text)
      let target := Path.ofString text
      let there ← onDisk target
      if target = place || !(← there.pathExists) || (← there.isDir) then return tree
      else load target tree
  catch _ => return tree

/-- Goes the way of names as they are written, from the place. The links on the way are put into
the file system. -/
def loadLinks (tree : FileTree) (place : Path) : List String → IO (Path × FileTree)
  | [] => return (place, tree)
  | name :: names => do
    if name = "" || name = "." then loadLinks tree place names
    else if name = ".." then loadLinks tree place.parent names
    else
      let here := place.child name
      let isLink ← try pure ((← (← onDisk here).symlinkMetadata).type matches .symlink)
        catch _ => pure false
      if isLink then
        let text ← linkText here
        loadLinks ⟨(Entry.link text).put here.parts tree.root⟩ (Path.ofString text) names
      else loadLinks tree here names

/-- The file system with the files that mark roots and hold configurations, in the directory and
all around it. -/
def loadMarkers (place : Path) (tree : FileTree) : IO FileTree := do
  let mut tree := tree
  for directory in place.selfAndParents do
    for marker in Scan.rootMarkers do
      if ← (← onDisk (directory.child marker)).pathExists then
        tree ← load (directory.child marker) tree
  return tree

/-- What the program can see of the disk for a request. -/
def treeFor (directory : Path) (arguments : List String) : IO FileTree := do
  match CommandLine.requestOf arguments with
  | .ok (.check _ path _ _) =>
    let tree : FileTree := ⟨(Entry.dir []).put directory.parts (.dir [])⟩
    let names := Path.namesOf path
    let start := if Path.areAbsolute names then ⟨1, []⟩ else directory
    let (place, tree) ← loadLinks tree start names
    loadMarkers place (← load place tree)
  | _ => return {}

end RustLint.Program

/-- Runs with the arguments and prints what comes of it. -/
def main (arguments : List String) : IO UInt32 := do
  let directory := RustLint.Path.ofString (← IO.currentDir).toString
  let tree ← RustLint.Program.treeFor directory arguments
  let outcome := RustLint.CommandLine.run
    { tree, directory, parser := fun _ => .unavailable, parserIsInstalled := false
      outputIsTerminal := ← (← IO.getStdout).isTty } arguments
  for line in outcome.errors do
    IO.eprintln line
  IO.print outcome.output
  return outcome.exitCode.toNat.toUInt32
