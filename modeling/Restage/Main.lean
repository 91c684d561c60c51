import Restage.CommandLine.Command
import Restage.Json.Writer

/-!
# The command line program

Reads what the command line may refer to into a file tree, runs the command on it, and writes the
files that it changed.
-/

namespace Restage.Main

open CommandLine

def native (p : Path) : String := String.ofList p.toText

/-- Reads a file or a directory with everything below it into a tree. -/
partial def load (tree : FileTree) (path : Path) (place : Place) : IO FileTree := do
  let target := (← IO.currentDir) / native path
  if ← target.isDir then
    let tree := if place.isEmpty then tree else tree.put place .directory
    (← target.readDir).foldlM (fun tree found => do
      let name := found.fileName.toList
      load tree { path with parts := path.parts ++ [name] } (place ++ [name])) tree
  else if ← target.pathExists then
    return tree.put place (.file (← IO.FS.readBinFile target).toList)
  else return tree

/-- Reads the directories on a path and what the path leads to. -/
def loadPath (tree : FileTree) (path : Path) : IO FileTree := do
  let steps := (List.range path.parts.length).map fun n => path.parts.take n
  let mut tree := tree
  for above in steps do
    let here : Path := { path with parts := above }
    if ← ((← IO.currentDir) / native here).isDir then
      if let .ok place := tree.follow here then
        unless place.isEmpty do
          tree := tree.put place .directory
  match tree.follow path with
  | .ok place => load tree path place
  | .error _ => return tree

/-- The files that a command line may refer to: the environment file, the input and the output. -/
def loadTree (args : List Text) : IO FileTree := do
  let request := match request? args with
    | .ok (some r) => r
    | _ => {}
  let output := request.output.getD ((request.input.getD []) ++ "_playwright")
  let named := [request.input.getD [], output].filter (!·.isEmpty)
  (".env".toList :: named).foldlM (fun tree t => loadPath tree (Path.parse t)) {}

/-- The environment variables that hold settings. -/
def loadEnvironment : IO (List (Text × Text)) :=
  Settings.fields.filterMapM fun f => do
    let name := Settings.variableName f.name
    return (← IO.getEnv (String.ofList name).toUpper).map fun v => (name, v.toList)

/-- Writes the files that a command changed. -/
def save (before after : FileTree) : IO Unit := do
  for (place, content) in after.changedSince before do
    let path := FileTree.placePath place
    IO.FS.createDirAll (native path.parent)
    IO.FS.writeBinFile (native path) (ByteArray.mk content.toArray)

end Restage.Main

open Restage in
/-- Runs a command line. -/
def main (args : List String) : IO UInt32 := do
  let args := args.map String.toList
  let tree ← Main.loadTree args
  match CommandLine.run args (← Main.loadEnvironment) tree with
  | .error e =>
    IO.eprintln (String.ofList e.message)
    return 1
  | .ok response =>
    Main.save tree response.tree
    match response.output with
    | .text t => IO.print (String.ofList t)
    | .summary s => IO.println (String.ofList (Json.writeIndented 0 s.toJson))
    IO.eprint (String.ofList response.errors)
    return UInt32.ofNat response.exit
