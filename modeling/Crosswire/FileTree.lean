/-
Module: Crosswire.FileTree
Purpose: Files in directories. A path is followed name by name, from the root if it begins with a slash
  and from the working directory otherwise. `FileSystem.read` says what each path holds, so that a file
  system is something programs can be loaded from.
Imports: Crosswire.SourceFile, Crosswire.Text.Pieces
Main exports: FileTree, FileTree.follow, FileSystem, FileSystem.read
-/
import Crosswire.SourceFile
import Crosswire.Text.Pieces

namespace Crosswire

/-- A file, or a directory with the things in it under their names. -/
inductive FileTree where
  | file (content : ByteArray)
  | directory (entries : List (String × FileTree))

/-- The number of bytes that a name in a path may have. -/
def maxNameSize : Nat := 255

/-- The number of bytes that a path may have. -/
def maxPathSize : Nat := 4095

namespace FileTree

/-- What is found at the end of a path, read as a file. -/
def content : FileTree → Except ReadFailure ByteArray
  | file content => .ok content
  | directory _ => .error .isDirectory

/-- Follow a path through a tree; `above` are the directories that the tree is in, innermost first. Empty
names and single dots stay in a directory, two dots leave it, except for the outermost one. Names that
follow a file, even empty ones, lead nowhere. -/
def follow (above : List FileTree) (tree : FileTree) : List String → Except ReadFailure FileTree
  | [] => .ok tree
  | name :: rest =>
    match tree with
    | file _ => .error .notDirectory
    | directory entries =>
      if name = "" ∨ name = "." then follow above tree rest
      else if name = ".." then
        match above with
        | [] => follow [] tree rest
        | parent :: others => follow others parent rest
      else if maxNameSize < name.utf8ByteSize then .error .nameTooLong
      else
        match entries.lookup name with
        | none => .error .notFound
        | some inner => follow (tree :: above) inner rest

end FileTree

/-- A tree of files and the directory in it where paths begin that do not begin with a slash. -/
structure FileSystem where
  root : FileTree
  /-- The names that lead to the working directory. -/
  workingDirectory : List String

namespace FileSystem

/-- What a path leads to. -/
def find (system : FileSystem) (path : String) : Except ReadFailure FileTree :=
  let characters := path.toList
  if characters.contains '\x00' then .error .nulInName
  else if maxPathSize < path.utf8ByteSize then .error .nameTooLong
  else if characters.isEmpty then .error .notFound
  else
    let names := pieces '/' path
    FileTree.follow [] system.root (if characters.head? = some '/' then names else system.workingDirectory ++ names)

/-- What each path holds. -/
def read (system : FileSystem) : Files := fun path =>
  match system.find path with
  | .error failure => .error failure
  | .ok tree => tree.content

end FileSystem

end Crosswire
