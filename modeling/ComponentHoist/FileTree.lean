import ComponentHoist.PathName

/-!
# ComponentHoist.FileTree — files and directories

A file tree is a file with its bytes, or a directory with named entries.  A file system is the tree below its root,
with a working directory in it.

* `FileTree.insertFile`, `FileTree.insertDirectory`: put an entry at a place, with the directories above it.
* `FileSystem.resolve`: what a written path leads to.
-/

namespace ComponentHoist

/-- A file, or a directory with its entries. -/
inductive FileTree where
  | file (content : ByteArray)
  | directory (entries : List (Name × FileTree))

/-- Why a path leads nowhere. -/
inductive PathFailure where
  | missing
  | throughFile
deriving DecidableEq, Repr

namespace FileTree

instance : EmptyCollection FileTree :=
  ⟨.directory []⟩

/-- Replaces the entry of the given name by `f` of it, or adds `f` of nothing. -/
def alterEntries (name : Name) (f : Option FileTree → FileTree) : List (Name × FileTree) → List (Name × FileTree)
  | [] => [(name, f none)]
  | (n, t) :: rest => if n = name then (n, f (some t)) :: rest else (n, t) :: alterEntries name f rest

/-- Replaces what is at a place by `f` of it.  Directories are made on the way. -/
def alter (f : Option FileTree → FileTree) : List Name → Option FileTree → FileTree
  | [], old => f old
  | name :: names, some (.directory entries) => .directory (alterEntries name (alter f names) entries)
  | name :: names, _ => .directory [(name, alter f names none)]

/-- Puts a file at a place. -/
def insertFile (place : List Name) (content : ByteArray) (t : FileTree) : FileTree :=
  alter (fun _ => .file content) place (some t)

/-- Makes a directory at a place, unless there is something already. -/
def insertDirectory (place : List Name) (t : FileTree) : FileTree :=
  alter (·.getD ∅) place (some t)

/-- Follows the components of a path from a tree, whose parents are given from the nearest on.  Empty components and
dots stay where they are, but only a directory has them.  The topmost directory is its own parent. -/
def follow (parents : List FileTree) (here : FileTree) : List Name → Except PathFailure FileTree
  | [] => .ok here
  | name :: names =>
    match here with
    | file _ => .error .throughFile
    | directory entries =>
      if name = [] ∨ name = Name.here then follow parents here names
      else if name = Name.parent then
        match parents with
        | parent :: parents => follow parents parent names
        | [] => follow [] here names
      else
        match entries.lookup name with
        | some next => follow (here :: parents) next names
        | none => .error .missing

end FileTree

/-- The files that a program finds, and the place of the directory in which it works. -/
structure FileSystem where
  root : FileTree
  working : List Name

namespace FileSystem

/-- A tree on its own counts as the working directory, beside which there is nothing. -/
instance : Coe FileTree FileSystem :=
  ⟨fun t => { root := .directory [("project", t)], working := ["project"] }⟩

/-- The place from which a path leads on: the root for a path that begins with a slash, and else the working
directory. -/
def start (path : PathName) (fs : FileSystem) : List Name :=
  if path.bytes.head? = some PathName.slash then [] else fs.working

/-- What a path leads to.  An empty path leads nowhere. -/
def resolve (path : PathName) (fs : FileSystem) : Except PathFailure FileTree :=
  if path.bytes = [] then .error .missing else fs.root.follow [] (fs.start path ++ path.components)

end FileSystem
end ComponentHoist
