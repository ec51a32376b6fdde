/-!
# Files

Paths and the files of a directory. Paths that lead to the same place are alike: empty parts and
single dots mean nothing, and two dots lead back. But a path is read only if it leads there step by
step: every part in front of the last one has to lead to a directory, so a file is not found by its
path with a slash behind it, nor by way of a directory that does not exist. A path may lead out of
the directory; a file of the directory is found only by a path that stays inside.
-/

namespace SpringArm.CommandLine

/-- The part in front of a path that starts at the root. -/
def rootPart : List Char := ['/']

/-- The part that leads back. -/
def parentPart : List Char := ['.', '.']

/-- Goes one part further. Nothing lies above the root. -/
def enterPart (before : List (List Char)) (part : List Char) : List (List Char) :=
  if part = [] ∨ part = ['.'] then
    before
  else if part = parentPart then
    match before.getLast? with
    | none => [parentPart]
    | some last =>
      if last = parentPart then before ++ [parentPart]
      else if last = rootPart then before
      else before.dropLast
  else
    before ++ [part]

/-- The parts of a path. -/
def pathParts (path : List Char) : List (List Char) :=
  (path.splitOn '/').foldl enterPart (if path.head? = some '/' then [rootPart] else [])

/-- A path with these parts stays inside the directory. -/
def staysInside (parts : List (List Char)) : Bool :=
  match parts.head? with
  | none => true
  | some first => first != rootPart && first != parentPart

/-- The path of a file in a directory, as it is told. -/
def pathIn (directory : List Char) (name : String) : List Char :=
  match directory.getLast? with
  | none => name.toList
  | some '/' => directory ++ name.toList
  | some _ => directory ++ '/' :: name.toList

/-- The directory of the file at a path. -/
def directoryOf (path : List Char) : List Char :=
  (path.reverse.dropWhile (· != '/')).reverse

/-- Why a path cannot be read as a file. -/
inductive PathFault where
  | missing
  | notDirectory
  | isDirectory
deriving DecidableEq

/-- The text of a path fault. -/
def PathFault.message : PathFault → String
  | .missing => "[Errno 2] No such file or directory"
  | .notDirectory => "[Errno 20] Not a directory"
  | .isDirectory => "[Errno 21] Is a directory"

/-- The files of a directory with their texts. -/
abbrev Files := List (List Char × List Char)

namespace Files

/-- The parts lead to a directory: one on the way to a file, or one that the directory lies in. -/
def isDirectory (files : Files) (parts : List (List Char)) : Bool :=
  (parts.all fun part => part = rootPart || part = parentPart)
    || files.any fun file => parts.isPrefixOf (pathParts file.1) && parts != pathParts file.1

/-- Goes on from a directory, part by part, to the text of a file. -/
def follow (files : Files) (place : List (List Char)) :
    List (List Char) → Except PathFault (List Char)
  | [] => .error .isDirectory
  | part :: rest =>
    let next := enterPart place part
    if files.isDirectory next then
      files.follow next rest
    else
      match files.find? fun file => pathParts file.1 = next with
      | none => .error .missing
      | some file => if rest.isEmpty then .ok file.2 else .error .notDirectory

/-- Reads the file at a path: the one that is listed under it, or else the one that it leads to. -/
def read (files : Files) (path : List Char) : Except PathFault (List Char) :=
  if path = [] then
    .error .missing
  else
    match files.find? fun file => file.1 = path with
    | some file => .ok file.2
    | none => files.follow (if path.head? = some '/' then [rootPart] else []) (path.splitOn '/')

/-- The text of the file at a path, if there is one. -/
def text? (files : Files) (path : List Char) : Option (List Char) :=
  (files.read path).toOption

/-- Some file lies on the way to a path. -/
def obstructs (files : Files) (path : List Char) : Bool :=
  let parts := pathParts path
  files.any fun file => (pathParts file.1).isPrefixOf parts

/-- The files that were written inside the directory and were not there before, with the shortest
of their paths. -/
def fresh {α : Type} (files : Files) (written : List (List Char × α)) : List (List Char × α) :=
  let known := files.map fun file => pathParts file.1
  written.filterMap fun (path, content) =>
    let parts := pathParts path
    if staysInside parts && !known.contains parts then
      some (['/'].intercalate parts, content)
    else
      none

end Files

end SpringArm.CommandLine
