import CommandConsole.Table
import CommandConsole.Text.Bytes

/-! A directory of text files, and what the reading of a path in it comes to. -/
namespace CommandConsole.Cli

/-- Files by their paths. -/
abbrev Directory := Table String String

inductive FileProblem where
  | notFound
  | notADirectory
  | isADirectory
  | nameTooLong
  deriving DecidableEq

def FileProblem.message : FileProblem → String
  | .notFound => "No such file or directory (os error 2)"
  | .notADirectory => "Not a directory (os error 20)"
  | .isADirectory => "Is a directory (os error 21)"
  | .nameTooLong => "File name too long (os error 36)"

namespace Directory

/-- Paths are shorter than this many bytes. -/
def pathLimit : Nat := 4096

/-- Names have at most this many bytes. -/
def nameLimit : Nat := 255

/-- The steps of a path. A single dot leads nowhere. -/
def steps (path : String) : List String :=
  ((path.toList.splitOn '/').map String.ofList).filter fun s => s ≠ "" ∧ s ≠ "."

/-- Whether a path can only be that of a directory. -/
def endsAsDirectory (path : String) : Bool :=
  ((path.toList.splitOn '/').getLast?).any fun s => s = [] || s = ['.']

/-- The text of the file at a place, if a file is there. -/
def fileAt? (d : Directory) (place : List String) : Option String :=
  (List.find? (fun e => steps e.1 == place) d).map (·.2)

/-- Whether a file lies somewhere below a place. -/
def isDirectoryAt (d : Directory) (place : List String) : Bool :=
  d.any fun e => place.isPrefixOf (steps e.1)

/-- Goes on from a place within the directory, or from outside of it, where no file is known but
directories lie on every way up. `wantsDirectory` is set if the last step has to lead to a
directory. -/
def walk (d : Directory) (wantsDirectory : Bool) :
    Option (List String) → List String → Except FileProblem String
  | _, [] => .error .isADirectory
  | none, ".." :: rest => walk d wantsDirectory none rest
  | some place, ".." :: rest =>
    walk d wantsDirectory (if place = [] then none else some place.dropLast) rest
  | place, name :: rest =>
    if nameLimit < Text.width name.toList then .error .nameTooLong
    else
      match place with
      | none => .error .notFound
      | some place =>
        let place := place ++ [name]
        match d.fileAt? place with
        | some text => if rest = [] ∧ !wantsDirectory then .ok text else .error .notADirectory
        | none => if d.isDirectoryAt place then walk d wantsDirectory (some place) rest
            else .error .notFound

/-- Directories at the root of every system. -/
def rootDirectories : List String := ["dev", "etc", "tmp", "usr"]

/-- Reads a file by its way from the root. Of what lies outside of the directory, only the null
device and a few directories are known, since every system has them. -/
def readFromRoot (d : Directory) (wantsDirectory : Bool) (way : List String) :
    Except FileProblem String :=
  if rootDirectories.any fun name => way = [name] then .error .isADirectory
  else if way = ["dev", "null"] then
    if wantsDirectory then .error .notADirectory else .ok ""
  else walk d wantsDirectory none way

/-- Reads the file of a path. -/
def read (d : Directory) (path : String) : Except FileProblem String :=
  if path = "" then .error .notFound
  else if pathLimit ≤ Text.width path.toList then .error .nameTooLong
  else if path.toList.head? = some '/' then readFromRoot d (endsAsDirectory path) (steps path)
  else walk d (endsAsDirectory path) (some []) (steps path)

end Directory
end CommandConsole.Cli
