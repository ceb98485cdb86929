/-!
A folder of files, and what comes of reading a path in it. The folder holds no other folders, and
nothing is known of what lies outside.
-/

namespace Quantities

/-- Why a path cannot be read. -/
inductive Unreadable where
  | missing
  | isFolder
  | notFolder
  | nameTooLong
  | notText
  | other (reason : String)
deriving Repr, DecidableEq

def Unreadable.reason : Unreadable → String
  | missing => "No such file or directory (os error 2)"
  | isFolder => "Is a directory (os error 21)"
  | notFolder => "Not a directory (os error 20)"
  | nameTooLong => "File name too long (os error 36)"
  | notText => "stream did not contain valid UTF-8"
  | other reason => reason

/-- The files by name. -/
structure Folder where
  files : List (String × String)
deriving Repr, DecidableEq

namespace Folder

/-- A name that is longer than this is refused before it is looked for. -/
def longestName : Nat := 255

/-- A part of a path that leads to where one is. -/
def isHere (part : String) : Bool := part == "" || part == "."

/-- Follows the parts of a path outside the folder. -/
def readOutside : List String → Except Unreadable String
  | [] => .error .isFolder
  | part :: rest =>
    if isHere part || part == ".." then readOutside rest
    else if longestName < part.utf8ByteSize then .error .nameTooLong
    else .error .missing

/-- Follows the parts of a path from the folder. -/
def readParts (folder : Folder) : List String → Except Unreadable String
  | [] => .error .isFolder
  | part :: rest =>
    if isHere part then folder.readParts rest
    else if part == ".." then readOutside rest
    else if longestName < part.utf8ByteSize then .error .nameTooLong
    else
      match folder.files.lookup part with
      | none => .error .missing
      | some text => if rest.isEmpty then .ok text else .error .notFolder

/-- The text of the file that a path leads to. -/
def read (folder : Folder) (path : String) : Except Unreadable String :=
  if path.isEmpty then .error .missing
  else if path.startsWith "/" then readOutside (path.splitOn "/")
  else folder.readParts (path.splitOn "/")

end Folder

end Quantities
