/-! A folder of files as a value, so that the program can be run without a file system. -/

namespace ArithLines

inductive Opening where
  | contents (bytes : List UInt8)
  | missing
  /-- There is a folder of that name, which opens but cannot be read. -/
  | unreadable
deriving DecidableEq

/-- Files, each by its path within the folder. -/
structure Folder where
  files : List (String × List UInt8)

namespace Folder

def parts (path : String) : List (List Char) := path.toList.splitOn '/'

/-- Whether a part of a path leads nowhere else. -/
def isIdle (part : List Char) : Bool := part.isEmpty || part == ['.']

def names (path : String) : List (List Char) := (parts path).filter (!isIdle ·)

/-- Whether a path leads to the folder itself or to one around it. -/
def isAround (path : String) : Bool := (names path).all (· == ['.', '.'])

/-- Whether a path leads to a folder within. -/
def isWithin (folder : Folder) (path : String) : Bool :=
  folder.files.any fun file =>
    (names path).isPrefixOf (names file.1) && (names path).length < (names file.1).length

/-- Opens the file at a path that begins in the folder. A file's name must come last, with nothing
idle after it; of other places only those around the folder are known. -/
def openFile (folder : Folder) (path : String) : Opening :=
  if path.isEmpty then .missing
  else if isAround path then .unreadable
  else if (parts path).head? = some [] then .missing
  else if folder.isWithin path then .unreadable
  else if (parts path).getLast?.any isIdle then .missing
  else ((folder.files.find? fun file => names file.1 == names path).map (.contents ·.2)).getD .missing

end Folder

end ArithLines
