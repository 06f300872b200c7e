import DocumentQuery.Document
import DocumentQuery.Text.Utf8

/-!
# Input texts

A text comes from standard input or from a file.  It has to be UTF-8; all its line endings become
newlines.
-/

namespace DocumentQuery

/-- Files and directories by the names that lead to them from a directory at the top. -/
structure FileTree where
  /-- The directory at the top is the root of the file system, which is above itself. -/
  isRooted : Bool
  files : List (List Text × List UInt8)
  directories : List (List Text)

namespace FileTree

/-- Why a file cannot be read. -/
inductive Fault where
  | missing
  | isDirectory
  | notDirectory
  | nameTooLong
  deriving DecidableEq

/-- What is said about a file that cannot be read. -/
def Fault.message : Fault → Text
  | .missing => "No such file or directory"
  | .isDirectory => "Is a directory"
  | .notDirectory => "Not a directory"
  | .nameTooLong => "File name too long"

/-- The most bytes that a name may have. -/
def maxNameBytes : Nat := 255

/-- The most bytes that a path may have. -/
def maxPathBytes : Nat := 4095

/-- The names on a path: what stands between slashes, except for nothing and a single dot. -/
def namesOf (path : Text) : List Text :=
  (path.split '/').filter fun part => !part.isEmpty && part ≠ Text.ofString "."

/-- What stands before the names on a path.  One slash leads to the root, and so do more, but only
exactly two are kept. -/
def rootOf (path : Text) : Text :=
  match (path.takeWhile (· = .char '/')).length with
  | 0 => ""
  | 2 => "//"
  | _ => "/"

/-- A path without what has no meaning in it. -/
def normalized (path : Text) : Text :=
  rootOf path ++ Text.joined "/" (namesOf path)

/-- A tree below the working directory in which the given paths are files with their contents, or
directories if the path ends in a slash. -/
def ofEntries (entries : List (Text × List UInt8)) : FileTree where
  isRooted := false
  files := entries.filterMap fun (path, content) =>
    if path.getLast? = some (.char '/') then none else some (namesOf path, content)
  directories := entries.filterMap fun (path, _) =>
    if path.getLast? = some (.char '/') then some (namesOf path) else none

/-- What every system has below the root of its file system. -/
def system : FileTree where
  isRooted := true
  files := [(["dev", "null"], [])]
  directories :=
    [["bin"], ["etc"], ["home"], ["lib"], ["opt"], ["proc"], ["root"], ["run"], ["sbin"], ["sys"],
      ["tmp"], ["usr", "bin"], ["usr", "lib"], ["usr", "local"], ["usr", "share"], ["var", "log"],
      ["var", "tmp"]]

/-- Directories are the one at the top, those that are listed, and those that something lies in. -/
def isDirectory (tree : FileTree) (names : List Text) : Bool :=
  names.isEmpty || tree.directories.any names.isPrefixOf ||
    tree.files.any fun (file, _) => names.isPrefixOf file && names ≠ file

/-- The directory above a directory, unless it is not known. -/
def above (tree : FileTree) (names : List Text) : Option (List Text) :=
  if names.isEmpty then if tree.isRooted then some [] else none else some names.dropLast

/-- Follows names from a directory.  There is none where the path has left the tree; what lies
outside is not known and counts as missing. -/
def follow (tree : FileTree) (directory : Option (List Text)) :
    List Text → Except Fault (List UInt8)
  | [] => .error .isDirectory
  | name :: rest =>
      if name = Text.ofString ".." then follow tree (directory.bind tree.above) rest
      else if maxNameBytes < name.restoredBytes.length then .error .nameTooLong
      else
        match directory with
        | none => .error .missing
        | some names =>
            let reached := names ++ [name]
            if tree.isDirectory reached then follow tree (some reached) rest
            else
              match tree.files.lookup reached with
              | none => .error .missing
              | some content => if rest.isEmpty then .ok content else .error .notDirectory

/-- The content of the file that a path leads to.  A path that begins with a slash leads from the
root of the file system, any other from the working directory. -/
def contentOf (tree : FileTree) (path : Text) : Except Fault (List UInt8) :=
  if maxPathBytes < (normalized path).restoredBytes.length then .error .nameTooLong
  else (if path.head? = some (.char '/') then system else tree).follow (some []) (namesOf path)

end FileTree

/-- Why no text is read. -/
inductive InputError where
  /-- The file cannot be read. -/
  | document (e : DocumentError)
  /-- The bytes are no UTF-8. -/
  | undecodable (e : Utf8.DecodeError)
  /-- The path holds surrogates that stand for no bytes, so no file can have it. -/
  | unencodablePath (e : Utf8.EncodeError)
  /-- The path holds a zero character, so no file can have it. -/
  | zeroInPath
  deriving DecidableEq

/-- The name of a fault in UTF-8. -/
def Utf8.Fault.name : Utf8.Fault → Text
  | .start => "invalid start byte"
  | .continuation => "invalid continuation byte"
  | .truncated => "unexpected end of data"

/-- What is said about bytes that are no UTF-8. -/
def Utf8.DecodeError.message (e : Utf8.DecodeError) : Text :=
  (if e.size = 1 then
    "'utf-8' codec can't decode byte 0x" ++ Text.hex 2 e.first.toNat ++ " in position " ++
      Numeral.ofNat e.offset
  else
    "'utf-8' codec can't decode bytes in position " ++ Numeral.ofNat e.offset ++ "-" ++
      Numeral.ofNat (e.offset + e.size - 1)) ++
    ": " ++ e.fault.name

/-- What is said about surrogates that cannot be encoded. -/
def Utf8.EncodeError.message (e : Utf8.EncodeError) : Text :=
  (if e.size = 1 then
    "'utf-8' codec can't encode character " ++ Text.quoted [e.first] ++ " in position " ++
      Numeral.ofNat e.offset
  else
    "'utf-8' codec can't encode characters in position " ++ Numeral.ofNat e.offset ++ "-" ++
      Numeral.ofNat (e.offset + e.size - 1)) ++
    ": surrogates not allowed"

/-- What is said when no text is read. -/
def InputError.message : InputError → Text
  | .document e => e.message
  | .undecodable e => e.message
  | .unencodablePath e => e.message
  | .zeroInPath => "embedded null byte"

namespace Input

/-- The text of some bytes. -/
def decode (bytes : List UInt8) : Except InputError Text :=
  match Utf8.decode bytes with
  | .ok t => .ok t.normalizedNewlines
  | .error e => .error (.undecodable e)

/-- The text of a file, or of standard input if no path is given.  `contentOf` gives the content of
the file that a path leads to. -/
def read (contentOf : Text → Except FileTree.Fault (List UInt8)) (stdin : List UInt8) :
    Option Text → Except InputError Text
  | none => decode stdin
  | some path =>
      match Text.encodeError? Text.isRestorable (FileTree.normalized path) with
      | some e => .error (.unencodablePath e)
      | none =>
          if path.contains (.char '\x00') then .error .zeroInPath
          else
            match contentOf path with
            | .ok content => decode content
            | .error fault => .error (.document (.unreadable path fault.message))

end Input

end DocumentQuery
