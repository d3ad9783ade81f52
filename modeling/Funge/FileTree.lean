/-
  Files by name, as far as reading them goes.

  A `FileTree` holds the contents of some files below the root and a directory that relative
  names start from; the directories are those that lead to a file or to that start.  Names
  are resolved part by part: an empty part or a dot stays, two dots go up, and anything but
  the last part has to be a directory.  A part may have 255 bytes and a whole name 4095.
-/

namespace Funge

/-- Why the text of a file could not be had. -/
inductive ReadFailure where
  /-- There is no such file. -/
  | missing
  /-- The name leads through a file. -/
  | notDirectory
  /-- It is a directory. -/
  | isDirectory
  /-- The name, or a part of it, is too long. -/
  | nameTooLong
  /-- It is not UTF-8. -/
  | notText
  /-- Anything else the system says. -/
  | other (text : String)
deriving DecidableEq, Repr

/-- What is said about bytes that are not UTF-8. -/
def notUtf8 : String := "stream did not contain valid UTF-8"

/-- The failure in words. -/
def ReadFailure.message : ReadFailure → String
  | missing => "No such file or directory (os error 2)"
  | notDirectory => "Not a directory (os error 20)"
  | isDirectory => "Is a directory (os error 21)"
  | nameTooLong => "File name too long (os error 36)"
  | notText => notUtf8
  | other text => text

/-- The text of some bytes. -/
def decodeText (bytes : ByteArray) : Except ReadFailure String :=
  match String.fromUTF8? bytes with
  | some text => .ok text
  | none => .error .notText

/-- The bytes of a text are text. -/
theorem decodeText_toUTF8 (text : String) : decodeText text.toUTF8 = .ok text := by
  rw [decodeText, String.toUTF8_eq_toByteArray, String.fromUTF8?, dif_pos text.isValidUTF8]
  rfl

/-- Some files, and the directory relative names start from. -/
structure FileTree where
  /-- The files: the parts of the name from the root on, and the content. -/
  files : List (List String × ByteArray)
  /-- The directory relative names start from. -/
  start : List String

namespace FileTree

/-- What a name stands for. -/
inductive Entry where
  | file (content : ByteArray)
  | directory

/-- The entry with a resolved name. -/
def entry? (t : FileTree) (name : List String) : Option Entry :=
  match t.files.find? (·.1 == name) with
  | some (_, content) => some (.file content)
  | none =>
    if name.isPrefixOf t.start || t.files.any (fun f => name.isPrefixOf f.1) then some .directory
    else none

/-- How many bytes a part of a name may have. -/
def maxPart : Nat := 255

/-- How many bytes a name may have. -/
def maxName : Nat := 4095

/-- Follow the parts of a name from a resolved name on. -/
def follow (t : FileTree) (name : List String) : List String → Except ReadFailure (List String)
  | [] => .ok name
  | part :: rest =>
    match t.entry? name with
    | none => .error .missing
    | some (.file _) => .error .notDirectory
    | some .directory =>
      if part = "" ∨ part = "." then t.follow name rest
      else if part = ".." then t.follow name.dropLast rest
      else if maxPart < part.utf8ByteSize then .error .nameTooLong
      else t.follow (name ++ [part]) rest

/-- The parts of a name. -/
def parts (name : String) : List String := (name.toList.splitOn '/').map String.ofList

/-- The name of an entry of a directory, from the names of both; the empty name is the directory
    that relative names start from. -/
def join (dir name : String) : String :=
  if dir.isEmpty || dir.toList.getLast? == some '/' then dir ++ name else dir ++ "/" ++ name

/-- Resolve a name. -/
def resolve (t : FileTree) (name : String) : Except ReadFailure (List String) :=
  if name.isEmpty then .error .missing
  else if maxName < name.utf8ByteSize then .error .nameTooLong
  else t.follow (if name.toList.head? = some '/' then [] else t.start) (parts name)

/-- The text of a file. -/
def readText (t : FileTree) (name : String) : Except ReadFailure String := do
  match t.entry? (← t.resolve name) with
  | none => .error .missing
  | some .directory => .error .isDirectory
  | some (.file content) => decodeText content

/-- A file that holds a text is read. -/
theorem readText_of_entry? {t : FileTree} {name text : String} (parts : List String)
    (hname : t.resolve name = .ok parts) (hentry : t.entry? parts = some (.file text.toUTF8)) :
    t.readText name = .ok text := by
  rw [readText, hname]
  simp only [bind, Except.bind, hentry, decodeText_toUTF8]

end FileTree

end Funge
