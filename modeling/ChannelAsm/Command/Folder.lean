/-!
# Folders

The files that the command can read, by path, and the reasons why one cannot be read. A path is
followed one component at a time from the folder where the command runs, or from outside when it
starts with a slash. Nothing is known of the folders outside but that they are there.
-/

namespace ChannelAsm

/-- Files by path, relative to the place where the command runs. -/
structure Folder where
  files : List (String × ByteArray)

/-- Why a file cannot be read. -/
inductive FileProblem where
  | notFound
  | notFolder
  | isFolder
  | nameTooLong
  | notText
  deriving DecidableEq, Repr

/-- The words for a problem. -/
def FileProblem.message : FileProblem → String
  | notFound => "No such file or directory (os error 2)"
  | notFolder => "Not a directory (os error 20)"
  | isFolder => "Is a directory (os error 21)"
  | nameTooLong => "File name too long (os error 36)"
  | notText => "stream did not contain valid UTF-8"

/-- A folder that a path has led to. -/
inductive Whereabouts where
  /-- A folder at a path from where the command runs. -/
  | inside (path : List String)
  /-- A folder around the one where the command runs. -/
  | outside
  deriving DecidableEq, Repr

/-- The folder around a folder. -/
def Whereabouts.parent : Whereabouts → Whereabouts
  | inside [] => outside
  | inside path => inside path.dropLast
  | outside => outside

namespace Folder

/-- The bytes that the name of a file or folder can have. -/
def nameLimit : Nat := 255

/-- The bytes that a whole path can have. -/
def pathLimit : Nat := 4095

/-- The components of a path. Two slashes in a row have an empty one between them. -/
def components (path : String) : List String :=
  (path.toList.splitOn '/').map String.ofList

/-- A component that leads nowhere else. -/
def isStay (name : String) : Bool :=
  name = "" || name = "."

/-- The names that lead to a file from where the command runs. -/
def namesOf (path : String) : List String :=
  (components path).filter fun name => !isStay name

/-- The file with the given names. -/
def file? (folder : Folder) (names : List String) : Option ByteArray :=
  (folder.files.find? fun (path, _) => namesOf path = names).map (·.2)

/-- Some file lies below the given names. -/
def hasBelow (folder : Folder) (names : List String) : Bool :=
  folder.files.any fun (path, _) => names.isPrefixOf (namesOf path)

/-- Follow components from a folder to a file. The length of a name is looked at when its turn
comes, and a file has nothing behind it, not even an empty component. -/
def follow (folder : Folder) : Whereabouts → List String → Except FileProblem ByteArray
  | _, [] => .error .isFolder
  | here, name :: rest =>
      if isStay name then folder.follow here rest
      else if name = ".." then folder.follow here.parent rest
      else if nameLimit < name.utf8ByteSize then .error .nameTooLong
      else
        match here with
        | .outside => .error .notFound
        | .inside path =>
            let names := path ++ [name]
            match folder.file? names with
            | some bytes => if rest = [] then .ok bytes else .error .notFolder
            | none =>
                if folder.hasBelow names then folder.follow (.inside names) rest
                else .error .notFound

/-- The text in the bytes of a file. -/
def textOf (bytes : ByteArray) : Except FileProblem String :=
  match String.fromUTF8? bytes with
  | some text => .ok text
  | none => .error .notText

/-- The bytes of a text hold that text. -/
theorem textOf_toUTF8 (text : String) : textOf text.toUTF8 = .ok text := by
  have hvalid : text.toUTF8.IsValidUTF8 := text.isValidUTF8
  rw [textOf, String.fromUTF8?, dif_pos hvalid]
  rfl

/-- The text of the file at a path. The length of the whole path is looked at first. -/
def read (folder : Folder) (path : String) : Except FileProblem String :=
  if path = "" then .error .notFound
  else if pathLimit < path.utf8ByteSize then .error .nameTooLong
  else
    let start := if path.toList.head? = some '/' then .outside else .inside []
    folder.follow start (components path) >>= textOf

end Folder

end ChannelAsm
