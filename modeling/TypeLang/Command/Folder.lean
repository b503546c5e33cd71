import TypeLang.Command.Script

/-!
Scripts performed on a folder in memory. The folder holds files by name and has no folders in it;
beside it stand the bytes that arrive on the standard input.
-/

set_option autoImplicit false
set_option relaxedAutoImplicit false

namespace TypeLang.Command

/-- Files by name, and the bytes on the standard input. -/
structure Folder where
  files : List (String × ByteArray)
  input : ByteArray

namespace Folder

/-- The bytes of a file. The folder itself is called by a full stop. -/
def file (folder : Folder) (path : String) : Except FileFault ByteArray :=
  if path = "." then .error .directory
  else
    match folder.files.lookup path with
    | some data => .ok data
    | none => .error .missing

/-- The bytes of a source, which are gone from the standard input once they are read. -/
def read (folder : Folder) : Source → Except FileFault ByteArray × Folder
  | .input => (.ok folder.input, { folder with input := .empty })
  | .file path => (folder.file path, folder)

/-- Whether a name can be given to a file of the folder. -/
def isFileName (path : String) : Bool := !path.isEmpty && !path.toList.contains '/'

/-- The folder with a file written. -/
def write (folder : Folder) (path text : String) : Except FileFault Folder :=
  if path = "." then .error .directory
  else if isFileName path then
    .ok { folder with
      files := (folder.files.filter fun entry => entry.1 != path) ++ [(path, text.toUTF8)] }
  else .error .missing

/-- The files of a folder that an earlier folder does not have or has with other bytes. -/
def newSince (folder earlier : Folder) : List (String × ByteArray) :=
  folder.files.filter fun entry => earlier.files.lookup entry.1 != some entry.2

/-- Performs a script: its value, and the folder it leaves behind. -/
def perform {α : Type} : Script α → Folder → α × Folder
  | .done value, folder => (value, folder)
  | .read source next, folder =>
    let (answer, folder) := folder.read source
    perform (next answer) folder
  | .write path text next, folder =>
    match folder.write path text with
    | .ok folder => perform (next (.ok ())) folder
    | .error e => perform (next (.error e)) folder

end Folder

end TypeLang.Command
