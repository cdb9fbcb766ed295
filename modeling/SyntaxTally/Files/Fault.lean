import SyntaxTally.Text.Utf8

/-!
# File faults

Why a path could not be used, and why a file could not be read as text.
-/
namespace SyntaxTally.Files

inductive Fault where
  | missing
  /-- A socket is not opened like a file. -/
  | noDevice
  | denied
  | notDirectory
  | isDirectory
  | nameTooLong
  | linkLoop
  /-- The path has a null character in it, so that no call is made at all. -/
  | nullInPath
  deriving DecidableEq

namespace Fault

def number : Fault → Nat
  | missing => 2
  | noDevice => 6
  | denied => 13
  | notDirectory => 20
  | isDirectory => 21
  | nameTooLong => 36
  | linkLoop => 40
  | nullInPath => 0

/-- The short text of the fault. -/
def text : Fault → String
  | missing => "No such file or directory"
  | noDevice => "No such device or address"
  | denied => "Permission denied"
  | notDirectory => "Not a directory"
  | isDirectory => "Is a directory"
  | nameTooLong => "File name too long"
  | linkLoop => "Too many levels of symbolic links"
  | nullInPath => "embedded null byte"

/-- The kind of the failure, as reports of a failed run name it. -/
def kind : Fault → String
  | missing => "FileNotFoundError"
  | denied => "PermissionError"
  | notDirectory => "NotADirectoryError"
  | isDirectory => "IsADirectoryError"
  | noDevice | nameTooLong | linkLoop => "OSError"
  | nullInPath => "ValueError"

/-- The full text, with the path the failing call was given. -/
def message (path : String) : Fault → String
  | nullInPath => nullInPath.text
  | fault => "[Errno " ++ toString fault.number ++ "] " ++ fault.text ++ ": " ++ Text.quoted path

/-- A path with this fault simply names nothing. -/
def isAbsence : Fault → Bool
  | missing | notDirectory | linkLoop | nullInPath => true
  | noDevice | denied | isDirectory | nameTooLong => false

end Fault

/-- Why a file could not be read as text. -/
inductive ReadFault where
  | system (fault : Fault) (path : String)
  | encoding (fault : Text.Utf8Fault)
  deriving DecidableEq

def ReadFault.message : ReadFault → String
  | system fault path => fault.message path
  | encoding fault => fault.message

end SyntaxTally.Files
