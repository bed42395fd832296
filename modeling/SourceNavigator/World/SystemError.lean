import SourceNavigator.Text.Quoted

/-!
# Errors of the operating system

A `Fault` is a way in which a lookup fails. A `SystemError` is what is reported of it: a number, a
text, and the path that was asked for. `Trouble` adds the one mistake that is found before the
system is asked.
-/

namespace SourceNavigator.World

/-- Why a path leads to no usable node. -/
inductive Fault where
  | notFound
  | denied
  | alreadyExists
  | notDirectory
  | isDirectory
  | nameTooLong
  | tooManyLinks
  deriving DecidableEq, Repr

def Fault.code : Fault → Int
  | .notFound => 2
  | .denied => 13
  | .alreadyExists => 17
  | .notDirectory => 20
  | .isDirectory => 21
  | .nameTooLong => 36
  | .tooManyLinks => 40

def Fault.text : Fault → String
  | .notFound => "No such file or directory"
  | .denied => "Permission denied"
  | .alreadyExists => "File exists"
  | .notDirectory => "Not a directory"
  | .isDirectory => "Is a directory"
  | .nameTooLong => "File name too long"
  | .tooManyLinks => "Too many levels of symbolic links"

/-! ## Reports -/

/-- An error report: a text alone, or a number and a text with the path it is about. -/
inductive SystemError where
  | plain (text : String)
  | numbered (code : Int) (text : String) (path : Option String)
  deriving DecidableEq, Repr

/-- The report of a fault at a path. -/
def Fault.at (f : Fault) (path : String) : SystemError := .numbered f.code f.text (some path)

def SystemError.message : SystemError → String
  | .plain text => text
  | .numbered code text path =>
    let head := "[Errno " ++ toString code ++ "] " ++ text
    match path with
    | none => head
    | some path => head ++ ": " ++ Text.quote path

/-! ## Trouble with a path -/

/-- Why a file operation fails: the system reports an error, or the path holds a NUL character and
is not passed on at all. -/
inductive Trouble where
  | system (e : SystemError)
  | nulCharacter
  deriving DecidableEq, Repr

/-- The wording for a path that holds a NUL character. -/
def nulMessage : String := "embedded null byte"

def Trouble.message : Trouble → String
  | .system e => e.message
  | .nulCharacter => nulMessage

end SourceNavigator.World
