/-!
Errors of the operating system: what kind of error it is, and its text.
-/

namespace ScriptLint

inductive IoErrorKind where
  | notFound
  | permissionDenied
  | invalidData
  | other
  deriving DecidableEq, Repr

structure IoError where
  kind : IoErrorKind
  message : String
  deriving DecidableEq, Repr

namespace IoError

def notFound : IoError := ⟨.notFound, "No such file or directory (os error 2)"⟩

def permissionDenied : IoError := ⟨.permissionDenied, "Permission denied (os error 13)"⟩

def alreadyExists : IoError := ⟨.other, "File exists (os error 17)"⟩

def notADirectory : IoError := ⟨.other, "Not a directory (os error 20)"⟩

def isADirectory : IoError := ⟨.other, "Is a directory (os error 21)"⟩

def nameTooLong : IoError := ⟨.other, "File name too long (os error 36)"⟩

def tooManyLinks : IoError := ⟨.other, "Too many levels of symbolic links (os error 40)"⟩

/-- A file name holds a NUL character. -/
def nulInName : IoError := ⟨.other, "file name contained an unexpected NUL byte"⟩

/-- Bytes that had to be text are not UTF-8. -/
def notText : IoError := ⟨.invalidData, "stream did not contain valid UTF-8"⟩

end IoError

end ScriptLint
