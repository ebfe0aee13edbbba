/-!
Failures of input and output: those of the operating system, and others by kind and text.
-/

namespace ClassAtlas

inductive OsError where
  | notFound
  | execFormat
  | permissionDenied
  | fileExists
  | notADirectory
  | isADirectory
  | noSpace
  | nameTooLong
  | tooManyLinks
  /-- The name is no name to the system, because it holds the character that ends names. -/
  | nulInName
  deriving Repr, DecidableEq

def OsError.number? : OsError → Option Nat
  | .notFound => some 2
  | .execFormat => some 8
  | .permissionDenied => some 13
  | .fileExists => some 17
  | .notADirectory => some 20
  | .isADirectory => some 21
  | .noSpace => some 28
  | .nameTooLong => some 36
  | .tooManyLinks => some 40
  | .nulInName => none

def OsError.description : OsError → String
  | .notFound => "No such file or directory"
  | .execFormat => "Exec format error"
  | .permissionDenied => "Permission denied"
  | .fileExists => "File exists"
  | .notADirectory => "Not a directory"
  | .isADirectory => "Is a directory"
  | .noSpace => "No space left on device"
  | .nameTooLong => "File name too long"
  | .nulInName => "file name contained an unexpected NUL byte"
  | .tooManyLinks => "Too many levels of symbolic links"

def OsError.message (e : OsError) : String :=
  match e.number? with
  | some number => e.description ++ s!" (os error {number})"
  | none => e.description

inductive IoErrorKind where
  | notFound
  | permissionDenied
  | other
  deriving Repr, DecidableEq

inductive IoError where
  | os (cause : OsError)
  | described (kind : IoErrorKind) (text : String)
  deriving Repr, DecidableEq

namespace IoError

def message : IoError → String
  | .os cause => cause.message
  | .described _ text => text

def isPermissionDenied : IoError → Bool
  | .os cause => cause == .permissionDenied
  | .described kind _ => kind == .permissionDenied

def notUtf8 : IoError :=
  .described .other "stream did not contain valid UTF-8"

end IoError

end ClassAtlas
