/-!
Why a file cannot be read or written.
-/

namespace EnumRegistry

inductive FileFailure
  | missing
  | occupied
  | notDirectory
  | isDirectory
  | nameTooLong
  | unusableName
  | notText
  | other (words : String)
  deriving DecidableEq, Repr

def FileFailure.message : FileFailure → String
  | missing => "No such file or directory (os error 2)"
  | occupied => "File exists (os error 17)"
  | notDirectory => "Not a directory (os error 20)"
  | isDirectory => "Is a directory (os error 21)"
  | nameTooLong => "File name too long (os error 36)"
  | unusableName => "file name contained an unexpected NUL byte"
  | notText => "stream did not contain valid UTF-8"
  | other words => words

end EnumRegistry
