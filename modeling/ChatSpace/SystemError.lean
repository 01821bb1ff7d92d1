
namespace ChatSpace

inductive SystemError where
  | notFound
  | tooManyArguments
  | notExecutable
  | permissionDenied
  | exists
  | notDirectory
  | isDirectory
  | tooManyFiles
  | brokenPipe
  | deadlock
  | nameTooLong
  | tooManyLinks
  | nulInArgument
  | nulInPath
  | other (text : String)
deriving DecidableEq, Repr

def SystemError.message : SystemError → String
  | .notFound => "No such file or directory (os error 2)"
  | .tooManyArguments => "Argument list too long (os error 7)"
  | .notExecutable => "Exec format error (os error 8)"
  | .permissionDenied => "Permission denied (os error 13)"
  | .exists => "File exists (os error 17)"
  | .notDirectory => "Not a directory (os error 20)"
  | .isDirectory => "Is a directory (os error 21)"
  | .tooManyFiles => "Too many open files (os error 24)"
  | .brokenPipe => "Broken pipe (os error 32)"
  | .deadlock => "Resource deadlock avoided (os error 35)"
  | .nameTooLong => "File name too long (os error 36)"
  | .tooManyLinks => "Too many levels of symbolic links (os error 40)"
  | .nulInArgument => "nul byte found in provided data"
  | .nulInPath => "file name contained an unexpected NUL byte"
  | .other text => text

end ChatSpace
