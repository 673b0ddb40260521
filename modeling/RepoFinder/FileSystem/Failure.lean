
namespace RepoFinder.FileSystem

inductive Failure where
  | notFound
  | alreadyExists
  | notDirectory
  | isDirectory
  | busy
  | nameTooLong
  | tooManyLinks
  | notEmpty
  -- A name with a zero byte, which never reaches the system.
  | zeroByte
deriving DecidableEq, Repr

namespace Failure

def number? : Failure → Option Nat
  | notFound => some 2
  | alreadyExists => some 17
  | notDirectory => some 20
  | isDirectory => some 21
  | busy => some 16
  | nameTooLong => some 36
  | tooManyLinks => some 40
  | notEmpty => some 39
  | zeroByte => none

def words : Failure → String
  | notFound => "No such file or directory"
  | alreadyExists => "File exists"
  | notDirectory => "Not a directory"
  | isDirectory => "Is a directory"
  | busy => "Device or resource busy"
  | nameTooLong => "File name too long"
  | tooManyLinks => "Too many levels of symbolic links"
  | notEmpty => "Directory not empty"
  | zeroByte => "file name contained an unexpected NUL byte"

def message (failure : Failure) : String :=
  match failure.number? with
  | some number => failure.words ++ " (os error " ++ toString number ++ ")"
  | none => failure.words

end Failure

end RepoFinder.FileSystem
