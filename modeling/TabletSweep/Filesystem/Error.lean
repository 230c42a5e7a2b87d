import TabletSweep.IoError

/-!
# Errors of the filesystem

The reasons for which an operation on a path is refused. Each but the last is an error that the
operating system numbers.
-/

namespace TabletSweep

/-- Why an operation on a path is refused. -/
inductive FsError
  /-- Something on the way, or the target itself, does not exist. -/
  | notFound
  /-- The directory itself is in use. -/
  | busy
  /-- The target exists already. -/
  | alreadyExists
  /-- Something on the way, or the target itself, is no directory. -/
  | notADirectory
  /-- The target is a directory. -/
  | isADirectory
  /-- The operation makes no sense on the target. -/
  | invalid
  /-- The path or a name in it is too long. -/
  | nameTooLong
  /-- The directory is not empty. -/
  | notEmpty
  /-- Too many symbolic links have to be followed. -/
  | tooManyLinks
  /-- The path holds the null character. -/
  | nullCharacter
  deriving DecidableEq, Repr, Inhabited

/-- A filesystem error as an input or output error. -/
def FsError.toIoError : FsError → IoError
  | notFound => .system 2
  | busy => .system 16
  | alreadyExists => .system 17
  | notADirectory => .system 20
  | isADirectory => .system 21
  | invalid => .system 22
  | nameTooLong => .system 36
  | notEmpty => .system 39
  | tooManyLinks => .system 40
  | nullCharacter => .other "file name contained an unexpected NUL byte"

end TabletSweep
