/-!
# Errors

The ways a call on the virtual file system can fail, as causes: `Error`.  Each has a negative
error number for callers that speak numbers (`Error.errno`) and one line of English
(`Error.message`), which is also what log lines quote.
-/

namespace VirtualFs

/-- Why a call failed. -/
inductive Error where
  /-- An empty or relative path, a descriptor number out of range, a handle of the wrong kind. -/
  | invalidArgument
  /-- A path segment longer than a directory entry may be. -/
  | nameTooLong
  /-- A node limit or a copying budget is used up. -/
  | noMemory
  /-- Every slot of the descriptor table is taken. -/
  | tooManyOpenFiles
  /-- No mount point, node or file answers to the name. -/
  | notFound
  /-- The descriptor number is in range, but no file is open on it. -/
  | badFileDescriptor
  /-- The mount point already has a driver, or the type name a filesystem. -/
  | alreadyExists
  /-- The resource is in use. -/
  | busy
  /-- The driver does not offer the operation. -/
  | notSupported
  /-- The file was opened without the permission that the operation needs. -/
  | permissionDenied
  /-- The driver failed for a reason of its own. -/
  | ioError
deriving DecidableEq, Repr

namespace Error

/-- The error number, always negative. -/
def errno : Error → Int
  | notFound => -2
  | ioError => -5
  | badFileDescriptor => -9
  | noMemory => -12
  | permissionDenied => -13
  | busy => -16
  | alreadyExists => -17
  | invalidArgument => -22
  | tooManyOpenFiles => -24
  | nameTooLong => -36
  | notSupported => -95

/-- The error in words. -/
def message : Error → String
  | invalidArgument => "invalid argument"
  | nameTooLong => "file name too long"
  | noMemory => "out of memory"
  | tooManyOpenFiles => "no free file descriptor"
  | notFound => "no such mount point or file"
  | badFileDescriptor => "bad file descriptor"
  | alreadyExists => "a driver is already mounted there"
  | busy => "resource busy"
  | notSupported => "operation not supported by driver"
  | permissionDenied => "permission denied"
  | ioError => "driver I/O error"

end Error

end VirtualFs
