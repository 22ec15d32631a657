/-!
# Open flags

The permissions a file is opened with, as a word of 32 bits.  Two bits have a meaning: one allows
reading (also listing and control), one allows writing.  The other bits are carried along
unless `truncated` clears them.
-/

namespace VirtualFs

/-- The flag word of an open file. -/
structure OpenFlags where
  bits : UInt32
deriving DecidableEq, Repr

namespace OpenFlags

/-- Permission to write. -/
def permWrite : OpenFlags := ⟨2⟩

/-- Permission to read, to list and to control. -/
def permRead : OpenFlags := ⟨4⟩

/-- Open for reading. -/
def readOnly : OpenFlags := permRead

/-- Open for reading and writing. -/
def readWrite : OpenFlags := ⟨permRead.bits ||| permWrite.bits⟩

/-- All bits that have a meaning. -/
def known : OpenFlags := readWrite

/-- Every bit of `other` is set. -/
def contains (flags other : OpenFlags) : Bool :=
  flags.bits &&& other.bits == other.bits

/-- Reading is allowed. -/
def readable (flags : OpenFlags) : Bool :=
  flags.contains permRead

/-- Writing is allowed. -/
def writable (flags : OpenFlags) : Bool :=
  flags.contains permWrite

/-- The flags without the bits that have no meaning. -/
def truncated (flags : OpenFlags) : OpenFlags :=
  ⟨flags.bits &&& known.bits⟩

/-- No bit without a meaning is set. -/
def isKnown (flags : OpenFlags) : Bool :=
  flags.truncated == flags

end OpenFlags

end VirtualFs
