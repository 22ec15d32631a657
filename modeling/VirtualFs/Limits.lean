/-!
# Limits

The sizes that are fixed for every virtual file system: how many descriptors a process has when
nobody says otherwise, how long one path segment may be, and the largest values of the machine
words that numbers pass through.
-/

namespace VirtualFs.Limits

/-- The capacity of a descriptor table made without one. -/
def defaultMaxFds : Nat := 128

/-- The longest path segment, in bytes. -/
def maxFilenameLength : Nat := 256

/-- The largest descriptor number a process can be given, and so the largest capacity of a
table: numbers travel as signed words of 32 bits. -/
def maxCapacity : Nat := 0x7FFFFFFF

/-- The node limit of a mount graph made without one: the largest word of 64 bits. -/
def unboundedNodes : Nat := 0xFFFFFFFFFFFFFFFF

end VirtualFs.Limits
