import VirtualFs.Descriptor.Table
import VirtualFs.Text.Quoted

/-!
# Descriptions

Tables, descriptors and driver records in one line of text each, for people to read: the kind of
thing and its fields in braces.
-/

namespace VirtualFs

namespace Description

/-- The kind of a thing and its fields with their texts. -/
def ofFields (kind : String) (fields : List (String × String)) : String :=
  let shown := ", ".intercalate (fields.map fun field => field.1 ++ ": " ++ field.2)
  kind ++ " \x7b " ++ shown ++ " \x7d"

/-- A string between quotes. -/
def ofString (s : String) : String := String.ofList (Text.quoted s.toList)

/-- A table: how many slots it has and how many are not free. -/
def ofTable (capacity used : Nat) : String :=
  ofFields "FDTable" [("capacity", toString capacity), ("used", toString used)]

/-- A descriptor: its path, the name of its driver, and the references to it. -/
def ofDescriptor (d : Descriptor) (references : Nat) : String :=
  ofFields "SharedDescriptor" [("path", ofString (Path.text d.path)),
    ("driver", ofString d.record.driver.name), ("refs", toString references)]

/-- A record: the name of its driver, and the type of the filesystem that made it. -/
def ofRecord (r : Record) : String :=
  let fs := match r.fs with
    | none => "None"
    | some fs => "Some(" ++ ofString fs.fsType ++ ")"
  ofFields "DriverRecord" [("driver", ofString r.driver.name), ("fs", fs)]

end Description

end VirtualFs
