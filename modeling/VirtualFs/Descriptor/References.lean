import VirtualFs.Descriptor.Table

/-!
# References to descriptors

For every descriptor, how many slots hold it.  The count begins with one for the slot the file is
opened into, grows when a table is copied, and falls when a slot is closed; the slot that brings it
to nothing is the last, and only its closing reaches the driver.  If the driver then refuses, the
last reference is given back.

References that would be taken from nothing, or given back where some are left, are faults.

* `count_write`, `count_create`: what writing a count and making a descriptor do to the counts.
-/

namespace VirtualFs

/-- The number of references to each descriptor, by its number. -/
structure References where
  counts : Array Nat
deriving DecidableEq, Repr

/-- What is left after a reference is released. -/
inductive Release where
  /-- Other references. -/
  | shared
  /-- Nothing: this was the last. -/
  | last
deriving DecidableEq, Repr

namespace References

/-- The number of references to descriptor `id`. -/
def count (r : References) (id : Nat) : Nat :=
  r.counts.getD id 0

/-- The counts with another number for `id`. -/
def write (r : References) (id n : Nat) : References :=
  ⟨r.counts.setIfInBounds id n⟩

/-- The number of the next new descriptor. -/
def next (r : References) : Nat := r.counts.size

/-- One reference to a new descriptor. -/
def create (r : References) : References :=
  ⟨r.counts.push 1⟩

/-- One more reference to a descriptor that has some. -/
def acquire (r : References) (d : Descriptor) : Checked References :=
  match r.count d.id with
  | 0 => .error (.acquiringReleased d.path)
  | n + 1 => .ok (r.write d.id (n + 2))

/-- One reference less. -/
def release (r : References) (d : Descriptor) : Checked (Release × References) :=
  match r.count d.id with
  | 0 => .error (.releasedTwice d.path)
  | 1 => .ok (.last, r.write d.id 0)
  | n + 2 => .ok (.shared, r.write d.id (n + 1))

/-- The last reference again, to a descriptor that has none. -/
def restore (r : References) (d : Descriptor) : Checked References :=
  match r.count d.id with
  | 0 => .ok (r.write d.id 1)
  | _ + 1 => .error (.restoringLive d.path)

theorem count_write (r : References) (id other n : Nat) :
    (r.write id n).count other = if other = id ∧ id < r.next then n else r.count other := by
  simp only [count, write, next, Array.getD_eq_getD_getElem?, Array.getElem?_setIfInBounds]
  by_cases h : id = other
  · subst h
    by_cases hb : id < r.counts.size <;> simp [hb]
  · have h' : other ≠ id := fun e => h e.symm
    simp [h, h']

theorem count_create (r : References) (id : Nat) :
    r.create.count id = if id = r.next then 1 else r.count id := by
  simp only [count, create, next, Array.getD_eq_getD_getElem?, Array.getElem?_push]
  split <;> rfl

end References

end VirtualFs
