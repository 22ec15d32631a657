import VirtualFs.Path.Segment

/-!
# The order of segments is total

`Segment.order` is a linear order whose ties are equal segments: it compares byte lengths and then
bytes, and a text is determined by its bytes (`bytes_injective`).

`Segment.Before` is the strict order.
-/

namespace VirtualFs.Path

/-- Different texts have different bytes. -/
theorem bytes_injective {a b : List Char} (h : bytes a = bytes b) : a = b := by
  have hs : String.ofList a = String.ofList b := by
    rw [← String.toByteArray_inj, String.toByteArray_ofList, String.toByteArray_ofList]
    exact congrArg List.toByteArray h
  simpa using congrArg String.toList hs

end VirtualFs.Path

namespace VirtualFs.Segment

theorem order_eq_compareLex :
    order = compareLex (compareOn Path.byteLength) (compareOn Path.bytes) := rfl

instance : Std.TransCmp order := by
  rw [order_eq_compareLex]; infer_instance

/-- Only equal segments tie. -/
theorem order_eq_iff {a b : Segment} : order a b = .eq ↔ a = b := by
  constructor
  · intro h
    rw [order, Ordering.then_eq_eq] at h
    exact Path.bytes_injective (Std.LawfulEqOrd.eq_of_compare h.2)
  · rintro rfl
    exact Std.ReflCmp.compare_self

/-- `a` comes before `b` in the order of siblings. -/
def Before (a b : Segment) : Prop := order a b = .lt

theorem Before.ne {a b : Segment} (h : Before a b) : a ≠ b := by
  rintro rfl
  rw [Before, order_eq_iff.mpr rfl] at h
  cases h

theorem before_iff_gt {a b : Segment} : Before a b ↔ order b a = .gt := by
  rw [Before, Std.OrientedCmp.gt_iff_lt]

theorem Before.trans {a b c : Segment} (h : Before a b) (h' : Before b c) : Before a c :=
  Std.TransCmp.lt_trans h h'

/-- `b` comes behind `a`, if there is one. -/
def Behind (a : Option Segment) (b : Segment) : Prop := ∀ last, a = some last → Before last b

theorem behind_none (b : Segment) : Behind none b := nofun

theorem behind_some {a b : Segment} : Behind (some a) b ↔ Before a b :=
  ⟨fun h => h a rfl, fun h _ he => Option.some.inj he ▸ h⟩

theorem Behind.trans {a : Option Segment} {b c : Segment} (h : Behind a b) (h' : Before b c) :
    Behind a c := fun last he => (h last he).trans h'

end VirtualFs.Segment
