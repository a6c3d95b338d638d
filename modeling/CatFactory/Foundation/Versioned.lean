import Mathlib.Order.Basic

/-!
# Revision-guarded storage

A store holds at most one row, and every write of the row moves its revision
by one.  A writer that read the row keeps a snapshot; the store accepts its
replacement only while the stored revision is still the snapshot's.
-/

namespace CatFactory
namespace Foundation

variable {row : Type}

/-- The guarded write: the new row when it lands, `none` when it is refused. -/
def compareAndSwap (rev : row -> Nat) (stored : Option row) (next : row)
    (expectedRev : Nat) : Option row :=
  match stored with
  | none => none
  | some current => if rev current = expectedRev then some next else none

/-- What a reader's snapshot says about the row stored now: the revision never
went back, and an unmoved revision means an unmoved row. -/
structure Snapshot (rev : row -> Nat) (stored seen : row) : Prop where
  rev_le : rev seen ≤ rev stored
  same_of_rev : rev seen = rev stored -> seen = stored

theorem Snapshot.fresh (rev : row -> Nat) (stored : row) :
    Snapshot rev stored stored :=
  ⟨Nat.le_refl _, fun _ => rfl⟩

theorem Snapshot.moved {rev : row -> Nat} {stored seen next : row}
    (h : Snapshot rev stored seen) (hnext : rev stored < rev next) :
    Snapshot rev next seen := by
  have hlt : rev seen < rev next := Nat.lt_of_le_of_lt h.rev_le hnext
  exact ⟨Nat.le_of_lt hlt, fun heq => absurd heq (Nat.ne_of_lt hlt)⟩

end Foundation
end CatFactory
