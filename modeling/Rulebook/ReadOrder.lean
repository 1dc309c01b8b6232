/-!
# Orders of reading

A folder and a table without an order have their parts in an order that nobody has said, and the
next time it may be another one.  An order is a way to arrange parts so that each of them is read
once.  What is said of every order holds whichever it is.
-/

namespace Rulebook

/-- An order that parts are read in. -/
structure ReadOrder (α : Type) where
  /-- The parts in this order. -/
  arrange : List α → List α
  /-- Every part is read once. -/
  perm_arrange : ∀ xs, (arrange xs).Perm xs

namespace ReadOrder

variable {α : Type}

/-- The order that parts are given in. -/
def given : ReadOrder α := ⟨id, .refl⟩

@[simp] theorem arrange_given (xs : List α) : given.arrange xs = xs := rfl

theorem mem_arrange (order : ReadOrder α) {xs : List α} {x : α} :
    x ∈ order.arrange xs ↔ x ∈ xs := (order.perm_arrange xs).mem_iff

/-- Every arrangement is that of an order. -/
theorem exists_arrange_eq [DecidableEq α] {xs arranged : List α} (h : arranged.Perm xs) :
    ∃ order : ReadOrder α, order.arrange xs = arranged := by
  refine ⟨⟨fun ys => if ys = xs then arranged else ys, fun ys => ?_⟩, if_pos rfl⟩
  split
  next heq => exact heq ▸ h
  next => exact .refl ys

end ReadOrder

end Rulebook
