/-!
# Totals

The sum of a count over the members of a list.
-/

namespace Scrutiny

/-- The sum of what a function counts for each member of a list. -/
def total {α : Type} (count : α → Nat) : List α → Nat
  | [] => 0
  | a :: rest => count a + total count rest

/-- A total over two lists is the sum of the totals. -/
theorem total_append {α : Type} (count : α → Nat) (as bs : List α) :
    total count (as ++ bs) = total count as + total count bs := by
  induction as with
  | nil => simp [total]
  | cons a rest ih => simp [total, ih, Nat.add_assoc]

/-- A total does not depend on the order. -/
theorem total_eq_of_perm {α : Type} (count : α → Nat) {as bs : List α} (h : as.Perm bs) :
    total count as = total count bs := by
  induction h with
  | nil => rfl
  | cons a _ ih => simp [total, ih]
  | swap a b rest => simp [total, Nat.add_left_comm]
  | trans _ _ ih ih' => rw [ih, ih']

end Scrutiny
