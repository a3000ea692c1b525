/-! # Sets of characters given by their boundaries

A set of code points is kept as the increasing list of the points where membership changes, from
outside at zero: a code point is inside when an odd number of boundaries is not above it. -/

namespace JobQueue.Text

/-- **Membership** of a code point in the set with these boundaries. -/
def within (boundaries : List Nat) (n : Nat) : Bool :=
  match boundaries with
  | [] => false
  | b :: rest => if n < b then false else !within rest n

theorem within_nil (n : Nat) : within [] n = false := rfl

theorem within_of_lt {b n : Nat} {rest : List Nat} (h : n < b) : within (b :: rest) n = false := by
  simp [within, h]

theorem within_cons {b n : Nat} {rest : List Nat} (h : b ≤ n) :
    within (b :: rest) n = !within rest n := by
  have : ¬ n < b := by omega
  simp [within, this]

end JobQueue.Text
