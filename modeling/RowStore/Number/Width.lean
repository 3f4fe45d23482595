/-!
# Widths

Which integers a word of so many bits holds.
-/
namespace RowStore

/-- Whether a signed word of `bits` bits holds an integer. -/
abbrev FitsSigned (bits : Nat) (n : Int) : Prop :=
  -((1 <<< (bits - 1) : Nat) : Int) ≤ n ∧ n < (1 <<< (bits - 1) : Nat)

/-- Whether an unsigned word of `bits` bits holds an integer. -/
abbrev FitsUnsigned (bits : Nat) (n : Int) : Prop := 0 ≤ n ∧ n < (1 <<< bits : Nat)

end RowStore
