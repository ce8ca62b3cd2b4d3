/-!
# Numbers in names

Names are made distinct by numbers written in them.  That works because two numbers are
never written alike.
-/

set_option autoImplicit false

namespace TreeQuery.Text

/-- Different numbers are written differently. -/
theorem eq_of_toString_eq {first second : Nat} (same : toString first = toString second) :
    first = second := by
  have digits : Nat.toDigits 10 first = Nat.toDigits 10 second := by
    rw [← Nat.toList_repr, ← Nat.toList_repr]
    exact congrArg String.toList same
  rw [← Nat.ofDigitChars_ten_toDigits (n := first), digits, Nat.ofDigitChars_ten_toDigits]

end TreeQuery.Text
