import Quorum.Failure

/-!
# Arithmetic on 64-bit words

Clock values, delays and terms are natural numbers below `Word.limit`. The operations here are the
exact ones on natural numbers, except that a result which would leave the range is a fault.
-/

namespace Quorum.Word

/-- The first number that does not fit into 64 bits. -/
def limit : Nat := 18446744073709551616

def add (left right : Nat) : Except Fault Nat :=
  if left + right < limit then .ok (left + right) else .error .overflow

def mul (left right : Nat) : Except Fault Nat :=
  if left * right < limit then .ok (left * right) else .error .overflow

/-- The quotient, rounded down. -/
def div (dividend divisor : Nat) : Except Fault Nat :=
  if divisor = 0 then .error .divisionByZero else .ok (dividend / divisor)

theorem add_eq_ok {left right : Nat} (h : left + right < limit) :
    add left right = .ok (left + right) := by
  simp [add, h]

theorem mul_eq_ok {left right : Nat} (h : left * right < limit) :
    mul left right = .ok (left * right) := by
  simp [mul, h]

theorem div_eq_ok {dividend divisor : Nat} (h : divisor ≠ 0) :
    div dividend divisor = .ok (dividend / divisor) := by
  simp [div, h]

theorem add_eq_ok_iff {left right sum : Nat} :
    add left right = .ok sum ↔ left + right < limit ∧ sum = left + right := by
  by_cases fits : left + right < limit
  · simp [add, fits, eq_comm]
  · simp [add, fits]

theorem mul_eq_ok_iff {left right product : Nat} :
    mul left right = .ok product ↔ left * right < limit ∧ product = left * right := by
  by_cases fits : left * right < limit
  · simp [mul, fits, eq_comm]
  · simp [mul, fits]

theorem add_eq_error {left right : Nat} {cause : Fault} (failed : add left right = .error cause) :
    limit ≤ left + right ∧ cause = .overflow := by
  by_cases fits : left + right < limit
  · simp [add, fits] at failed
  · exact ⟨Nat.not_lt.mp fits, by simpa [add, fits, eq_comm] using failed⟩

theorem mul_eq_error {left right : Nat} {cause : Fault} (failed : mul left right = .error cause) :
    limit ≤ left * right ∧ cause = .overflow := by
  by_cases fits : left * right < limit
  · simp [mul, fits] at failed
  · exact ⟨Nat.not_lt.mp fits, by simpa [mul, fits, eq_comm] using failed⟩

end Quorum.Word
