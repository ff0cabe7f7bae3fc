/-
The number that a row of digits writes.

Digits are taken from the lowest on.  Two digits in one base make one digit in the squared base, so
a row of digits has the value of a row half as long.  Halving a long row again and again leaves few
steps with long numbers, where reading it digit by digit takes one for each digit.

Main definitions:

* `Geofence.Positional.value` — the number that digits write;
* `Geofence.Positional.paired` — a row of digits taken two by two;
* `Geofence.Positional.number` — the number that digits write, worked out by halving the row.

Main results:

* `Geofence.Positional.value_paired` — pairing keeps the value;
* `Geofence.Positional.number_eq_value` — the two ways to the number agree.
-/

set_option relaxedAutoImplicit false
set_option autoImplicit false

namespace Geofence.Positional

/-! ### The value of a row of digits -/

/-- The number that digits write in a base, the lowest digit first. -/
def value (base : Nat) (digits : List Nat) : Nat := digits.foldr (fun d n => d + base * n) 0

@[simp]
theorem value_nil (base : Nat) : value base [] = 0 := rfl

@[simp]
theorem value_cons (base d : Nat) (digits : List Nat) :
    value base (d :: digits) = d + base * value base digits := rfl

/-! ### Taking digits two by two -/

/-- The digits of `digits` two by two, behind the digits `done`, of which the highest is first. -/
def pairedBehind (base : Nat) (done : List Nat) : List Nat → List Nat
  | [] => done.reverse
  | [d] => (d :: done).reverse
  | low :: high :: digits => pairedBehind base ((low + base * high) :: done) digits

/-- The digits of a row two by two, as digits in the squared base. -/
def paired (base : Nat) (digits : List Nat) : List Nat := pairedBehind base [] digits

/-- A row of pairs behind other digits has the value of the row, with those digits below it. -/
theorem value_pairedBehind (base : Nat) (done digits : List Nat) :
    value (base * base) (pairedBehind base done digits) =
      done.foldl (fun n d => d + base * base * n) (value base digits) := by
  fun_induction pairedBehind base done digits with
  | case1 done => simp [value]
  | case2 done d => simp [value]
  | case3 done low high digits ih =>
    rw [ih, List.foldl_cons, value_cons, value_cons, Nat.mul_add, ← Nat.mul_assoc, Nat.add_assoc]

/-- Pairing keeps the value. -/
theorem value_paired (base : Nat) (digits : List Nat) :
    value (base * base) (paired base digits) = value base digits :=
  value_pairedBehind base [] digits

/-! ### Halving a row -/

/-- The number that digits write, after the row was halved a number of times. -/
def halved : Nat → Nat → List Nat → Nat
  | 0, base, digits => value base digits
  | times + 1, base, digits => halved times (base * base) (paired base digits)

/-- Halving keeps the value. -/
theorem halved_eq_value (times base : Nat) (digits : List Nat) :
    halved times base digits = value base digits := by
  induction times generalizing base digits with
  | zero => rfl
  | succ times ih => rw [halved, ih, value_paired]

/-- The number that digits write: the row is halved until it has hardly a digit left. -/
def number (base : Nat) (digits : List Nat) : Nat := halved digits.length.log2 base digits

/-- Working a number out by halving gives the value of its digits. -/
theorem number_eq_value (base : Nat) (digits : List Nat) :
    number base digits = value base digits := halved_eq_value _ _ _

end Geofence.Positional
