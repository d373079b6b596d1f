import Mathlib

set_option autoImplicit false

-- Amounts divided one by one against their sum divided once: the remainders that
-- the single divisions drop are the difference.
namespace Carry

def quotients (divisor : Nat) (amounts : List Nat) : Nat := (amounts.map (· / divisor)).sum

end Carry
