import Mathlib.Data.List.Basic

set_option autoImplicit false

-- Byte strings (`Bytes`, `Vec<u8>`, `&[u8]`) are lists of bytes. Tick counts are
-- u64 in the source and Nat here: nothing in the modules depends on their wrapping.
namespace Lvqr

abbrev Bytes := List UInt8

end Lvqr
