import Mathlib.Tactic

/-! Bytes, their texts, and the largest machine integers. -/

namespace Turnloop.Lib

abbrev Bytes := List UInt8

def ascii (s : String) : Bytes := s.toList.map (fun c => UInt8.ofNat c.toNat)

def U32_MAX : ℕ := 2 ^ 32 - 1

def USIZE_MAX : ℕ := 2 ^ 64 - 1

end Turnloop.Lib
