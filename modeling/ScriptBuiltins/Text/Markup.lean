set_option autoImplicit false

namespace ScriptBuiltins.Text

def bold : Char := '\x02'

def charOfCode? (code : Nat) : Option Char :=
  if code = 0 ∨ 0xFFFF < code ∨ (0xD800 ≤ code ∧ code ≤ 0xDFFF) then none
  else some (Char.ofNat code)

def link (text command tooltip : String) : String :=
  let hint := if tooltip.isEmpty then "" else "[!txt]" ++ tooltip
  "\r!" ++ "[!dbl]" ++ command ++ hint ++ "\r" ++ text ++ "\r"

end ScriptBuiltins.Text
