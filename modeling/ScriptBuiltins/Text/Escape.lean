set_option autoImplicit false

namespace ScriptBuiltins.Text

def metacharacters : List Char :=
  ['\\', '$', '%', ';', '"', '\x7b', '\x7d', '(', ')', '[', ']']

def escapeChar (c : Char) : List Char :=
  if c = '\n' then ['\\', 'n']
  else if c ∈ metacharacters then ['\\', c]
  else [c]

def escape (s : String) : String :=
  String.ofList (s.toList.flatMap escapeChar)

end ScriptBuiltins.Text
