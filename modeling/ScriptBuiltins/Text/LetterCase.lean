set_option autoImplicit false

namespace ScriptBuiltins.Text

/-- Only `A` to `Z` change: `É` and `é` stay different. -/
def lowercase (s : String) : String :=
  String.ofList (s.toList.map Char.toLower)

def sameIgnoringCase (s t : String) : Bool :=
  lowercase s == lowercase t

def anyIgnoringCase (names : List String) (name : String) : Bool :=
  names.any (sameIgnoringCase · name)

end ScriptBuiltins.Text
