import ScriptBuiltins.Json.Number
import ScriptBuiltins.Json.Quoted

set_option autoImplicit false

namespace ScriptBuiltins.Json

mutual

def chars : Json → List Char
  | null => ['n', 'u', 'l', 'l']
  | bool true => ['t', 'r', 'u', 'e']
  | bool false => ['f', 'a', 'l', 's', 'e']
  | number n => n.text.toList
  | string s => Quoted.chars s
  | array [] => ['[', ']']
  | array (v :: items) => '[' :: chars v ++ itemsChars items
  | object [] => ['\x7b', '\x7d']
  | object ((key, v) :: members) =>
    '\x7b' :: Quoted.chars key ++ ':' :: chars v ++ membersChars members
termination_by structural v => v

def itemsChars : List Json → List Char
  | [] => [']']
  | v :: items => ',' :: chars v ++ itemsChars items
termination_by structural items => items

def membersChars : List (String × Json) → List Char
  | [] => ['\x7d']
  | (key, v) :: members => ',' :: Quoted.chars key ++ ':' :: chars v ++ membersChars members
termination_by structural members => members

end

def render (v : Json) : String := String.ofList v.chars

end ScriptBuiltins.Json
