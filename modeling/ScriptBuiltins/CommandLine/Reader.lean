import ScriptBuiltins.CommandLine

set_option autoImplicit false

/-! Up to the function, every word with hyphens in front is an option, known or not. From there on
only the known options are options: any other word is the value of the option before it, if that
waits for one, or else the first argument. -/
namespace ScriptBuiltins.CommandLine

inductive Flag where
  | jsonArguments
  | json
  | list
  | verbose
deriving DecidableEq, Repr

inductive Setting where
  | host
  | window
  | disable
deriving DecidableEq, Repr

inductive Opt where
  | flag (f : Flag)
  | setting (s : Setting)
  | help
  | version
deriving DecidableEq, Repr

def Opt.ofName? : String → Option Opt
  | "host" => some (.setting .host)
  | "window" => some (.setting .window)
  | "disable" => some (.setting .disable)
  | "json-args" => some (.flag .jsonArguments)
  | "json" => some (.flag .json)
  | "list" => some (.flag .list)
  | "verbose" => some (.flag .verbose)
  | "help" => some .help
  | "version" => some .version
  | _ => none

def Opt.ofLetter? : Char → Option Opt
  | 'v' => some (.flag .verbose)
  | 'h' => some .help
  | 'V' => some .version
  | _ => none

inductive Token where
  | mark
  | long (name : String) (value : Option String)
  | short (letters : List Char)
  | plain
deriving DecidableEq, Repr

def Token.ofString (s : String) : Token :=
  match s.toList with
  | ['-', '-'] => .mark
  | '-' :: '-' :: rest =>
    let name := String.ofList (rest.takeWhile (· != '='))
    match rest.dropWhile (· != '=') with
    | [] => .long name none
    | _ :: value => .long name (some (String.ofList value))
  | '-' :: c :: rest => .short (c :: rest)
  | _ => .plain

/-- A name counts with or without a value, letters only if there is an option for each. -/
def Token.isKnown : Token → Bool
  | .mark => true
  | .long name _ => (Opt.ofName? name).isSome
  | .short letters => letters.all fun letter => (Opt.ofLetter? letter).isSome
  | .plain => false

def token (c : CommandLine) (word : String) : Token :=
  let token := Token.ofString word
  if c.function.isSome && !token.isKnown then .plain else token

def windowId? (s : String) : Option WindowId :=
  let ds :=
    match s.toList with
    | '+' :: rest => rest
    | cs => cs
  let n := Nat.ofDigitChars 10 ds 0
  if !ds.isEmpty && ds.all Char.isDigit && n < UInt64.size then some (UInt64.ofNat n) else none

def setFlag (c : CommandLine) (name : String) (f : Flag) : Except UsageError CommandLine :=
  let (before, after) : Bool × CommandLine :=
    match f with
    | .jsonArguments => (c.jsonArguments, { c with jsonArguments := true })
    | .json => (c.json, { c with json := true })
    | .list => (c.list, { c with list := true })
    | .verbose => (c.verbose, { c with verbose := true })
  if before then .error (.repeatedOption name) else .ok after

/-- Only functions may be disabled more than once, and only there the value may be empty. -/
def setValue (c : CommandLine) (name : String) (s : Setting) (value : String) :
    Except UsageError CommandLine :=
  match s with
  | .disable => .ok { c with disabled := c.disabled ++ [value] }
  | .host =>
    if value.isEmpty then .error (.invalidValue name value)
    else if c.host.isSome then .error (.repeatedOption name)
    else .ok { c with host := some value }
  | .window =>
    match windowId? value with
    | none => .error (.invalidValue name value)
    | some id =>
      if c.window.isSome then .error (.repeatedOption name)
      else .ok { c with window := some id }

def setLetters (c : CommandLine) : List Char → Except UsageError Request
  | [] => .ok (.run c)
  | letter :: letters =>
    let name := String.ofList ['-', letter]
    match Opt.ofLetter? letter with
    | some (.flag f) => do (← c.setFlag name f).setLetters letters
    | some .help => .ok .help
    | some .version => .ok .version
    | _ => .error (.unknownOption name)

def setWords (c : CommandLine) (words : List String) : CommandLine :=
  match c.function, words with
  | none, function :: arguments => { c with function := some function, arguments }
  | _, arguments => { c with arguments }

def finish (c : CommandLine) : Except UsageError Request :=
  if c.function.isNone && !c.list then .error .missingFunction else .ok (.run c)

def parseFrom (c : CommandLine) : List String → Except UsageError Request
  | [] => c.finish
  | word :: words =>
    match c.token word with
    | .mark => (c.setWords words).finish
    | .plain =>
      match c.function with
      | none => parseFrom { c with function := some word } words
      | some _ => .ok (.run { c with arguments := word :: words })
    | .long name value =>
      match Opt.ofName? name, value, words with
      | none, _, _ => .error (.unknownOption word)
      | some .help, none, _ => .ok .help
      | some .version, none, _ => .ok .version
      | some (.flag f), none, words => do parseFrom (← c.setFlag word f) words
      | some (.setting s), some value, words => do
        parseFrom (← c.setValue ("--" ++ name) s value) words
      | some (.setting s), none, value :: words =>
        if c.token value = .plain then do parseFrom (← c.setValue word s value) words
        else .error (.missingValue word)
      | some (.setting _), none, [] => .error (.missingValue word)
      | some _, some _, _ => .error (.unexpectedValue ("--" ++ name))
    | .short letters =>
      match c.setLetters letters with
      | .ok (.run c) => parseFrom c words
      | other => other
termination_by structural words => words

def parse (words : List String) : Except UsageError Request := parseFrom {} words

end ScriptBuiltins.CommandLine
