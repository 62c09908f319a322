import EntityModel.Text.Blank

/-!
# Options on a command line

Words that start with a dash are options. The value of an option follows in the same word or is the next
word; it is looked at no sooner than the next option or argument that can stand where it does. A word that
cannot is refused before it. Main definitions: `Word.ofText`, `Given.readLong`, `Given.readShort`,
`Given.settle`.
-/

namespace EntityModel

/-- Why a command line is refused. Asking for help or for the version counts too. -/
inductive UsageError where
  | help
  | version
  | nothingGiven
  | missingCommand
  | unknownCommand
  | unknownArgument
  | missingArgument
  | invalidValue
  | unneededValue
  | repeatedOption
deriving DecidableEq

/-! ### Words -/

/-- A word of a command line: two dashes alone, a long option with the value in the same word if there
is one, the letters of a short one, or anything else. -/
inductive Word where
  | escape
  | long (name : String) (value : Option String)
  | short (letter : Char) (rest : List Char)
  | plain (text : String)
deriving DecidableEq

/-- Cuts a long option at its first equals sign. -/
def Word.ofLong (text : List Char) : Word :=
  match text.span (· != '=') with
  | (name, _ :: value) => .long (String.ofList name) (some (String.ofList value))
  | (name, []) => .long (String.ofList name) none

/-- The kind of a word. A single dash is no option. -/
def Word.ofText (text : String) : Word :=
  match text.toList with
  | ['-', '-'] => .escape
  | '-' :: '-' :: rest => ofLong rest
  | '-' :: letter :: rest => .short letter rest
  | _ => .plain text

/-! ### Options -/

/-- What an option does: it takes a value, or asks for help or the version. -/
inductive Flag (ω : Type) where
  | value (option : ω)
  | help
  | version

/-- The options of a program or command, whether each may be repeated, and what values it takes. -/
structure OptionSet (ω : Type) where
  long? : String → Option (Flag ω)
  short? : Char → Option (Flag ω)
  repeats : ω → Bool
  accepts : ω → String → Bool

/-- The options given so far, and the last one with its value in a word of its own, once that is read. -/
structure Given (ω : Type) where
  values : List (ω × String) := []
  pending : Option (ω × Option String) := none

namespace Given

variable {ω : Type} [BEq ω]

/-- Whether the next word is the value of an option. -/
def needsValue (given : Given ω) : Bool := given.pending.any (·.2.isNone)

/-- Reads the value of the last option. -/
def take (given : Given ω) (value : String) : Given ω :=
  { given with pending := given.pending.map fun (option, _) => (option, some value) }

def assign (options : OptionSet ω) (given : Given ω) (option : ω) (value : String) :
    Except UsageError (Given ω) :=
  if !options.repeats option && (given.values.lookup option).isSome then .error .repeatedOption
  else if !options.accepts option value then .error .invalidValue
  else .ok { given with values := given.values ++ [(option, value)] }

/-- Looks at the value of the last option, if it is not done yet. -/
def settle (options : OptionSet ω) (given : Given ω) : Except UsageError (Given ω) :=
  match given.pending with
  | none => .ok given
  | some (_, none) => .error .invalidValue
  | some (option, some value) => { given with pending := none }.assign options option value

/-- Carries out an option whose value, if any, is in the same word. An unknown one, or a value where none
is taken, is refused before the last option is looked at. -/
def apply (options : OptionSet ω) (given : Given ω) (flag : Option (Flag ω))
    (value : Option String) : Except UsageError (Given ω) :=
  match flag, value with
  | none, _ => .error .unknownArgument
  | some .help, some _ => .error .unneededValue
  | some .version, some _ => .error .unneededValue
  | some .help, none => do
    let _ ← given.settle options
    .error .help
  | some .version, none => do
    let _ ← given.settle options
    .error .version
  | some (.value option), some value => do (← given.settle options).assign options option value
  | some (.value option), none => do
    return { (← given.settle options) with pending := some (option, none) }

/-- The value behind the letter of a short option. An equals sign before it does not count. -/
def valueAfter : List Char → Option String
  | [] => none
  | '=' :: rest => some (String.ofList rest)
  | rest => some (String.ofList rest)

def readLong (options : OptionSet ω) (given : Given ω) (name : String) (value : Option String) :
    Except UsageError (Given ω) :=
  given.apply options (options.long? name) value

/-- Reads a short option. The letters after one that takes no value are options of their own. -/
def readShort (options : OptionSet ω) (given : Given ω) (letter : Char) (rest : List Char) :
    Except UsageError (Given ω) :=
  match options.short? letter with
  | some (.value option) => given.apply options (some (.value option)) (valueAfter rest)
  | flag => given.apply options flag none

end Given

end EntityModel
