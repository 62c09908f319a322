/-!
# Reading JSON documents

The strict grammar: no comments, no trailing commas, nothing after the value. Strings and numbers
are kept as written; the value of a string is worked out where it is asked for, so a value that nobody
asks for needs only to be well formed. Main definition: `Document.read?`.
-/

namespace EntityModel

/-- A JSON document as written. Strings hold what stands between their quotes. -/
inductive Document where
  | null
  | bool (value : Bool)
  | number (text : List Char)
  | string (body : List Char)
  | array (items : List Document)
  | object (members : List (List Char × Document))

namespace Document

/-! ## Tokens -/

inductive Token where
  | lbrace
  | rbrace
  | lbracket
  | rbracket
  | comma
  | colon
  | null
  | bool (value : Bool)
  | number (text : List Char)
  | string (body : List Char)
deriving DecidableEq

/-- The blanks between tokens. -/
def isSpace (c : Char) : Bool := c == ' ' || c == '\n' || c == '\t' || c == '\r'

def isHex (c : Char) : Bool :=
  c.isDigit || ('a' ≤ c && c ≤ 'f') || ('A' ≤ c && c ≤ 'F')

/-- The body of a string after its opening quote, when it is well formed and a closing quote follows.
Control characters and unknown escapes are not allowed. -/
def stringBody? : List Char → Option (List Char)
  | '"' :: _ => some []
  | '\\' :: 'u' :: a :: b :: c :: d :: rest =>
    if isHex a && isHex b && isHex c && isHex d then
      (stringBody? rest).map fun body => '\\' :: 'u' :: a :: b :: c :: d :: body
    else none
  | '\\' :: c :: rest =>
    if c ∈ ['"', '\\', '/', 'b', 'f', 'n', 'r', 't'] then
      (stringBody? rest).map fun body => '\\' :: c :: body
    else none
  | c :: rest =>
    if c.toNat < 32 || c == '\\' then none else (stringBody? rest).map fun body => c :: body
  | [] => none

/-- The integer part of a number, without needless zeros in front. -/
def integerPart? (text : List Char) : Option (List Char) :=
  match text.takeWhile Char.isDigit with
  | [] => none
  | '0' :: _ => some ['0']
  | digits => some digits

/-- The fraction of a number, empty when there is no point. -/
def fraction? : List Char → Option (List Char)
  | '.' :: rest => match rest.takeWhile Char.isDigit with
    | [] => none
    | digits => some ('.' :: digits)
  | _ => some []

/-- The sign that an exponent may have. -/
def exponentSign : List Char → List Char
  | '+' :: _ => ['+']
  | '-' :: _ => ['-']
  | _ => []

/-- The exponent of a number, empty when there is none. -/
def exponent? : List Char → Option (List Char)
  | [] => some []
  | c :: rest =>
    if c = 'e' ∨ c = 'E' then
      let sign := exponentSign rest
      match (rest.drop sign.length).takeWhile Char.isDigit with
      | [] => none
      | digits => some (c :: sign ++ digits)
    else some []

/-- The number that a text starts with. -/
def number? (text : List Char) : Option (List Char) :=
  let sign := if text.head? = some '-' then ['-'] else []
  let text := text.drop sign.length
  (integerPart? text).bind fun whole =>
    let text := text.drop whole.length
    (fraction? text).bind fun part =>
      (exponent? (text.drop part.length)).map fun exponent => sign ++ whole ++ part ++ exponent

/-- The token that starts with `c`, and how many of the characters after `c` belong to it. -/
def token? (c : Char) (rest : List Char) : Option (Token × Nat) :=
  match c with
  | '{' => some (.lbrace, 0)
  | '}' => some (.rbrace, 0)
  | '[' => some (.lbracket, 0)
  | ']' => some (.rbracket, 0)
  | ',' => some (.comma, 0)
  | ':' => some (.colon, 0)
  | '"' => (stringBody? rest).map fun body => (.string body, body.length + 1)
  | 't' => if rest.take 3 = ['r', 'u', 'e'] then some (.bool true, 3) else none
  | 'f' => if rest.take 4 = ['a', 'l', 's', 'e'] then some (.bool false, 4) else none
  | 'n' => if rest.take 3 = ['u', 'l', 'l'] then some (.null, 3) else none
  | c => (number? (c :: rest)).map fun text => (.number text, text.length - 1)

/-- The tokens of a text, if it consists of tokens and blanks. -/
def tokens? : List Char → Option (List Token)
  | [] => some []
  | c :: rest =>
    if isSpace c then tokens? rest
    else match token? c rest with
      | none => none
      | some (t, n) =>
        have : (rest.drop n).length < rest.length + 1 :=
          Nat.lt_succ_of_le (List.drop_sublist n rest).length_le
        (tokens? (rest.drop n)).map (t :: ·)
termination_by text => text.length
decreasing_by
  · exact Nat.lt_succ_self _
  · exact this

/-! ## Values -/

/-- What is read from the front of a row of tokens, and the fewer tokens after it. -/
structure Taken (α : Type) (input : List Token) where
  value : α
  rest : List Token
  shorter : rest.length < input.length

/-- The value read, as the first of the values after it. -/
def Taken.cons {α : Type} {input after : List Token} (first : α) (rest : Taken (List α) after)
    (h : after.length ≤ input.length) : Taken (List α) input :=
  ⟨first :: rest.value, rest.rest, Nat.lt_of_lt_of_le rest.shorter h⟩

mutual

def value? : (input : List Token) → Option (Taken Document input)
  | .null :: rest => some ⟨.null, rest, Nat.lt_succ_self _⟩
  | .bool b :: rest => some ⟨.bool b, rest, Nat.lt_succ_self _⟩
  | .number text :: rest => some ⟨.number text, rest, Nat.lt_succ_self _⟩
  | .string body :: rest => some ⟨.string body, rest, Nat.lt_succ_self _⟩
  | .lbracket :: .rbracket :: rest => some ⟨.array [], rest, Nat.lt_add_of_pos_right Nat.two_pos⟩
  | .lbrace :: .rbrace :: rest => some ⟨.object [], rest, Nat.lt_add_of_pos_right Nat.two_pos⟩
  | .lbracket :: rest =>
    (items? rest).map fun items => ⟨.array items.value, items.rest, Nat.lt_succ_of_lt items.shorter⟩
  | .lbrace :: rest =>
    (members? rest).map fun members =>
      ⟨.object members.value, members.rest, Nat.lt_succ_of_lt members.shorter⟩
  | _ => none
termination_by input => 2 * input.length

/-- Reads the items of an array up to its closing bracket. -/
def items? (input : List Token) : Option (Taken (List Document) input) :=
  match value? input with
  | none => none
  | some ⟨item, rest, h⟩ => match rest, h with
    | .rbracket :: rest, h => some ⟨[item], rest, Nat.lt_of_succ_lt h⟩
    | .comma :: rest, h =>
      have shorter : rest.length < input.length := Nat.lt_of_succ_lt h
      (items? rest).map fun items => items.cons item (Nat.le_of_lt shorter)
    | _, _ => none
termination_by 2 * input.length + 1

/-- Reads the members of an object up to its closing brace. -/
def members? : (input : List Token) → Option (Taken (List (List Char × Document)) input)
  | .string name :: .colon :: input =>
    match value? input with
    | none => none
    | some ⟨value, rest, h⟩ => match rest, h with
      | .rbrace :: rest, h => some ⟨[(name, value)], rest, by simp only [List.length_cons] at h ⊢; omega⟩
      | .comma :: rest, h =>
        have shorter : rest.length < input.length := Nat.lt_of_succ_lt h
        (members? rest).map fun members =>
          members.cons (name, value) (by simp only [List.length_cons]; omega)
      | _, _ => none
  | _ => none
termination_by input => 2 * input.length + 1

end

/-- The document that a text is. -/
def read? (text : String) : Option Document :=
  match tokens? text.toList with
  | none => none
  | some tokens => match value? tokens with
    | some ⟨value, [], _⟩ => some value
    | _ => none

/-! ## Strings -/

def hexValue (c : Char) : Nat :=
  if c.isDigit then c.toNat - 48
  else if 'a' ≤ c && c ≤ 'f' then c.toNat - 87
  else c.toNat - 55

/-- The number that four hexadecimal digits write. -/
def hexCode (a b c d : Char) : Nat :=
  ((hexValue a * 16 + hexValue b) * 16 + hexValue c) * 16 + hexValue d

/-- The character that an escape of one letter stands for. -/
def unescapeLetter (c : Char) : Char :=
  match c with
  | 'b' => Char.ofNat 8
  | 'f' => Char.ofNat 12
  | 'n' => '\n'
  | 'r' => '\r'
  | 't' => '\t'
  | c => c

/-- The text that a string body stands for. Codes from `d800` to `dfff` come in pairs, a high one and
a low one; one that stands alone is no text. -/
def text? : List Char → Option (List Char)
  | [] => some []
  | '\\' :: 'u' :: a :: b :: c :: d :: '\\' :: 'u' :: e :: f :: g :: h :: rest =>
    let high := hexCode a b c d
    let low := hexCode e f g h
    if 0xD800 ≤ high ∧ high < 0xDC00 then
      if 0xDC00 ≤ low ∧ low < 0xE000 then
        (text? rest).map (Char.ofNat (0x10000 + (high - 0xD800) * 0x400 + (low - 0xDC00)) :: ·)
      else none
    else if 0xDC00 ≤ high ∧ high < 0xE000 then none
    else (text? ('\\' :: 'u' :: e :: f :: g :: h :: rest)).map (Char.ofNat high :: ·)
  | '\\' :: 'u' :: a :: b :: c :: d :: rest =>
    let code := hexCode a b c d
    if 0xD800 ≤ code ∧ code < 0xE000 then none else (text? rest).map (Char.ofNat code :: ·)
  | '\\' :: c :: rest => (text? rest).map (unescapeLetter c :: ·)
  | c :: rest => (text? rest).map (c :: ·)

def string? (body : List Char) : Option String := (text? body).map String.ofList

end Document

end EntityModel
