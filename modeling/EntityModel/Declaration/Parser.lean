import EntityModel.Declaration
import EntityModel.Declaration.ParseError
import EntityModel.Token.Scanner

/-!
# Parsing model files

A parser takes lexemes from the front of its input and never adds any, which its result carries as a
proof; loops take one token per turn and so end without a bound. An unreadable piece is an error as
soon as the next token is asked for. Main definition: `Declaration.File.parse`.
-/

namespace EntityModel

/-- What a parser yields: a value, and the lexemes it has left. -/
structure Parsed (α : Type) (input : List Lexeme) where
  value : α
  rest : List Lexeme
  rest_le : rest.length ≤ input.length

/-- A parser. It is told the byte at which the text stops, for errors found there. -/
def Parser (α : Type) : Type :=
  (stop : Nat) → (input : List Lexeme) → Except ParseError (Parsed α input)

namespace Parser

def done {α : Type} (value : α) : Parser α := fun _ input => .ok ⟨value, input, Nat.le_refl _⟩

def andThen {α β : Type} (p : Parser α) (f : α → Parser β) : Parser β := fun stop input =>
  match p stop input with
  | .error e => .error e
  | .ok ⟨a, rest, h⟩ => match f a stop rest with
    | .error e => .error e
    | .ok ⟨b, rest', h'⟩ => .ok ⟨b, rest', Nat.le_trans h' h⟩

instance : Monad Parser where
  pure := done
  bind := andThen

def fail {α : Type} (cause : ParseError.Cause) (span : Span) (hint : Option String) : Parser α :=
  fun _ _ => .error ⟨cause, span, hint⟩

/-- Puts a hint on the errors of a parser. -/
def hinting {α : Type} (hint : String) (p : Parser α) : Parser α := fun stop input =>
  match p stop input with
  | .error e => .error { e with hint := some hint }
  | .ok result => .ok result

def next : Parser (Spanned Token) := fun stop input =>
  match input with
  | [] => .error ⟨.endOfInput, ⟨stop, stop⟩, none⟩
  | .unreadable piece :: _ => .error ⟨.unreadable piece.value, piece.span, none⟩
  | .token t :: rest => .ok ⟨t, rest, Nat.le_succ _⟩

/-- The next token if `accept` takes it; otherwise the input stays as it is. -/
def optional {α : Type} (accept : Token → Option α) : Parser (Option (Spanned α)) :=
  fun _ input =>
    match input with
    | .token t :: rest => match accept t.value with
      | some a => .ok ⟨some ⟨a, t.span⟩, rest, Nat.le_succ _⟩
      | none => .ok ⟨none, .token t :: rest, Nat.le_refl _⟩
    | rest => .ok ⟨none, rest, Nat.le_refl _⟩

/-- What a turn of a loop comes to. -/
inductive Turn (σ β : Type) where
  | more (state : σ)
  | done (result : β)

/-- Takes one token per turn, and what `turn` takes with it, until `turn` is done. -/
def loop {σ β : Type} (turn : σ → Spanned Token → Parser (Turn σ β)) (state : σ) : Parser β :=
  fun stop input =>
    match input with
    | [] => .error ⟨.endOfInput, ⟨stop, stop⟩, none⟩
    | .unreadable piece :: _ => .error ⟨.unreadable piece.value, piece.span, none⟩
    | .token t :: rest =>
      match turn state t stop rest with
      | .error e => .error e
      | .ok ⟨.done b, rest', h⟩ => .ok ⟨b, rest', Nat.le_succ_of_le h⟩
      | .ok ⟨.more state', rest', h⟩ =>
        match loop turn state' stop rest' with
        | .error e => .error e
        | .ok ⟨b, rest'', h'⟩ => .ok ⟨b, rest'', Nat.le_succ_of_le (Nat.le_trans h' h)⟩
termination_by _ input => input.length
decreasing_by exact Nat.lt_succ_of_le h

/-! ## Single tokens -/

/-- The next token is `expected`; yields its span. -/
def token (expected : Token) : Parser Span := do
  let t ← next
  if t.value = expected then return t.span
  else fail (.expected (.token expected) t.value) t.span none

def mark (p : Punctuation) : Parser Span := token (.punctuation p)

/-- The next token is the `;` that ends an item; `hint` says how to write the item. -/
def semi (hint : String) : Parser Unit := do
  let _ ← hinting hint (mark .semi)

def ident : Parser (Spanned String) := do
  let t ← next
  match t.value with
  | .ident name => return ⟨name, t.span⟩
  | found => fail (.expected .identifier found) t.span none

def string : Parser String := do
  let t ← next
  match t.value with
  | .string value => return value
  | found => fail (.expected .string found) t.span none

def literal? : Token → Option Literal
  | .keyword .null => some .null
  | .keyword .true => some (.bool true)
  | .keyword .false => some (.bool false)
  | .integer value => some (.integer value)
  | .number value => some (.number value)
  | .string value => some (.string value)
  | _ => none

def literal : Parser (Spanned Literal) := do
  let t ← next
  match literal? t.value with
  | some value => return ⟨value, t.span⟩
  | none => fail (.expected .literal t.value) t.span none

/-- The next token is a length or scale, an integer of 32 bits without sign. -/
def size : Parser Nat := do
  let t ← next
  match t.value with
  | .integer value =>
    if 0 ≤ value ∧ value < 0x100000000 then return value.toNat
    else fail (.sizeOutOfRange value) t.span none
  | found => fail (.expected .integer found) t.span none

end Parser

namespace Declaration

/-! ## Files and domains -/

/-- `module::kind::name;`, after the keyword `uses`. -/
def parseUses (start : Span) : Parser (Spanned FileId) := do
  let module ← Parser.ident
  let _ ← Parser.mark .pathSep
  let kind ← Parser.ident
  let _ ← Parser.mark .pathSep
  let name ← Parser.ident
  Parser.semi "write 'uses module::kind::name;'"
  return ⟨⟨module.value, kind.value, name.value⟩, start.merge name.span⟩

/-- One item of a domain, or its end. -/
def domainTurn (start : Span) (domain : Domain) (t : Spanned Token) :
    Parser (Parser.Turn Domain Domain) := do
  let itemHint := "domain items end with ';'"
  match t.value with
  | .punctuation .rbrace => return .done { domain with span := start.merge t.span }
  | .keyword .label =>
    let label ← Parser.string
    Parser.semi itemHint
    return .more { domain with label := some label }
  | .keyword .length =>
    let length ← Parser.size
    Parser.semi itemHint
    return .more { domain with length := some length }
  | .keyword .scale =>
    let scale ← Parser.size
    Parser.semi itemHint
    return .more { domain with scale := some scale }
  | .keyword .map =>
    let target ← Parser.ident
    let _ ← Parser.mark .assign
    let type ← Parser.string
    if domain.mappings.any (·.1.value == target.value) then
      Parser.fail (.duplicateMapping target.value) target.span none
    else
      Parser.semi "write 'map target = \"type\";'"
      return .more { domain with mappings := domain.mappings ++ [(target, type)] }
  | found =>
    Parser.fail (.notInDomain found) t.span
      (some "domains accept label, length, scale and map items")

/-- `Name { ... }`, after the keyword `domain`. -/
def parseDomain (start : Span) : Parser Domain := do
  let name ← Parser.ident
  let _ ← Parser.mark .lbrace
  Parser.loop (domainTurn start) { name, span := start }

/-! ## Properties -/

inductive Modifier where
  | primary
  | required
  | unique
  | many
  | default (value : Spanned Literal)
  | label (text : String)
  | column (name : String)
  | role (name : String)
deriving DecidableEq

/-- The word that a modifier starts with. -/
def Modifier.keyword : Modifier → Keyword
  | primary => .primary
  | required => .required
  | unique => .unique
  | many => .many
  | default _ => .default
  | label _ => .label
  | column _ => .column
  | role _ => .role

/-- One modifier, or the `;` that ends the list. Yields the list and the span of the `;`. -/
def modifierTurn (written : List (Spanned Modifier)) (t : Spanned Token) :
    Parser (Parser.Turn (List (Spanned Modifier)) (List (Spanned Modifier) × Span)) := do
  let more (modifier : Modifier) : Parser.Turn (List (Spanned Modifier)) (List (Spanned Modifier) × Span) :=
    .more (written ++ [⟨modifier, t.span⟩])
  match t.value with
  | .punctuation .semi => return .done (written, t.span)
  | .keyword .primary => return more .primary
  | .keyword .required => return more .required
  | .keyword .unique => return more .unique
  | .keyword .many => return more .many
  | .keyword .default => let value ← Parser.literal; return more (.default value)
  | .keyword .label => let text ← Parser.string; return more (.label text)
  | .keyword .column => let name ← Parser.string; return more (.column name)
  | .keyword .role => let name ← Parser.string; return more (.role name)
  | found =>
    Parser.fail (.expected .modifier found) t.span (some "property declarations end with ';'")

/-- The modifiers of a property up to its `;`. -/
def parseModifiers : Parser (List (Spanned Modifier) × Span) := Parser.loop modifierTurn []

/-- The hint on a modifier that a kind of property does not accept. -/
def modifierHint : PropertyKind → String
  | .alias => "aliases copy everything but the label from their source; "
      ++ "use label \"[Override] ...\" to replace it"
  | kind => "allowed modifiers: " ++ String.intercalate ", " (kind.modifiers.map Keyword.text)

/-- Applies modifiers in order; the first that the kind does not accept is an error. -/
def applyModifiers {α : Type} (kind : PropertyKind) (apply : α → Modifier → α) :
    List (Spanned Modifier) → α → Parser α
  | [], property => Parser.done property
  | modifier :: rest, property =>
    if modifier.value.keyword ∈ kind.modifiers then
      applyModifiers kind apply rest (apply property modifier.value)
    else
      Parser.fail (.modifierNotAllowed modifier.value.keyword kind) modifier.span
        (some (modifierHint kind))

def Field.modify (field : Field) : Modifier → Field
  | .primary => { field with primaryKey := true }
  | .required => { field with required := true }
  | .unique => { field with unique := true }
  | .many => { field with many := true }
  | .default value => { field with default := some value }
  | .label text => { field with label := some text }
  | .column name => { field with column := some name }
  | .role _ => field

def Association.modify (association : Association) : Modifier → Association
  | .required => { association with required := true }
  | .many => { association with many := true }
  | .role name => { association with role := some name }
  | .label text => { association with label := some text }
  | _ => association

def Composition.modify (composition : Composition) : Modifier → Composition
  | .label text => { composition with label := some text }
  | _ => composition

def Alias.modify (renamed : Alias) : Modifier → Alias
  | .label text => { renamed with label := some text }
  | _ => renamed

/-- `Name: DOMAIN modifiers;`, after the keyword `field`. -/
def parseField (start : Span) : Parser Field := do
  let name ← Parser.ident
  let _ ← Parser.hinting "write 'field Name: DOMAIN;'" (Parser.mark .colon)
  let domain ← Parser.ident
  let (modifiers, stop) ← parseModifiers
  applyModifiers .field Field.modify modifiers { name, domain, span := start.merge stop }

/-- `Name -> Target modifiers;`, after the keyword `ref`. -/
def parseAssociation (start : Span) : Parser Association := do
  let name ← Parser.ident
  let _ ← Parser.hinting "write 'ref Name -> Target;'" (Parser.mark .arrow)
  let target ← Parser.ident
  let (modifiers, stop) ← parseModifiers
  applyModifiers .association Association.modify modifiers
    { name, target, span := start.merge stop }

def multiplicity? : Token → Option Multiplicity
  | .keyword .one => some .one
  | .keyword .many => some .many
  | _ => none

/-- `Name -> Target one|many modifiers;`, after the keyword `compose`. One is meant when neither is
written. -/
def parseComposition (start : Span) : Parser Composition := do
  let name ← Parser.ident
  let _ ← Parser.hinting "write 'compose Name -> Target many;'" (Parser.mark .arrow)
  let target ← Parser.ident
  let written ← Parser.optional multiplicity?
  let multiplicity := (written.map Spanned.value).getD .one
  let (modifiers, stop) ← parseModifiers
  applyModifiers .composition Composition.modify modifiers
    { name, target, multiplicity, span := start.merge stop }

/-- `Class_Property modifiers;`, after the keyword `alias`. -/
def parseAlias (start : Span) : Parser Alias := do
  let token ← Parser.ident
  let (modifiers, stop) ← parseModifiers
  applyModifiers .alias Alias.modify modifiers { token, span := start.merge stop }

/-! ## Rows -/

/-- One value of a row, or the row's end. Yields the values and the span of the closing brace. -/
def rowValueTurn (values : List (Spanned String × Spanned Literal)) (t : Spanned Token) :
    Parser (Parser.Turn (List (Spanned String × Spanned Literal))
      (List (Spanned String × Spanned Literal) × Span)) := do
  match t.value with
  | .punctuation .rbrace => return .done (values, t.span)
  | .ident field =>
    let _ ← Parser.hinting "write 'Field = value'" (Parser.mark .assign)
    let value ← Parser.literal
    let values := values ++ [(⟨field, t.span⟩, value)]
    let after ← Parser.next
    match after.value with
    | .punctuation .comma => return .more values
    | .punctuation .rbrace => return .done (values, after.span)
    | found => Parser.fail (.expected .rowEnd found) after.span none
  | found => Parser.fail (.expected .identifier found) t.span none

/-- One row of a `values` block, or the block's end. -/
def rowTurn (rows : List Row) (t : Spanned Token) : Parser (Parser.Turn (List Row) (List Row)) := do
  match t.value with
  | .punctuation .rbrace => return .done rows
  | .ident name =>
    let _ ← Parser.mark .lbrace
    let (values, stop) ← Parser.loop rowValueTurn []
    return .more (rows ++ [{ name := ⟨name, t.span⟩, values, span := t.span.merge stop }])
  | found => Parser.fail (.expected .identifier found) t.span none

/-- `{ Row { ... } ... }`, after the keyword `values`; the rows follow those before. -/
def parseRows (rows : List Row) : Parser (List Row) := do
  let _ ← Parser.mark .lbrace
  Parser.loop rowTurn rows

/-! ## Classes -/

/-- A class setting that may be written once: its name, after its keyword. -/
def parseOnce (setting : Keyword) (written : Option (Spanned String)) (hint : String) :
    Parser (Spanned String) := do
  let name ← Parser.ident
  if written.isSome then Parser.fail (.duplicateSetting setting) name.span none
  else
    Parser.semi hint
    return name

/-- One item of a class, or its end. -/
def classTurn (start : Span) (klass : Class) (t : Spanned Token) : Parser (Parser.Turn Class Class) := do
  let withProperty (property : Property) : Parser.Turn Class Class :=
    .more { klass with properties := klass.properties ++ [property] }
  match t.value with
  | .punctuation .rbrace => return .done { klass with span := start.merge t.span }
  | .keyword .trigram =>
    let name ← parseOnce .trigram klass.trigram "write 'trigram ABC;'"
    return .more { klass with trigram := some name }
  | .keyword .label =>
    let name ← parseOnce .label klass.label "write 'label Property;'"
    return .more { klass with label := some name }
  | .keyword .key =>
    let name ← parseOnce .key klass.key "write 'key Property;'"
    return .more { klass with key := some name }
  | .keyword .abstract =>
    Parser.semi "write 'abstract;'"
    return .more { klass with isAbstract := true }
  | .keyword .dbonly =>
    Parser.semi "write 'dbonly;'"
    return .more { klass with databaseOnly := true }
  | .keyword .field => let p ← parseField t.span; return withProperty (.field p)
  | .keyword .ref => let p ← parseAssociation t.span; return withProperty (.association p)
  | .keyword .compose => let p ← parseComposition t.span; return withProperty (.composition p)
  | .keyword .alias => let p ← parseAlias t.span; return withProperty (.alias p)
  | .keyword .values =>
    let rows ← parseRows klass.rows
    return .more { klass with rows }
  | found =>
    Parser.fail (.notInClass klass.name.value found) t.span
      (some "expected field, ref, compose, alias, values or a class setting")

def stereotype? : Token → Option Stereotype
  | .keyword .plain => some .plain
  | .keyword .enum => some .enumeration
  | .keyword .reference => some .reference
  | _ => none

/-- The colon before a parent's name. -/
def colon? : Token → Option Unit
  | .punctuation .colon => some ()
  | _ => none

/-- `: Parent`, if it is written. -/
def parseParent : Parser (Option (Spanned String)) := do
  match ← Parser.optional colon? with
  | some _ => let parent ← Parser.ident; return some parent
  | none => return none

/-- `Name : Parent stereotype { ... }`, after the keyword `class`. -/
def parseClass (start : Span) : Parser Class := do
  let name ← Parser.ident
  let parent ← parseParent
  let stereotype ← Parser.optional stereotype?
  let _ ← Parser.mark .lbrace
  Parser.loop (classTurn start) { name, parent, stereotype, span := name.span }

/-- The file with one more declaration, which starts with the token. -/
def parseItem (file : File) (t : Spanned Token) : Parser File := do
  match t.value with
  | .keyword .uses => let uses ← parseUses t.span; return { file with uses := file.uses ++ [uses] }
  | .keyword .domain =>
    let domain ← parseDomain t.span
    return { file with domains := file.domains ++ [domain] }
  | .keyword .klass =>
    let klass ← parseClass t.span
    return { file with classes := file.classes ++ [klass] }
  | found => Parser.fail (.expected .declaration found) t.span none

/-- Declarations up to the end of the input. -/
def parseItems (stop : Nat) (file : File) : List Lexeme → Except ParseError File
  | [] => .ok file
  | .unreadable piece :: _ => .error ⟨.unreadable piece.value, piece.span, none⟩
  | .token t :: rest =>
    match parseItem file t stop rest with
    | .error e => .error e
    | .ok ⟨file', rest', rest_le⟩ =>
      have : rest'.length < rest.length + 1 := Nat.lt_succ_of_le rest_le
      parseItems stop file' rest'
termination_by input => input.length
decreasing_by exact this

def File.parse (text : String) : Except ParseError File :=
  parseItems text.utf8ByteSize {} (Lexeme.scan text)

end Declaration

end EntityModel
