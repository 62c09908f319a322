import EntityModel.Text.Blank

/-!
# Alias tokens

An alias names its source by a token `Class_Property`, and may go on with a part to put before the
copied name and a part to put after it.
-/

namespace EntityModel

structure AliasToken where
  klass : String
  property : String
  before : Option String := none
  after : Option String := none
deriving DecidableEq

namespace AliasToken

/-- The key of a property in the index of alias sources. -/
def indexKey (klass property : String) : String := klass ++ "_" ++ property

def key (token : AliasToken) : String := indexKey token.klass token.property

/-- A part that is not empty. -/
def part? (text : List Char) : Option String :=
  if text.isEmpty then none else some (String.ofList text)

/-- Cuts a token at its underscores into two to four parts. The first two may not be empty; of the
others an empty one stands for none. -/
def parse? (token : String) : Option AliasToken :=
  match token.toList.splitOn '_' with
  | klass :: property :: affixes =>
    if klass.isEmpty || property.isEmpty || 2 < affixes.length then none
    else some {
      klass := String.ofList klass
      property := String.ofList property
      before := affixes[0]?.bind part?
      after := affixes[1]?.bind part? }
  | _ => none

end AliasToken

end EntityModel
