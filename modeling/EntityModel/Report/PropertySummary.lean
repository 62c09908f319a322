import EntityModel.Model

/-!
# Properties described

A property on one line, with its types for the persisted and the client target.
-/

namespace EntityModel

/-- What is shown of a property. It has no persisted type when it has no column. -/
structure PropertySummary where
  name : String
  kind : String
  domain : Option String
  column : Option String
  persistedType : Option String
  clientType : Option String
  target : Option String
  primaryKey : Bool
  required : Bool
deriving DecidableEq

/-- The word for the kind of a property. -/
def Property.kindText : Property → String
  | .field _ => "field"
  | .association _ => "ref"
  | .composition _ => "compose"
  | .alias _ => "alias"

/-- The type of a property as it is shown. An error stands in its place, but there is none for a
property without a column. -/
def Projection.shown : Except ProjectionError String → Option String
  | .ok type => some type
  | .error (.notPersisted _ _) => none
  | .error error => some s!"<{error.message}>"

namespace Model

def summary (m : Model) (c : Class) (property : Property) : PropertySummary where
  name := property.name
  kind := property.kindText
  domain := property.domain
  column := property.column
  persistedType := Projection.shown <|
    m.projectProperty c.name property.name m.settings.persistedTarget
  clientType := Projection.shown <| m.projectProperty c.name property.name m.settings.clientTarget
  target := match property with
    | .composition composition => some composition.target
    | _ => property.linkedClass
  primaryKey := property.isPrimaryKey
  required := property.isRequired

def summaries (m : Model) (c : Class) : List PropertySummary := c.properties.map (m.summary c)

end Model

end EntityModel
