import EntityModel.Class
import EntityModel.Domain
import EntityModel.Settings

/-!
# Types of domains and properties

The type text of a property for a target. The persisted target shows identity columns and lengths,
the client target shows code types, open objects and collections, and every other target the mapping
of the domain as it is. A missing mapping is an error only when its type is asked for.
-/

namespace EntityModel

/-- Why something has no type for a target. -/
inductive ProjectionError where
  | missingTypeMapping (domain target : String)
  | notPersisted (klass property : String)
  | unknownDomain (domain : String)
  | unknownProperty (klass property : String)
deriving DecidableEq

def ProjectionError.message : ProjectionError → String
  | missingTypeMapping domain target => s!"domain '{domain}' has no mapping for target '{target}'"
  | notPersisted klass property => s!"property '{klass}.{property}' is not persisted"
  | unknownDomain domain => s!"unknown domain '{domain}'"
  | unknownProperty klass property => s!"unknown property '{klass}.{property}'"

namespace Projection

/-- Persisted types of text whose length may vary. -/
def variableTextTypes : List String := ["varchar", "nvarchar", "varchar2", "character varying"]

def structuredTypes : List String := ["json", "jsonb"]

/-- Whether a type, trimmed, is one of a list but for the case of its letters. -/
def isAmong (types : List String) (type : String) : Bool :=
  let letters := (Text.trim type.toList).map Char.toLower
  types.any fun t => t.toList == letters

def isStructured (type : String) : Bool := isAmong structuredTypes type

/-- Whether a persisted type is text of varying length. -/
def isVariableText (type : String) : Bool := isAmong variableTextTypes type

def ofDomain (domain : Domain) (target : String) : Except ProjectionError String :=
  match domain.mapping? target with
  | some type => .ok type
  | none => .error (.missingTypeMapping domain.name target)

/-- A persisted type with the length and scale of its domain. A type that has parentheses already
stays as it is, and varying text without a length is `text`. -/
def sized (domain : Domain) (type : String) : String :=
  if type.toList.contains '(' then type
  else match domain.length, domain.scale with
    | none, _ => if isVariableText type then "text" else type
    | some length, some scale => s!"{type}({length}, {scale})"
    | some length, none => s!"{type}({length})"

/-- The type of a property in the persisted target. A primary key of the identifier domain is an
identity column. -/
def persisted (settings : Settings) (property : Property) (domain : Domain) :
    Except ProjectionError String :=
  if property.isPrimaryKey && domain.name == settings.identifierDomain then
    .ok settings.identityColumnType
  else
    (ofDomain domain settings.persistedTarget).map (sized domain)

/-- A client type, as a collection when the property holds one. -/
def collection (property : Property) (type : String) : String :=
  if property.isMany then type ++ "[]" else type

/-- The type of a property's value in the client target: the code type of its reference, the open
object type for structured data, or else the mapping of its domain. -/
def clientValue (settings : Settings) (property : Property) (domain : Domain) :
    Except ProjectionError String :=
  match property.reference.map Reference.clientType with
  | some (.code name) => .ok name
  | _ =>
    if (domain.mapping? settings.persistedTarget).any isStructured then .ok settings.openObjectType
    else ofDomain domain settings.clientTarget

/-- The type of a property without a domain: a composition has its class for every target but the
persisted one. -/
def withoutDomain (settings : Settings) (klass : String) (property : Property) (target : String) :
    Except ProjectionError String :=
  match property with
  | .composition composition =>
    if target = settings.persistedTarget then .error (.notPersisted klass property.name)
    else if target = settings.clientTarget then .ok (collection property composition.target)
    else .ok composition.target
  | _ => .error (.notPersisted klass property.name)

/-- The type of a property of the class named `klass` for a target. -/
def ofProperty (domains : SortedMap String Domain) (settings : Settings) (klass : String)
    (property : Property) (target : String) : Except ProjectionError String :=
  match property.domain with
  | none => withoutDomain settings klass property target
  | some name => match domains.get? name with
    | none => .error (.unknownDomain name)
    | some domain =>
      if target = settings.persistedTarget then persisted settings property domain
      else if target = settings.clientTarget then
        (clientValue settings property domain).map (collection property)
      else ofDomain domain target

end Projection

end EntityModel
