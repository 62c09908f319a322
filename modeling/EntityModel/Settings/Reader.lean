import EntityModel.Json.Reader
import EntityModel.Settings

/-!
# Settings from a document

Settings are read from an object, by name, or from an array, in the order of their declaration. What
is absent keeps its default; a setting given twice is a fault, and members of other names are ignored.
-/

namespace EntityModel.Settings

def asText? : Document → Option String
  | .string body => Document.string? body
  | _ => none

/-- A document that is a string or null. -/
def asOptionalText? : Document → Option (Option String)
  | .null => some none
  | value => (asText? value).map some

def asTexts? : Document → Option (List String)
  | .array items => items.mapM asText?
  | _ => none

/-- The settings by name: each takes a document and sets its value. -/
def setters : List (String × (Settings → Document → Option Settings)) := [
  ("app_name", fun s d => (asOptionalText? d).map fun v => { s with appName := v }),
  ("modules", fun s d => (asTexts? d).map fun v => { s with modules := v }),
  ("identifier_domain", fun s d => (asText? d).map fun v => { s with identifierDomain := v }),
  ("free_alias_domain", fun s d => (asText? d).map fun v => { s with freeAliasDomain := v }),
  ("persisted_target", fun s d => (asText? d).map fun v => { s with persistedTarget := v }),
  ("client_target", fun s d => (asText? d).map fun v => { s with clientTarget := v }),
  ("identity_column_type", fun s d => (asText? d).map fun v => { s with identityColumnType := v }),
  ("open_object_type", fun s d => (asText? d).map fun v => { s with openObjectType := v })]

/-- The settings of the members of an object, given the names seen before. -/
def ofMembers? (seen : List String) (settings : Settings) :
    List (List Char × Document) → Option Settings
  | [] => some settings
  | (body, value) :: rest => do
    let name ← Document.string? body
    match setters.lookup name with
    | none => ofMembers? seen settings rest
    | some set =>
      if seen.contains name then none
      else ofMembers? (name :: seen) (← set settings value) rest

/-- The settings of the items of an array. -/
def ofItems? (settings : Settings) :
    List (String × (Settings → Document → Option Settings)) → List Document → Option Settings
  | _, [] => some settings
  | [], _ :: _ => none
  | (_, set) :: names, value :: rest => do ofItems? (← set settings value) names rest

def ofDocument? : Document → Option Settings
  | .object members => ofMembers? [] {} members
  | .array items => ofItems? {} setters items
  | _ => none

/-- The settings that a text writes. `refusal` is what a reader of documents says of a text that writes none. -/
def read (refusal : String → String) (text : String) : Except Fault Settings :=
  match (Document.read? text).bind ofDocument? with
  | some settings => .ok settings
  | none => .error (.invalidSettings (refusal text))

end EntityModel.Settings
