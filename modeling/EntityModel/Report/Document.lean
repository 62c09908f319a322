import EntityModel.Class
import EntityModel.Diagnostic
import EntityModel.Domain
import EntityModel.Json
import EntityModel.Model
import EntityModel.Settings

/-!
# JSON documents of the parts of a model

How identities, settings, domains, classes and diagnostics are written as JSON. The members of each
object have a fixed order.
-/

namespace EntityModel

def FileId.document (id : FileId) : Json :=
  .object [("module", .string id.module), ("kind", .string id.kind), ("name", .string id.name)]

def Location.document (place : Location) : Json :=
  .object [("line", .integer place.line), ("column", .integer place.column)]

def Settings.document (s : Settings) : Json :=
  .object [("app_name", .ofText? s.appName), ("modules", .array (s.modules.map .string)),
    ("identifier_domain", .string s.identifierDomain),
    ("free_alias_domain", .string s.freeAliasDomain),
    ("persisted_target", .string s.persistedTarget), ("client_target", .string s.clientTarget),
    ("identity_column_type", .string s.identityColumnType),
    ("open_object_type", .string s.openObjectType)]

/-- The document of a diagnostic. What it lacks is left out. -/
def Diagnostic.document (d : Diagnostic) : Json :=
  .object <|
    [("severity", .string d.severity.text), ("kind", .string d.kind.text),
      ("message", .string d.message), ("file", d.file.document)]
      ++ (d.klass.map fun name => ("class", Json.string name)).toList
      ++ (d.field.map fun name => ("field", Json.string name)).toList
      ++ (d.location.map fun place => ("location", place.document)).toList

/-- A size, or null. -/
def Json.ofNat? : Option Nat → Json
  | some n => .integer n
  | none => .null

/-- The document of a domain, its mappings by target. -/
def Domain.document (d : Domain) : Json :=
  .object [("name", .string d.name), ("label", .ofText? d.label), ("length", .ofNat? d.length),
    ("scale", .ofNat? d.scale),
    ("mappings", .object (d.mappings.entries.map fun (target, type) => (target, .string type)))]

def Literal.document : Literal → Json
  | null => .null
  | bool value => .bool value
  | integer value => .integer value
  | number value => .number value
  | string value => .string value

def ClientType.document : ClientType → Json
  | code name => .object [("kind", .string "code"), ("name", .string name)]
  | scalar => .object [("kind", .string "scalar")]

def Reference.document (r : Reference) : Json :=
  .object [("class", .string r.klass), ("key", .string r.key),
    ("client_type", r.clientType.document)]

def Reference.document? : Option Reference → Json
  | some r => r.document
  | none => .null

def Multiplicity.text : Multiplicity → String
  | one => "one"
  | many => "many"

namespace Property

def Field.document (p : Field) : Json :=
  .object [("kind", .string "field"), ("name", .string p.name), ("label", .ofText? p.label),
    ("domain", .string p.domain), ("primary_key", .bool p.primaryKey),
    ("required", .bool p.required), ("unique", .bool p.unique), ("many", .bool p.many),
    ("default", (p.default.map Literal.document).getD .null),
    ("persisted_name", .string p.column)]

def Association.document (p : Association) : Json :=
  .object [("kind", .string "association"), ("name", .string p.name), ("label", .ofText? p.label),
    ("target", .string p.target), ("role", .ofText? p.role), ("required", .bool p.required),
    ("many", .bool p.many), ("domain", .ofText? p.domain), ("persisted_name", .ofText? p.column),
    ("reference", Reference.document? p.reference), ("accessor_name", .ofText? p.accessor)]

def Composition.document (p : Composition) : Json :=
  .object [("kind", .string "composition"), ("name", .string p.name), ("label", .ofText? p.label),
    ("target", .string p.target), ("multiplicity", .string p.multiplicity.text)]

def Alias.document (p : Alias) : Json :=
  .object [("kind", .string "alias"), ("name", .string p.name), ("label", .ofText? p.label),
    ("source", .object [("class", .string p.source.klass), ("property", .string p.source.property)]),
    ("prefix", .ofText? p.before), ("suffix", .ofText? p.after), ("domain", .ofText? p.domain),
    ("persisted_name", .ofText? p.column), ("required", .bool p.required), ("many", .bool p.many),
    ("role", .ofText? p.role), ("linked_class", .ofText? p.linkedClass),
    ("reference", Reference.document? p.reference)]

def document : Property → Json
  | field p => p.document
  | association p => p.document
  | composition p => p.document
  | .alias p => p.document

end Property

def Row.document (row : Row) : Json :=
  .object [("name", .string row.name),
    ("values", .array (row.values.map fun (name, value) => .array [.string name, value.document]))]

def Stereotype.documentText : Option Stereotype → String
  | none => "none"
  | some .plain => "plain"
  | some .enumeration => "enumeration"
  | some .reference => "reference"

def Class.document (c : Class) : Json :=
  .object [("name", .string c.name), ("file", c.file.document),
    ("namespace", .object [("module", .string c.file.module), ("kind", .string c.file.kind)]),
    ("parent", .ofText? c.parent), ("stereotype", .string (Stereotype.documentText c.stereotype)),
    ("trigram", .ofText? c.trigram), ("label_property", .ofText? c.labelProperty),
    ("unique_key", .ofText? c.uniqueKey), ("is_abstract", .bool c.isAbstract),
    ("database_only", .bool c.databaseOnly),
    ("properties", .array (c.properties.map Property.document)),
    ("rows", .array (c.rows.map Row.document))]

def Model.document (m : Model) : Json :=
  .object [("version", .integer m.version), ("app_name", .string m.appName),
    ("files", .array (m.files.map FileId.document)),
    ("domains", .array (m.domains.values.map Domain.document)),
    ("classes", .array (m.classes.map Class.document)),
    ("warnings", .array (m.warnings.map Diagnostic.document))]

end EntityModel
