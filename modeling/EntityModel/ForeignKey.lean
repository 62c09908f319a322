import EntityModel.Class
import EntityModel.Naming
import EntityModel.Settings

/-!
# What a foreign key takes from its target's key

A property that leads to another class has the domain and column of that class's key. For lists and
enumerations keyed by anything but the generic identifier it also has a code type of its own, so that
codes of different lists are not mixed up.
-/

namespace EntityModel.ForeignKey

/-- The client type of a foreign key to `target` keyed by `key`. -/
def clientType (target : Class) (key : Property) (settings : Settings) : ClientType :=
  if target.hasRows && key.domain != some settings.identifierDomain then
    .code (target.name ++ key.name)
  else .scalar

/-- The accessor of a foreign key: abbreviation of the target, name of the key, and role. -/
def accessor (target : Class) (key : Property) (role : Option String) : String :=
  Naming.pascalCase target.abbreviation ++ key.name ++ (role.map Naming.pascalCase).getD ""

/-- The column of a foreign key, given the column of the key. -/
def column (keyColumn : String) (role : Option String) : String :=
  match role with
  | some role => keyColumn ++ "_" ++ Naming.roleSuffix role
  | none => keyColumn

end EntityModel.ForeignKey
