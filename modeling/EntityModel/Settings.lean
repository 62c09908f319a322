import EntityModel.Fault
import EntityModel.Text.Blank

/-!
# Settings of a run

The application name, the modules files may belong to, and the names of the domains and targets that
have a special part.
-/

namespace EntityModel

structure Settings where
  appName : Option String := none
  modules : List String := []
  identifierDomain : String := "DO_ID"
  freeAliasDomain : String := "DO_ALIAS"
  persistedTarget : String := "sql"
  clientTarget : String := "ts"
  identityColumnType : String := "serial"
  openObjectType : String := "Record<string, unknown>"
deriving DecidableEq

namespace Settings

/-- The settings that may not be blank, by name. -/
def required (s : Settings) : List (String × String) :=
  [("app_name", s.appName.getD ""), ("identifier_domain", s.identifierDomain),
    ("persisted_target", s.persistedTarget), ("client_target", s.clientTarget)]

/-- The first required setting that is blank is a fault. -/
def validate (s : Settings) : Except Fault Unit :=
  match s.required.find? fun (_, value) => Text.blank value with
  | some (name, _) => .error (.missingSetting name)
  | none => .ok ()

/-- Whether files of a module may be loaded: all may when no module is declared. -/
def declares (s : Settings) (module : String) : Bool :=
  s.modules.isEmpty || s.modules.contains module

end Settings

end EntityModel
