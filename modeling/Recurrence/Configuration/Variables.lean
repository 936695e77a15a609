import Recurrence.Configuration.Layer

/-!
# Variables of the environment

The variables whose names begin with the name of an application form a layer of its configuration.
The case of letters does not matter in them, and two underscores lead from a table to what it
holds. A variable without content says nothing.
-/

namespace Recurrence.Configuration

/-- Variables with their contents, in the order in which they were defined. -/
abbrev Variables := List (String × String)

namespace Variables

/-- The content of a variable. It is empty if there is no such variable. -/
def content (environment : Variables) (name : String) : String :=
  (environment.lookup name).getD ""

/-- Adds a variable to an environment. A variable that the environment has, be it empty, stays as
    it is. -/
def define (environment : Variables) (name content : String) : Variables :=
  if (environment.lookup name).isSome then environment else environment ++ [(name, content)]

end Variables

/-- A text in which a dot replaces every two underscores, from the front on. -/
def dotted : List Char → List Char
  | '_' :: '_' :: rest => '.' :: dotted rest
  | c :: rest => c :: dotted rest
  | [] => []

/-- The place that a variable is meant for, if its name begins with that of the application. -/
def pathOfVariable? (application name : String) : Option Path :=
  ((lowerCase application ++ "_").toList.isPrefixOf? (lowerCase name).toList).map fun rest =>
    Path.ofName (dotted rest)

/-- The layer that an environment gives to an application. -/
def Variables.layer (environment : Variables) (application : String) : Layer :=
  environment.filterMap fun (name, content) =>
    if content = "" then none
    else (pathOfVariable? application name).map fun path => ⟨path, .value (.ofVariable content)⟩

end Recurrence.Configuration
