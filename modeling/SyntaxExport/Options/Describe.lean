import SyntaxExport.Options
import SyntaxExport.Text.Inspect

/-!
# Options in messages
-/

namespace SyntaxExport

def IdentityMode.describe : IdentityMode → String
  | .raw => "Raw"
  | .anonymized => "Anonymized"

def Dialect.describe : Dialect → String
  | .json => "Json"
  | .yojson => "Yojson"

def PathRule.describe : PathRule → String
  | .unchanged => "Identity"
  | .stripPrefix dir => "StripPrefix(" ++ Inspect.quoted dir ++ ")"
  | .custom _ => "Custom(..)"

/-- The options as messages show them. -/
def Options.describe (o : Options) : String :=
  "ExportOptions \x7b identity_mode: " ++ o.identityMode.describe
    ++ ", pretty_print: " ++ toString o.pretty
    ++ ", dialect: " ++ o.dialect.describe
    ++ ", path_normalizer: " ++ o.paths.describe
    ++ ", decl_filter: " ++ toString o.filter.isSome ++ " \x7d"

end SyntaxExport
