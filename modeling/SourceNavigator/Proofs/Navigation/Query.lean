import SourceNavigator.Navigation.Navigator
import SourceNavigator.Proofs.Calls

set_option autoImplicit false

/-! # Queries

The two questions that run the engine, `Navigator.searchSymbol` and `Navigator.findUsage`, as one
type, with the directories that each of them asks for.
-/

namespace SourceNavigator.Navigation

/-- A question that is answered by the engine. -/
inductive Query where
  | symbol (name : String) (kind directory : Option String)
  | usage (term : String) (directories : List (Option String)) (asked : Option Int)

namespace Query

/-- The answer to a query. -/
def answer (n : Navigator) : Query → Action String
  | .symbol name kind directory => n.searchSymbol name kind directory
  | .usage term directories asked => n.findUsage term directories asked

theorem answer_symbol (n : Navigator) (name : String) (kind directory : Option String) :
    (symbol name kind directory).answer n = n.searchSymbol name kind directory := rfl

/-- The directories that a query asks for; none stands for the root. -/
def requested (n : Navigator) : Query → List (Option String)
  | .symbol _ _ none => []
  | .symbol _ _ (some d) => if d.isEmpty then [] else [some d]
  | .usage _ directories _ =>
    if directories.isEmpty then n.settings.usageDirectories.map some else directories

end Query

end SourceNavigator.Navigation
