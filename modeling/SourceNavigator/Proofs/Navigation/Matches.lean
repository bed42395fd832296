import SourceNavigator.Navigation.Navigator
import SourceNavigator.Proofs.Calls
import SourceNavigator.Proofs.World.NulNames

set_option autoImplicit false

/-! # Matches inside the root

The engine reports paths of its own. A match counts as inside if the guard finds its path within the
root (`Navigator.isInside`); only then is there a route to its file (`yields_fullRoute`), and the
path of this file holds no NUL character (`hasNul_matchAddress`).
-/

namespace SourceNavigator.Navigation

open SourceNavigator.Path (Route)
open Search (Match)

namespace Navigator

/-- Whether a match lies within the root. -/
def isInside (n : Navigator) (m : Match) : Bool := n.world.isWithin n.root (Route.ofString m.file)

/-- The address of the file of a match. -/
def matchAddress (n : Navigator) (m : Match) : Path.Address :=
  (n.root.append (Route.ofString m.file)).address

variable {n : Navigator} {m : Match}

theorem matchRoute_of_isInside (h : n.isInside m = true) :
    n.matchRoute? m = some (n.root.append (Route.ofString m.file)) :=
  if_pos h

theorem matchRoute_of_not_isInside (h : n.isInside m = false) : n.matchRoute? m = none :=
  if_neg (ne_true_of_eq_false h)

theorem yields_fullRoute (n : Navigator) (m : Match) : (n.fullRoute m).Yields (n.matchRoute? m) := by
  unfold fullRoute
  split
  · rename_i r hr
    rw [hr]
    exact Action.yields_done _
  · rename_i hnone
    rw [hnone]
    exact Action.yields_log_pure warningSeverity logSource _ none

/-- The file of a match inside has no NUL character in its path. -/
theorem hasNul_matchAddress (hroot : World.hasNul n.settings.root = false)
    (hm : Path.IsRelative m.file) (h : n.isInside m = true) :
    World.hasNul (n.matchAddress m).text = false :=
  World.hasNul_text_of_isWithin hroot hm h

end Navigator

/-- A run that reports one match: the first line of a file, with this text. -/
def reportingRun (path text : String) : Run :=
  .ended 0 (Text.Utf8.encode ("\x7b\"type\":\"match\",\"data\":\x7b\"path\":\x7b\"text\":\"" ++ path ++
    "\"\x7d,\"lines\":\x7b\"text\":\"" ++ text ++ "\"\x7d,\"line_number\":1\x7d\x7d\n").toList) []

end SourceNavigator.Navigation
