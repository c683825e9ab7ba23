import Thoroughfare.Network.Basic

/-!
# Routes

A route can be driven from one link to another when it begins and ends with them, all its links
exist, and each leads to where the next one begins.  The check names a culprit otherwise, and
looks for the culprits in a fixed order.
-/

namespace Thoroughfare
namespace Route

/-- The second link of the first pair of neighbouring links that do not meet. -/
def firstGap? (g : Network) : List LinkId → Option LinkId
  | a :: b :: rest => if g.adjacent a b then firstGap? g (b :: rest) else some b
  | _ => none

/-- The link for which a route cannot be driven, if it cannot: the destination when the route is
empty, else the first link that does not exist, else the origin or destination that is missed,
else the link behind the first gap. -/
def culprit? (g : Network) (origin destination : LinkId) (route : List LinkId) : Option LinkId :=
  match route.head?, route.getLast? with
  | some first, some last =>
      match route.find? fun link => !g.hasLink link with
      | some missing => some missing
      | none =>
          if first ≠ origin then some origin
          else if last ≠ destination then some destination
          else firstGap? g route
  | _, _ => some destination

end Route
end Thoroughfare
