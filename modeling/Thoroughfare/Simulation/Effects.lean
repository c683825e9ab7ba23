import Thoroughfare.Simulation.District
import Thoroughfare.Simulation.Error

/-!
# Effects

What happens in a district during a step is told to the outside as events, and as transfers of
agents that are on their way into a link, which may belong to another district.
-/

namespace Thoroughfare

/-- An agent on its way into a link. -/
structure Transfer where
  /-- The place in the order of all decisions of the step. -/
  seq : Nat
  /-- The link that is left; none if the agent enters traffic. -/
  source? : Option LinkId
  target : LinkId
  agent : Agent
deriving DecidableEq

/-- What a district tells the outside. -/
structure Effects where
  events : List Event
  transfers : List Transfer

namespace Effects

def none : Effects :=
  ⟨[], []⟩

def ofEvents (events : List Event) : Effects :=
  ⟨events, []⟩

instance : Append Effects :=
  ⟨fun a b => ⟨a.events ++ b.events, a.transfers ++ b.transfers⟩⟩

@[simp] theorem events_append (a b : Effects) : (a ++ b).events = a.events ++ b.events :=
  rfl

@[simp] theorem transfers_append (a b : Effects) :
    (a ++ b).transfers = a.transfers ++ b.transfers :=
  rfl

end Effects

namespace District

variable {α β : Type}

/-- Treat some items one after the other and collect the effects. -/
def treatAll (treat : District α → β → Except StepError (District α × Effects)) :
    District α → List β → Except StepError (District α × Effects)
  | d, [] => .ok (d, .none)
  | d, item :: rest =>
      match treat d item with
      | .error e => .error e
      | .ok (d, effects) =>
          match treatAll treat d rest with
          | .error e => .error e
          | .ok (d, more) => .ok (d, effects ++ more)

end District

end Thoroughfare
