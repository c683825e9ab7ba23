import Thoroughfare.Config.File
import Thoroughfare.Delay.File
import Thoroughfare.Event.File
import Thoroughfare.Grid.Commuters
import Thoroughfare.Simulation.File
import Thoroughfare.Simulation.Run
import Thoroughfare.Text.Split

/-!
# The commuter program

The program runs all commuters through the street grid, as a configuration says.  It leaves a
table of events, a table of steps, a table of delays and a summary, and it shows how the run went
and which links had the greatest mean delay.
-/

namespace Thoroughfare
namespace Grid

/-- The seconds of a bin of the table of delays. -/
def binSecs : Nat :=
  900

/-- How many links with great delay are shown. -/
def shownLinks : Nat :=
  10

/-- Why the program gives up. -/
inductive Failure where
  | config (error : ConfigFile.Error)
  | network (error : NetworkError)
  | build (error : BuildError)
  | step (error : StepError)
  | output (fault : Csv.WriteFault)

def Failure.message : Failure → String
  | config .unreadable => "the configuration cannot be read"
  | config .malformed => "the configuration is malformed"
  | config (.invalid fault) => "configuration error: " ++ fault.message
  | network error => error.message
  | build error => error.message
  | step error => error.message
  | output _ => "a table cannot be written"

/-- The number that a failed program ends with. -/
def Failure.code (_ : Failure) : Nat :=
  1

/-- The configuration that is used when there is no file of it. -/
def ownConfig : Config :=
  { Config.standard with partitionCount := 4 }

/-- Where the configuration is. -/
def configPath : String :=
  "demos/grid/config.toml"

/-- Where the tables and the summary go. -/
def outputDirectory : String :=
  "output/grid"

/-- What a run of the program leaves. -/
structure Outcome where
  config : Config
  network : Network
  population : Nat
  report : Report
  /-- The number of rows of the table of events. -/
  eventRows : Nat
  events : List Char
  steps : List Char
  delays : DelayTable

def opening (config : Config) (g : Network) (population : Nat) : List String :=
  ["Config: Δt = " ++ toString config.stepSecs ++ " s, " ++ toString config.partitionCount ++
      " partitions, stop at " ++ toString config.maxSecs ++ " s",
    "Network: " ++ toString g.nodes.size ++ " nodes, " ++ toString g.links.size ++ " links",
    "Population: " ++ toString population ++ " commuters",
    ""]

/-- The name of the reason for which a run stopped. -/
def reasonName : EndReason → String
  | .allFinished => "all_finished"
  | .maxTime _ => "max_time_reached"
  | .cancelled => "cancelled"

def unfinished : EndReason → Nat
  | .maxTime count => count
  | _ => 0

def simulate (config : Config) : Except Failure Outcome := do
  let g ← network.mapError Failure.network
  let agents := commuters
  let simulation ← (Simulation.build config g agents none :
    Except BuildError (Simulation Float)).mapError Failure.build
  let (run, result) := simulation.run (.new 2) false fun _ => false
  let report ← result.mapError Failure.step
  let notices := run.records.toList.flatMap (fun record =>
    Bus.stepNotices record.events record.stats.time) ++ [.runEnd report.finalTime]
  let events := EventTable.hearAll (EventTable.begin .accepting) notices
  let steps := StepTable.write .accepting (run.records.toList.map (·.stats))
  return {
    config := config
    network := g
    population := agents.length
    report := report
    eventRows := events.rows
    events := ← events.finish.mapError Failure.output
    steps := ← steps.finish.mapError Failure.output
    delays := (DelayTable.empty g binSecs).hearAll notices }

/-- Read a configuration and run all commuters. -/
def runWith (config : List UInt8) : Except Failure Outcome :=
  match ConfigFile.ofBytes config with
  | .error e => .error (.config e)
  | .ok config => simulate config

namespace Outcome

/-- The links that anyone traversed, with their mean delay, the greatest first. -/
def slowest (o : Outcome) : List (LinkId × Float) :=
  let means := o.network.links.toList.filterMap fun l =>
    (o.delays.mean? l.id).map fun mean => (l.id, mean)
  means.mergeSort fun a b => b.2 < a.2 || (b.2 == a.2 && a.1 ≤ b.1)

def padRight (width : Nat) (text : String) : String :=
  text ++ String.ofList (List.replicate (width - text.length) ' ')

def padLeft (width : Nat) (text : String) : String :=
  String.ofList (List.replicate (width - text.length) ' ') ++ text

/-- A time in seconds with three decimals. -/
def secondsText (millis : Nat) : String :=
  let thousandths := toString (millis % 1000)
  toString (millis / 1000) ++ "." ++
    String.ofList (List.replicate (3 - thousandths.length) '0') ++ thousandths

/-- The lines that are shown after a run that took some time. -/
def closing (o : Outcome) (elapsed : String) : List String :=
  let summary := o.delays.summary
  ["Simulation complete in " ++ elapsed ++ " s (" ++ reasonName o.report.reason ++ ")",
    "  events.csv         : " ++ toString o.eventRows ++ " rows",
    "  step_summaries.csv : " ++ toString o.report.steps ++ " rows",
    "  trips              : " ++ toString summary.trips ++ " (" ++
      Decimal.oneDecimalText summary.link.mean ++ " s mean delay per link)",
    "",
    padRight 8 "Link" ++ " " ++ padLeft 14 "Mean delay (s)",
    String.ofList (List.replicate 23 '-')] ++
  (o.slowest.take shownLinks).map fun entry =>
    padRight 8 (toString entry.1.index) ++ " " ++
      padLeft 14 (Decimal.oneDecimalText entry.2)

def console (o : Outcome) (elapsed : String) : List String :=
  opening o.config o.network o.population ++ o.closing elapsed

/-- A line of the summary: a key with its value. -/
def summaryLine (indent key value : String) (last : Bool) : String :=
  indent ++ "\"" ++ key ++ "\": " ++ value ++ if last then "" else ","

/-- The lines of the summary, with the seconds that the run took if they are to be given. -/
def summary (o : Outcome) (elapsedSecs : Option Float) : List String :=
  let r := o.report
  let totals := o.delays.summary
  let outer (key value : String) : String := summaryLine "  " key value false
  let inner (key value : String) (last : Bool) : String := summaryLine "    " key value last
  ["\x7b",
    outer "end" ("\"" ++ reasonName r.reason ++ "\""),
    outer "unfinished" (toString (unfinished r.reason)),
    outer "final_time" (toString r.finalTime),
    outer "steps" (toString r.steps),
    outer "events" (toString r.events),
    outer "capacity_warnings" (toString r.warnings.length),
    outer "boundary_transfers" (toString r.boundaryTransfers),
    outer "finished_agents" (toString r.finished),
    outer "unreachable_agents" (toString r.unreachable)] ++
  (elapsedSecs.toList.map fun secs => outer "wall_secs" (Decimal.fileText secs)) ++
  ["  \"delay\": \x7b",
    inner "trips" (toString totals.trips) false,
    inner "total_travel_secs" (toString totals.travelSecs) false,
    inner "total_delay_secs" (toString totals.link.delaySecs) false,
    inner "traversals" (toString totals.link.traversals) false,
    inner "mean_link_delay" (Decimal.fileText totals.link.mean) true,
    "  \x7d",
    "\x7d"]

def linkDelays (o : Outcome) : List Char :=
  o.delays.text

/-- The files that a run leaves, by name, when it took some time. -/
def files (o : Outcome) (elapsedSecs : Float) : List (String × String) :=
  [("events.csv", String.ofList o.events),
    ("step_summaries.csv", String.ofList o.steps),
    ("link_delays.csv", String.ofList o.linkDelays),
    ("summary.json", "\n".intercalate (o.summary (some elapsedSecs)))]

end Outcome
end Grid
end Thoroughfare
