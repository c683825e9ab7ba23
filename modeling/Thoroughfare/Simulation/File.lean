import Thoroughfare.Csv.Writer
import Thoroughfare.Simulation.Report

/-!
# Step tables

The counters of all steps of a run are written as a table with one row for each step.
-/

namespace Thoroughfare
namespace StepTable

def header : Csv.Record Char :=
  ["tick", "time", "events", "departures", "link_moves", "arrivals", "blocked_links",
    "blocked_departures", "en_route", "departing", "finished_total",
    "boundary_transfers"].map String.toList

def cells (s : StepStats) : List Csv.Cell :=
  [s.tick, s.time, s.events, s.departures, s.linkMoves, s.arrivals, s.blockedLinks,
    s.blockedDepartures, s.enRoute, s.departing, s.finished,
    s.boundaryTransfers].map Csv.Cell.number

def write (sink : Csv.Sink) (steps : List StepStats) : Csv.Writer :=
  steps.foldl (fun w s => w.add (cells s)) (.begin sink header)

end StepTable
end Thoroughfare
