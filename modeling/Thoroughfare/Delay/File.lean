import Thoroughfare.Csv.Writer
import Thoroughfare.Decimal.Layout
import Thoroughfare.Decimal.Numeral
import Thoroughfare.Delay.Table

/-!
# Delay tables as files

The delay of every link in every bin is written as a table with one row for each, ordered by link
and time.  When there are no rows the file is empty.
-/

namespace Thoroughfare
namespace DelayTable

def header : Csv.Record Char :=
  ["link", "bin_end", "traversals", "total_delay_secs", "mean_delay_secs"].map String.toList

def row (link : LinkId) (binEnd : Nat) (totals : DelayTotals) : Csv.Record Char :=
  [Numeral.write link.index, Numeral.write binEnd, Numeral.write totals.traversals,
    Numeral.write totals.delaySecs, (Decimal.fileText totals.mean).toList]

def rows (t : DelayTable) : List (Csv.Record Char) :=
  t.bins.toList.flatMap fun entry =>
    entry.2.toList.map fun bin => row entry.1 bin.1 bin.2

def text (t : DelayTable) : List Char :=
  match t.rows with
  | [] => []
  | first :: rest => Csv.write (header :: first :: rest)

end DelayTable
end Thoroughfare
