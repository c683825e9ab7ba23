import Thoroughfare.Config.Basic
import Thoroughfare.Csv.Table
import Thoroughfare.Quantity
import Thoroughfare.Toml.Document

/-!
# Configuration files

A configuration is written as a TOML document.  Every setting has a key of its own; missing keys
leave the standard setting, and keys that nobody asked for are ignored.  Whole numbers serve for
settings that need not be whole, but not the other way round.
-/

namespace Thoroughfare
namespace ConfigFile

/-- Why a file is no configuration. -/
inductive Error where
  | unreadable
  | malformed
  | invalid (fault : ConfigFault)
deriving DecidableEq, Repr

/-- A whole setting that is at most `greatest`. -/
def whole? (greatest : Nat) : Toml.Value → Option Nat
  | .whole n => if 0 ≤ n ∧ n ≤ greatest then some n.toNat else none
  | _ => none

def number? : Toml.Value → Option Float
  | .number x => some x
  | .whole n =>
      let size : Float := Quantity.ofNat n.natAbs
      some (if n < 0 then -size else size)
  | _ => none

def setting {β : Type} (fields : Toml.Fields) (key : String) (decode : Toml.Value → Option β)
    (standard : β) : Option β :=
  match fields.find? key with
  | none => some standard
  | some value => decode value

def ofFields (fields : Toml.Fields) : Option Config := do
  return {
    stepSecs := ← setting fields "time_step_secs" (whole? 4294967295) Config.standard.stepSecs
    partitionCount := ← setting fields "partition_count" (whole? lastSecond)
      Config.standard.partitionCount
    maxSecs := ← setting fields "max_sim_time_secs" (whole? lastSecond) Config.standard.maxSecs
    flowFactor := ← setting fields "flow_capacity_factor" number? Config.standard.flowFactor
    storageFactor := ← setting fields "storage_capacity_factor" number?
      Config.standard.storageFactor
    startSecs := ← setting fields "start_time_secs" (whole? lastSecond) Config.standard.startSecs
    workers := ← setting fields "num_threads" (fun value => (whole? lastSecond value).map some)
      Config.standard.workers }

def ofText (text : List Char) : Except Error Config :=
  match (Toml.Document.read? text).bind ofFields with
  | none => .error .malformed
  | some config =>
      match config.fault? with
      | some fault => .error (.invalid fault)
      | none => .ok config

def ofBytes (bytes : List UInt8) : Except Error Config :=
  match Csv.text? bytes with
  | none => .error .unreadable
  | some text => ofText text.toList

end ConfigFile
end Thoroughfare
