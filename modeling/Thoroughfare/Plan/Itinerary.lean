import Thoroughfare.Ident
import Thoroughfare.Time.Clock

/-!
# Itineraries

A day is a chain of activities with a leg between each two.  It begins and ends with an
activity, and every activity but the last says when it ends: at a fixed second, or some seconds
after it began.  Whether the legs can be driven is not checked here.
-/

namespace Thoroughfare

/-- A stay on a link. -/
structure Activity where
  kind : String
  link : LinkId
  endTime : Option Nat
  duration : Option Nat
deriving DecidableEq, Repr

namespace Activity

/-- When an activity ends that began at `start`.  A fixed end counts more than a duration. -/
def endAfter (a : Activity) (start : Nat) : Option Nat :=
  match a.endTime with
  | some secs => some secs
  | none => a.duration.map fun secs => min (start + secs) lastSecond

def hasEnd (a : Activity) : Bool :=
  a.endTime.isSome || a.duration.isSome

theorem isSome_endAfter (a : Activity) (start : Nat) : (a.endAfter start).isSome = a.hasEnd := by
  cases hend : a.endTime <;> simp [endAfter, hasEnd, hend]

end Activity

/-- A trip; the route lists every link from that of the activity before to that of the activity
after it, both included. -/
structure Leg where
  mode : String
  route : List LinkId
deriving DecidableEq, Repr

/-- A trip by car. -/
def Leg.byCar (route : List LinkId) : Leg :=
  ⟨"car", route⟩

/-- One part of a day. -/
inductive Segment where
  | activity (a : Activity)
  | leg (l : Leg)
deriving DecidableEq, Repr

/-- Why a chain of segments is no itinerary. -/
inductive ItineraryFault where
  | empty
  | openEnded (index : Nat) (kind : String)
  | expectedActivity (index : Nat)
  | expectedLeg (index : Nat)
  | endsWithLeg
deriving DecidableEq, Repr

def ItineraryFault.message : ItineraryFault → String
  | empty => "itinerary is empty"
  | openEnded index kind =>
      "activity " ++ toString index ++ " (" ++ kind ++ ") has neither end time nor duration"
  | expectedActivity index => "segment " ++ toString index ++ " must be an activity"
  | expectedLeg index => "segment " ++ toString index ++ " must be a leg"
  | endsWithLeg => "itinerary must end with an activity"

/-- The first fault of the segments from `index` on, where `index` has the place of an activity
or of a leg by turns. -/
def segmentFault? (index : Nat) : List Segment → Option ItineraryFault
  | [] => if index % 2 = 0 then some .endsWithLeg else none
  | segment :: rest =>
      match index % 2, segment with
      | 0, .activity a =>
          if rest ≠ [] ∧ a.hasEnd = false then some (.openEnded index a.kind)
          else segmentFault? (index + 1) rest
      | 0, .leg _ => some (.expectedActivity index)
      | _, .leg _ => segmentFault? (index + 1) rest
      | _, .activity _ => some (.expectedLeg index)

/-- The first fault of a chain of segments. -/
def itineraryFault? (segments : List Segment) : Option ItineraryFault :=
  if segments = [] then some .empty else segmentFault? 0 segments

/-- A day of activities and legs by turns. -/
structure Itinerary where
  segments : List Segment
  faultless : itineraryFault? segments = none

instance : DecidableEq Itinerary := fun a b =>
  if h : a.segments = b.segments then
    .isTrue (by cases a; cases b; cases h; rfl)
  else .isFalse fun hab => h (congrArg Itinerary.segments hab)

namespace Itinerary

/-- The itinerary of a chain of segments. -/
def ofSegments (segments : List Segment) : Except ItineraryFault Itinerary :=
  match h : itineraryFault? segments with
  | none => .ok ⟨segments, h⟩
  | some fault => .error fault

theorem ofSegments_eq_ok_iff {segments : List Segment} {t : Itinerary} :
    ofSegments segments = .ok t ↔ segments = t.segments := by
  rw [ofSegments]
  constructor
  · intro h
    split at h
    · cases h
      rfl
    · cases h
  · rintro rfl
    split
    · rfl
    · rename_i hfault
      rw [t.faultless] at hfault
      cases hfault

/-- A day with a single activity. -/
def stay (a : Activity) : Itinerary :=
  ⟨[.activity a], by simp [itineraryFault?, segmentFault?]⟩

def length (t : Itinerary) : Nat :=
  t.segments.length

def activity? (t : Itinerary) (index : Nat) : Option Activity :=
  match t.segments[index]? with
  | some (.activity a) => some a
  | _ => none

def leg? (t : Itinerary) (index : Nat) : Option Leg :=
  match t.segments[index]? with
  | some (.leg l) => some l
  | _ => none

def firstActivity? (t : Itinerary) : Option Activity :=
  t.activity? 0

def legs (t : Itinerary) : List Leg :=
  t.segments.filterMap fun segment =>
    match segment with
    | .leg l => some l
    | .activity _ => none

end Itinerary

end Thoroughfare
