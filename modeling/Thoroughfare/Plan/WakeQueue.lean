import Thoroughfare.Ident
import Thoroughfare.Time.Clock

/-!
# Wake-ups

Most agents rest most of the time.  An agent that starts an activity leaves word when to be
woken, and each step looks only at the agents that are due.  The pending wake-ups are kept in
ascending order of their ticks.
-/

namespace Thoroughfare

/-- An agent and the tick at which it is to be woken. -/
structure WakeUp where
  tick : Tick
  agent : AgentId
deriving DecidableEq, Repr

/-- Put a wake-up behind those that are not later. -/
def insertWakeUp (w : WakeUp) : List WakeUp → List WakeUp
  | [] => [w]
  | first :: rest =>
      if w.tick < first.tick then w :: first :: rest else first :: insertWakeUp w rest

/-- The pending wake-ups, ascending by tick. -/
structure WakeQueue where
  pending : List WakeUp
  ascending : pending.Pairwise fun a b => a.tick ≤ b.tick

theorem insertWakeUp_perm (w : WakeUp) (pending : List WakeUp) :
    (insertWakeUp w pending).Perm (w :: pending) := by
  induction pending with
  | nil => exact List.Perm.refl _
  | cons first rest ih =>
      rw [insertWakeUp]
      split
      · exact List.Perm.refl _
      · exact (ih.cons first).trans (List.Perm.swap w first rest)

theorem insertWakeUp_pairwise (w : WakeUp) {pending : List WakeUp}
    (h : pending.Pairwise fun a b => a.tick ≤ b.tick) :
    (insertWakeUp w pending).Pairwise fun a b => a.tick ≤ b.tick := by
  induction pending with
  | nil => simp [insertWakeUp]
  | cons first rest ih =>
      rw [List.pairwise_cons] at h
      rw [insertWakeUp]
      split
      · rename_i hlt
        refine List.pairwise_cons.2 ⟨?_, List.pairwise_cons.2 h⟩
        intro other hother
        rcases List.mem_cons.1 hother with rfl | hrest
        · exact Nat.le_of_lt hlt
        · exact Nat.le_trans (Nat.le_of_lt hlt) (h.1 other hrest)
      · rename_i hge
        refine List.pairwise_cons.2 ⟨?_, ih h.2⟩
        intro other hother
        have hmem := (insertWakeUp_perm w rest).mem_iff.1 hother
        rcases List.mem_cons.1 hmem with rfl | hrest
        · exact Nat.le_of_not_lt hge
        · exact h.1 other hrest

namespace WakeQueue

def empty : WakeQueue :=
  ⟨[], List.Pairwise.nil⟩

instance : Inhabited WakeQueue :=
  ⟨empty⟩

/-- Leave word to wake an agent at a tick. -/
def push (q : WakeQueue) (tick : Tick) (agent : AgentId) : WakeQueue :=
  ⟨insertWakeUp ⟨tick, agent⟩ q.pending, insertWakeUp_pairwise _ q.ascending⟩

/-- The wake-ups that are due at a tick. -/
def due (q : WakeQueue) (tick : Tick) : List WakeUp :=
  q.pending.takeWhile fun w => w.tick ≤ tick

/-- The queue without the wake-ups that are due at a tick. -/
def later (q : WakeQueue) (tick : Tick) : WakeQueue :=
  ⟨q.pending.dropWhile fun w => w.tick ≤ tick,
    q.ascending.sublist (List.dropWhile_suffix _).sublist⟩

/-- Take out the agents that are due at a tick, ascending by number. -/
def drainDue (q : WakeQueue) (tick : Tick) : List AgentId × WakeQueue :=
  (((q.due tick).map (·.agent)).mergeSort (· ≤ ·), q.later tick)

def nextTick? (q : WakeQueue) : Option Tick :=
  q.pending.head?.map (·.tick)

def length (q : WakeQueue) : Nat :=
  q.pending.length

def tickCount (q : WakeQueue) : Nat :=
  (q.pending.map (·.tick)).eraseDups.length

end WakeQueue

end Thoroughfare
