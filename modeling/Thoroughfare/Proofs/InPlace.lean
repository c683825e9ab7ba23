/-!
# Changes in place

A change of a state is written as a function that returns the new state or refuses.  Whoever keeps
the state somewhere makes the change in place: fields are read, checked and written one after the
other, and a refusal behind the first write would leave the state half changed.  So whether refused
calls change nothing is a question about programs that make a change in place, and such a program
agrees with the function just if it makes the whole change or none of it.

Whatever calls are made of such programs one after the other, what one call keeps is kept by all.
-/

namespace Thoroughfare
namespace InPlace

variable {σ ε β κ : Type}

/-- Make the whole change, or refuse and leave the state as it is. -/
def atomically (change : σ → Except ε (β × σ)) : EStateM ε σ β := fun s =>
  match change s with
  | .ok (answer, s') => .ok answer s'
  | .error e => .error e s

theorem run_atomically_of_ok {change : σ → Except ε (β × σ)} {s s' : σ} {answer : β}
    (h : change s = .ok (answer, s')) : (atomically change).run s = .ok answer s' := by
  rw [EStateM.run, atomically, h]

theorem run_atomically_of_error {change : σ → Except ε (β × σ)} {s : σ} {e : ε}
    (h : change s = .error e) : (atomically change).run s = .error e s := by
  rw [EStateM.run, atomically, h]

/-! ## Calls one after the other -/

/-- The state that a program leaves behind, whether it succeeds or not. -/
def after (program : EStateM ε σ β) (s : σ) : σ :=
  match program.run s with
  | .ok _ s' => s'
  | .error _ s' => s'

def succeeds (program : EStateM ε σ β) (s : σ) : Bool :=
  match program.run s with
  | .ok _ _ => true
  | .error _ _ => false

theorem after_of_ok {program : EStateM ε σ β} {s s' : σ} {answer : β}
    (h : program.run s = .ok answer s') : after program s = s' ∧ succeeds program s = true := by
  rw [after, succeeds, h]
  exact ⟨rfl, rfl⟩

theorem after_of_error {program : EStateM ε σ β} {s s' : σ} {e : ε}
    (h : program.run s = .error e s') : after program s = s' ∧ succeeds program s = false := by
  rw [after, succeeds, h]
  exact ⟨rfl, rfl⟩

/-- The state that some calls leave behind. -/
def afterAll (program : κ → EStateM ε σ β) (s : σ) : List κ → σ
  | [] => s
  | call :: rest => afterAll program (after (program call) s) rest

/-- Those of some calls that succeed. -/
def granted (program : κ → EStateM ε σ β) (s : σ) : List κ → List κ
  | [] => []
  | call :: rest =>
      if succeeds (program call) s then
        call :: granted program (after (program call) s) rest
      else granted program (after (program call) s) rest

section Keeping

variable {program : κ → EStateM ε σ β} {s : σ} (Holds : σ → List κ → Prop)
  (hgrant : ∀ {s : σ} {before : List κ} {call : κ} {answer : β} {s' : σ}, Holds s before →
    (program call).run s = .ok answer s' → Holds s' (before ++ [call]))
  (hrefuse : ∀ {s : σ} {before : List κ} {call : κ} {e : ε} {s' : σ}, Holds s before →
    (program call).run s = .error e s' → Holds s' before)
include hgrant hrefuse

/-- What holds of the state and of the calls that have succeeded so far, and goes on to hold with
each call, holds after all calls. -/
theorem afterAll_keeps_from {before : List κ} (h : Holds s before) (calls : List κ) :
    Holds (afterAll program s calls) (before ++ granted program s calls) := by
  induction calls generalizing s before with
  | nil =>
      rw [granted, List.append_nil]
      exact h
  | cons call rest ih =>
      rw [afterAll, granted]
      cases hrun : (program call).run s with
      | ok answer s' =>
          obtain ⟨hafter, hsucceeds⟩ := after_of_ok hrun
          rw [hafter, hsucceeds, if_pos rfl, List.append_cons]
          exact ih (hgrant h hrun)
      | error e s' =>
          obtain ⟨hafter, hsucceeds⟩ := after_of_error hrun
          rw [hafter, hsucceeds, if_neg Bool.false_ne_true]
          exact ih (hrefuse h hrun)

theorem afterAll_keeps (h : Holds s []) (calls : List κ) :
    Holds (afterAll program s calls) (granted program s calls) :=
  afterAll_keeps_from Holds hgrant hrefuse h calls

end Keeping

end InPlace
end Thoroughfare
