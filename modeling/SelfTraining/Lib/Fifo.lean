import SelfTraining.Lib.Steps

/-!
A waiting line, first come first served, as an abstract machine.

Its state is the line from front to back. Whoever arrives joins at the back, and only the
front is served. A system serves in order when its arrivals and services, in order, are a
run of the line.
-/

namespace SelfTraining.Fifo

open Steps

variable {α : Type*}

inductive Event (α : Type*) where
  | arrive (a : α)
  | serve (a : α)

inductive Step : Event α → List α → List α → Prop where
  | arrive (a : α) (line : List α) : Step (.arrive a) line (line ++ [a])
  | serve (a : α) (line : List α) : Step (.serve a) (a :: line) line

def Event.arrival : Event α → Option α
  | .arrive a => some a
  | .serve _ => none

def Event.service : Event α → Option α
  | .arrive _ => none
  | .serve a => some a

/-- Those who have arrived, in order. -/
def arrivals (es : List (Event α)) : List α := es.filterMap Event.arrival

/-- Those who have been served, in order. -/
def services (es : List (Event α)) : List α := es.filterMap Event.service

/-- **First come, first served.** Those who have arrived are those who have been served and
then those who still stand in the line, in the same order. -/
theorem arrivals_eq {es : List (Event α)} {line : List α} (h : Trace Step [] es line) :
    arrivals es = services es ++ line := by
  induction h with
  | nil => rfl
  | snoc _ hstep ih =>
    unfold arrivals services at *
    cases hstep with
    | arrive a => simp [ih, Event.arrival, Event.service]
    | serve a => simp [ih, Event.arrival, Event.service]

end SelfTraining.Fifo
