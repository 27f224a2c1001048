/-! # Plateaus

How long a sequence of counts has not gone down. -/

namespace CodeBridge.Measure

/-- The smallest count so far, and how many counts came since it was first reached. -/
structure Plateau where
  best : Int
  since : Nat
deriving DecidableEq, Repr

namespace Plateau

def start (count : Int) : Plateau :=
  ⟨count, 0⟩

/-- A smaller count starts anew; an equal one does not. -/
def step (p : Plateau) (count : Int) : Plateau :=
  if count < p.best then ⟨count, 0⟩ else ⟨p.best, p.since + 1⟩

/-- The plateau at the end of a sequence. -/
def ofCounts (first : Int) (rest : List Int) : Plateau :=
  rest.foldl step (start first)

/-- The plateau of a history that ends with the current count. -/
def ofHistory (history : List Int) (current : Int) : Plateau :=
  match history with
  | [] => start current
  | first :: rest => ofCounts first (rest ++ [current])

end Plateau

/-- Why no further round is needed. -/
inductive Stopping where
  | noneBelow
  | noImprovement (rounds : Nat) (best : Int)
deriving DecidableEq, Repr

namespace Stopping

/-- After so many rounds without improvement there is none to expect. -/
def patience : Nat := 3

def reason? (history : List Int) (current : Int) : Option Stopping :=
  let p := Plateau.ofHistory history current
  if current = 0 then some .noneBelow
  else if patience ≤ p.since then some (.noImprovement p.since p.best)
  else none

end Stopping

end CodeBridge.Measure
