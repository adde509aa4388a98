/-!
# Where a shortest script can be cut

Getting from old lines to new ones is a walk over a grid: a step to the right
deletes an old line, a step down inserts a new one, and a diagonal step keeps a
line that both have. A walk is on diagonal `k` after deleting `k` lines more than
it inserted. Walks from both ends are extended by one change at a time, keeping
on each diagonal only the one that got furthest; the first two that meet lie on
a shortest walk, and the place where their common run of kept lines begins cuts
the problem in two.
-/

namespace TypedClient.Difference

/-- The walk that got furthest on a diagonal: how many old lines it had used before its last
run of kept lines, and how many after it. -/
structure Reach where
  diagonal : Int
  start : Nat
  stop : Nat

/-- The old position behind the run of equal lines that starts at `x` and `y`. -/
def runFrom (old new : Array String) (x y : Nat) : Nat :=
  if h : x < old.size ∧ y < new.size then
    if old[x] = new[y] then runFrom old new (x + 1) (y + 1) else x
  else x
termination_by old.size - x

namespace Reach

/-- The number of new lines a walk on a diagonal has used when it has used `x` old ones. -/
def across (diagonal : Int) (x : Nat) : Nat :=
  (x - diagonal).toNat

def extend (old new : Array String) (diagonal : Int) (start : Nat) : Reach :=
  { diagonal, start, stop := runFrom old new start (across diagonal start) }

end Reach

/-- Furthest walks with the same number of changes, by descending diagonals. -/
abbrev Frontier := Array Reach

namespace Frontier

/-- Where the inner walks of the next round start: a walk goes down from the diagonal above,
or to the right from the diagonal below if that gets at least as far. -/
def innerStarts : List Reach → List Nat
  | [] => []
  | [last] => [last.stop]
  | above :: below :: rest =>
    (if below.stop < above.stop then above.stop else below.stop + 1) :: innerStarts (below :: rest)

def starts : List Reach → List Nat
  | [] => [0]
  | first :: rest => (first.stop + 1) :: innerStarts (first :: rest)

/-- The next round has one change more than the last; the first round has none. -/
def next (old new : Array String) (frontier : Frontier) : Frontier :=
  ((starts frontier.toList).zipIdx.map fun (start, i) =>
    Reach.extend old new (frontier.size - 2 * i) start).toArray

def reachOn? (frontier : Frontier) (diagonal : Int) : Option Reach :=
  (frontier[((frontier.size - 1 - diagonal) / 2).toNat]?).filter (·.diagonal = diagonal)

/-- A walk meets one from the other end when they are on one diagonal of the grid and leave
no old line between them. Seen from its own end, the other walk is on the diagonal that
`shift`, the surplus of old lines, leaves of this one. -/
def meets (size : Nat) (shift : Int) (other : Frontier) (reach : Reach) : Bool :=
  match other.reachOn? (shift - reach.diagonal) with
  | some found => size ≤ reach.stop + found.stop
  | none => false

end Frontier

/-- Extends the walks from both ends, at most the given number of times. Walks can only meet
after the forward turn of a round if the surplus of old lines is odd, and after the backward
turn if it is even. -/
def search (old new oldBack newBack : Array String) :
    Nat → Frontier → Frontier → Option (Nat × Nat)
  | 0, _, _ => none
  | rounds + 1, forward, backward =>
    let shift : Int := old.size - new.size
    let forward := forward.next old new
    match if shift % 2 = 1 then forward.find? (Frontier.meets old.size shift backward) else none with
    | some reach => some (reach.start, Reach.across reach.diagonal reach.start)
    | none =>
      let backward := backward.next oldBack newBack
      match if shift % 2 = 0 then backward.find? (Frontier.meets old.size shift forward) else none with
      | some reach =>
        some (old.size - reach.stop, new.size - Reach.across reach.diagonal reach.stop)
      | none => search old new oldBack newBack rounds forward backward

/-- The numbers of old and new lines before the cut. -/
def cut? (old new : List String) : Option (Nat × Nat) :=
  search old.toArray new.toArray old.reverse.toArray new.reverse.toArray
    ((old.length + new.length + 1) / 2 + 1) #[] #[]

end TypedClient.Difference
