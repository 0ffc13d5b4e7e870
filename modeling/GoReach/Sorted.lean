/-!
# Sorted lists without repetition

Sets and tables of this library are lists in a given order.  Of two elements that the order does
not tell apart, a set keeps the first one that came, and a table the last one.
-/

namespace GoReach.Sorted

variable {α : Type} (cmp : α → α → Ordering)

/-- Insert an element at its place, unless an equal one is there. -/
def insert (a : α) : List α → List α
  | [] => [a]
  | b :: rest =>
    match cmp a b with
    | .lt => a :: b :: rest
    | .eq => b :: rest
    | .gt => b :: insert a rest

def ofList (as : List α) : List α := as.foldl (fun s a => insert cmp a s) []

/-- Put an element at its place, instead of the equal one if there is one. -/
def put (a : α) : List α → List α
  | [] => [a]
  | b :: rest =>
    match cmp a b with
    | .lt => a :: b :: rest
    | .eq => a :: rest
    | .gt => b :: put a rest

/-- Whether an equal element is there. -/
def contains (a : α) (as : List α) : Bool := as.any fun b => cmp a b == .eq

/-- All elements, in order; equal ones keep their places. -/
def sort (as : List α) : List α := as.mergeSort fun a b => (cmp a b).isLE

end GoReach.Sorted
