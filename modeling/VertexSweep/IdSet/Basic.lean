/-! Finite sets of numbers, kept as a binary trie in which a subtree that is wholly in or wholly
out of the set is a single leaf. A set of height `h` can hold the numbers below `span h` and grows
when a larger one is added, so long runs of numbers take little space whatever their length. One
operation, `assign`, decides membership for a whole range at once; the others are instances. -/

namespace VertexSweep

/-- A trie over the numbers below `span h`, for a height `h` that is kept beside it. -/
inductive IdTree where
  /-- No number at all. -/
  | empty
  /-- Every number below `span h`. -/
  | full
  /-- The numbers below half of the range in `low`, the others, less that half, in `high`. -/
  | node (low high : IdTree)
deriving DecidableEq, Repr, Inhabited

namespace IdTree

/-- How many numbers a tree of height `h` ranges over; one more level doubles it. -/
def span (h : Nat) : Nat := 1 <<< h

/-- Whether `k` belongs to a tree of height `h`. -/
def mem : Nat → IdTree → Nat → Bool
  | _, .empty, _ => false
  | h, .full, k => k < span h
  | 0, .node _ _, _ => false
  | h + 1, .node low high, k =>
    if k < span h then low.mem h k else high.mem h (k - span h)

/-- A node, or the leaf that has the same members. -/
def join : IdTree → IdTree → IdTree
  | .empty, .empty => .empty
  | .full, .full => .full
  | low, high => .node low high

/-- The two halves of a tree of positive height. -/
def halves : IdTree → IdTree × IdTree
  | .empty => (.empty, .empty)
  | .full => (.full, .full)
  | .node low high => (low, high)

/-- The leaf that holds everything or nothing. -/
def leaf (value : Bool) : IdTree := if value then .full else .empty

/-- Puts the numbers of `[lo, hi)` into the tree, or takes them out. -/
def assign (value : Bool) : Nat → IdTree → (lo hi : Nat) → IdTree
  | h, t, lo, hi =>
    if hi ≤ lo then t
    else if lo = 0 ∧ span h ≤ hi then leaf value
    else match h with
      | 0 => t
      | h + 1 =>
        let (low, high) := t.halves
        join (assign value h low lo (min hi (span h)))
          (assign value h high (lo - span h) (hi - span h))

/-- Whether a tree of height `h` holds no number. -/
def isEmpty : Nat → IdTree → Bool
  | _, .empty => true
  | _, .full => false
  | 0, .node _ _ => true
  | h + 1, .node low high => low.isEmpty h && high.isEmpty h

/-- How many numbers a tree of height `h` holds. -/
def size : Nat → IdTree → Nat
  | _, .empty => 0
  | h, .full => span h
  | 0, .node _ _ => 0
  | h + 1, .node low high => low.size h + high.size h

/-- Puts the numbers of a tree of height `h`, each raised by `base`, in front of `rest`. -/
def membersOnto : Nat → IdTree → (base : Nat) → (rest : List Nat) → List Nat
  | _, .empty, _, rest => rest
  | h, .full, base, rest => (List.range' base (span h)) ++ rest
  | 0, .node _ _, _, rest => rest
  | h + 1, .node low high, base, rest =>
    low.membersOnto h base (high.membersOnto h (base + span h) rest)

/-- The same numbers in a tree that is `extra` levels higher. -/
def raise : (extra : Nat) → IdTree → IdTree
  | 0, t => t
  | extra + 1, t => raise extra (join t .empty)

end IdTree

/-- A finite set of numbers. -/
structure IdSet where
  height : Nat := 0
  tree : IdTree := .empty
deriving DecidableEq, Repr, Inhabited

namespace IdSet

def empty : IdSet := {}

/-- Whether `k` is a member. -/
def contains (s : IdSet) (k : Nat) : Bool := s.tree.mem s.height k

/-- The least height whose range reaches `hi`. -/
def heightFor (hi : Nat) : Nat := if hi ≤ 1 then 0 else Nat.log2 (hi - 1) + 1

/-- Adds every number of `[lo, hi)`. -/
def insertRange (s : IdSet) (lo hi : Nat) : IdSet :=
  if hi ≤ lo then s
  else
    let extra := heightFor hi - s.height
    let height := s.height + extra
    { height, tree := (s.tree.raise extra).assign true height lo hi }

/-- Removes every number of `[lo, hi)`. -/
def removeRange (s : IdSet) (lo hi : Nat) : IdSet :=
  { s with tree := s.tree.assign false s.height lo hi }

def insert (s : IdSet) (k : Nat) : IdSet := s.insertRange k (k + 1)

def erase (s : IdSet) (k : Nat) : IdSet := s.removeRange k (k + 1)

/-- How many members there are. -/
def size (s : IdSet) : Nat := s.tree.size s.height

/-- Whether there are no members. -/
def isEmpty (s : IdSet) : Bool := s.tree.isEmpty s.height

/-- The members in ascending order. -/
def toList (s : IdSet) : List Nat := s.tree.membersOnto s.height 0 []

end IdSet

end VertexSweep
