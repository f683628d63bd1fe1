import Std.Data.HashMap
import VertexSweep.Id
import VertexSweep.Random.ChaCha

/-! Sources of vertex labels. A label depends on nothing but the source and the vertex, so a
labelling can be repeated. Explicit labels come with a fallback for the vertices not listed;
random labels are drawn uniformly, for each vertex from a stream of its own. -/

namespace VertexSweep

/-- Labels for listed vertices, and one label for all others. -/
structure FixedLabels where
  listed : Std.HashMap VertexId Label := {}
  fallback : Label := 0

namespace FixedLabels

def set (s : FixedLabels) (v : VertexId) (label : Label) : FixedLabels :=
  match s with
  | ⟨listed, fallback⟩ => ⟨listed.insert v label, fallback⟩

/-- Labels the listed vertices; of two entries for a vertex the later one counts. -/
def ofList (entries : List (VertexId × Label)) (fallback : Label) : FixedLabels :=
  entries.foldl (fun s e => s.set e.1 e.2) { fallback }

/-- Labels vertex `i` with the entry number `i`. -/
def ofSlice (labels : List Label) (fallback : Label) : FixedLabels :=
  ofList (labels.mapIdx fun i label => (UInt32.ofNat i, label)) fallback

/-- How many vertices are listed. -/
def size (s : FixedLabels) : Nat := s.listed.size

/-- Whether no vertex is listed. -/
def isEmpty (s : FixedLabels) : Bool := s.listed.isEmpty

def labelOf (s : FixedLabels) (v : VertexId) : Label := s.listed.getD v s.fallback

end FixedLabels

/-- Labels drawn uniformly from the numbers below `domain`. -/
structure RandomLabels where
  seed : UInt64
  domain : UInt32
  domain_pos : 0 < domain

namespace RandomLabels

/-- The source for a seed and a domain; an empty domain is taken as one label. -/
def ofSeed (seed : UInt64) (domain : UInt32) : RandomLabels :=
  if h : 0 < domain then ⟨seed, domain, h⟩ else ⟨seed, 1, by decide⟩

/-- The greatest power-of-two multiple of `range` that fits in a word, less one. Of the products
of a word with `range`, those whose lower word is at most this are spread evenly. -/
def zone (range : UInt32) : UInt32 :=
  range <<< (31 - UInt32.ofNat (Nat.log2 range.toNat)) - 1

/-- The first fair number below `range` among at most `left` words, from word number `i` on. Each
word is widened to its product with `range`, whose upper half is the number drawn; it is fair if
the lower half lies in the zone. -/
def draw (range : UInt32) (words : Nat → UInt32) (i : Nat) : (left : Nat) → UInt32
  | 0 => 0
  | left + 1 =>
    let product := (words i).toUInt64 * range.toUInt64
    if ChaCha.lowWord product ≤ zone range then ChaCha.highWord product
    else draw range words (i + 1) left

def labelOf (s : RandomLabels) (v : VertexId) : Label :=
  draw s.domain (ChaCha.word (ChaCha.Key.ofSeed s.seed) v.toUInt64) 0 ChaCha.period

/-- The labels of the vertices below `n`, where `n` is cut down to 32 bits. -/
def take (s : RandomLabels) (n : Nat) : List Label :=
  (List.range (n % 4294967296)).map fun v => s.labelOf (UInt32.ofNat v)

end RandomLabels

end VertexSweep
