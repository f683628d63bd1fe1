import VertexSweep.Text.Decimal

/-! Identifiers of data vertices and pattern vertices, and the labels they carry. All three are
32-bit words. Data vertices and labels are written as plain numbers, pattern vertices with a
leading `p`. -/

namespace VertexSweep

/-- Dense identifier of a vertex of the data graph. -/
abbrev VertexId := UInt32

/-- Dense identifier of a vertex of the pattern. -/
abbrev PatternId := UInt32

/-- Small number attached to data and pattern vertices; only vertices of equal labels match. -/
abbrev Label := UInt32

def VertexId.text (v : VertexId) : String := Decimal.text v.toNat

def PatternId.text (p : PatternId) : String := "p" ++ Decimal.text p.toNat

def Label.text (l : Label) : String := Decimal.text l.toNat

/-- The largest number that fits in 32 bits. -/
def maxWord : Nat := 4294967295

/-- The number of 64-bit entries that are too many for a table to be addressed. -/
def addressLimit : Nat := 1152921504606846976

end VertexSweep
