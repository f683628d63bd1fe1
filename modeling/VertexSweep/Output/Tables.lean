import VertexSweep.Match.Candidates
import VertexSweep.Text.Rows

/-! Results as tables of two columns, the first of which is the vertex. -/

namespace VertexSweep.Output

/-- A table with a header and rows of two fields each. -/
def table (header : List Char × List Char) (rows : List (List Char × List Char)) : String :=
  String.ofList ((header :: rows).flatMap fun r => Rows.row r.1 r.2)

/-- The pairs of a vertex and one of its candidates. -/
def pairsOf (sets : List (VertexId × List PatternId)) : List (VertexId × PatternId) :=
  sets.flatMap fun (u, ps) => ps.map fun p => (u, p)

/-- The candidates that are left, one pair per row. -/
def matchTable (t : Candidates) : String :=
  table ("vertex".toList, "pattern".toList)
    ((pairsOf t.liveSets).map fun (u, p) => (Decimal.digits u.toNat, Decimal.digits p.toNat))

/-- The number of rows in the table of candidates. -/
def matchRows (t : Candidates) : Nat := (pairsOf t.liveSets).length

/-- One value for each vertex, one vertex per row. -/
def valueTable (column : String) (values : List String) : String :=
  table ("vertex".toList, column.toList)
    (values.mapIdx fun v value => (Decimal.digits v, value.toList))

end VertexSweep.Output
