import VertexSweep.Output.Tables
import VertexSweep.Proofs.Match.Pairing
import VertexSweep.Proofs.Text.Numbering
import VertexSweep.Proofs.Text.Numerals

/-!
# The table of matches

What a table of candidates is written as, and that nothing of it is lost. A table of two columns
whose fields need no quotation marks has a line for the header and one for every row
(`Output.lines_table`). The rows of the table of matches are read back one by one as the pair that
they were written for (`Output.pair?_line`), and the pairs come in lexicographic order, each once
(`Output.pairwise_pairsOf`). So the file holds the relation of the table, whatever has been done to
it (`Output.matchTable_decodes`).
-/

namespace VertexSweep

namespace Rows

variable {s a b : List Char}

theorem isSpecial_of_isPlain {c : Char} (hc : Records.isPlain c = true) : isSpecial c = false := by
  rw [← Bool.not_eq_true]
  intro hspecial
  simp only [isSpecial, Bool.or_eq_true, beq_iff_eq] at hspecial
  rcases hspecial with ((rfl | rfl) | rfl) | rfl <;> exact absurd hc (by decide)

/-- A field without special characters is written as it is. -/
theorem field_eq_self (hs : ∀ c ∈ s, isSpecial c = false) : field s = s := by
  refine if_neg fun hany => ?_
  obtain ⟨c, hc, hspecial⟩ := List.any_eq_true.1 hany
  rw [hs c hc] at hspecial
  cases hspecial

theorem notMem_of_isSpecial {c : Char} (hs : ∀ c ∈ s, isSpecial c = false)
    (hc : isSpecial c = true) : c ∉ s := fun hmem => by
  rw [hs c hmem] at hc
  cases hc

end Rows

namespace Records

/-- Lines are found again if none of them contains a line feed. -/
theorem lines_unlines {ls : List (List Char)} (hls : ∀ l ∈ ls, '\n' ∉ l) :
    lines (unlines ls) = ls ++ [[]] := by
  induction ls with
  | nil => rfl
  | cons l ls ih =>
    rw [unlines, List.flatMap_cons, List.append_assoc, List.singleton_append,
      lines_append (hls l List.mem_cons_self)]
    exact congrArg (l :: ·) (ih fun l' hl' => hls l' (List.mem_cons_of_mem l hl'))

end Records

namespace Output

/-! ## Tables as lines -/

/-- Two fields with a comma between them. -/
def line (r : List Char × List Char) : List Char := r.1 ++ ',' :: r.2

/-- Fields that are written as they are. -/
def IsClear (r : List Char × List Char) : Prop :=
  ∀ c ∈ r.1 ++ r.2, Rows.isSpecial c = false

variable {r header : List Char × List Char} {rows : List (List Char × List Char)}

theorem IsClear.left (hr : IsClear r) : ∀ c ∈ r.1, Rows.isSpecial c = false :=
  (List.forall_mem_append.1 hr).1

theorem IsClear.right (hr : IsClear r) : ∀ c ∈ r.2, Rows.isSpecial c = false :=
  (List.forall_mem_append.1 hr).2

theorem row_eq (hr : IsClear r) : Rows.row r.1 r.2 = line r ++ ['\n'] := by
  rw [Rows.row, Rows.field_eq_self hr.left, Rows.field_eq_self hr.right, line, List.append_assoc]

theorem notMem_line (hr : IsClear r) : '\n' ∉ line r := by
  intro hmem
  rcases List.mem_append.1 hmem with hmem | hmem
  · exact Rows.notMem_of_isSpecial hr.left rfl hmem
  · have hmem := (List.mem_cons.1 hmem).resolve_left (by decide)
    exact Rows.notMem_of_isSpecial hr.right rfl hmem

/-- A table has a line for the header and one for each row. -/
theorem lines_table (hheader : IsClear header) (hrows : ∀ r ∈ rows, IsClear r) :
    Records.lines (table header rows).toList = line header :: rows.map line ++ [[]] := by
  have hall : ∀ r ∈ header :: rows, IsClear r := List.forall_mem_cons.2 ⟨hheader, hrows⟩
  have htext : (table header rows).toList = Records.unlines ((header :: rows).map line) := by
    rw [table, String.toList_ofList, Records.unlines, List.flatMap_map]
    exact List.flatMap_congr fun r hr => row_eq (hall r hr)
  rw [htext, Records.lines_unlines]
  · rfl
  · intro l hl
    obtain ⟨r, hr, rfl⟩ := List.mem_map.1 hl
    exact notMem_line (hall r hr)

/-! ## Rows as pairs -/

/-- The pair of words that two decimal fields on a line write. -/
def pair? (l : List Char) : Option (VertexId × PatternId) :=
  match l.splitOn ',' with
  | [u, p] => do return (← Decimal.readWord? u, ← Decimal.readWord? p)
  | _ => none

/-- The fields of the row for a pair. -/
def fields (e : VertexId × PatternId) : List Char × List Char :=
  (Decimal.digits e.1.toNat, Decimal.digits e.2.toNat)

theorem isClear_fields (e : VertexId × PatternId) : IsClear (fields e) := by
  intro c hc
  rcases List.mem_append.1 hc with hc | hc
  · exact Rows.isSpecial_of_isPlain ((isNumeral_digits e.1).isField.plain c hc)
  · exact Rows.isSpecial_of_isPlain ((isNumeral_digits e.2).isField.plain c hc)

theorem pair?_line (e : VertexId × PatternId) : pair? (line (fields e)) = some e := by
  have hclear := isClear_fields e
  have hfirst : ',' ∉ (fields e).1 := Rows.notMem_of_isSpecial hclear.left rfl
  have hsecond : ',' ∉ (fields e).2 := Rows.notMem_of_isSpecial hclear.right rfl
  rw [pair?, line, List.splitOn_append_cons_self, List.splitOn_eq_singleton hfirst,
    List.splitOn_eq_singleton hsecond]
  simp [fields, Decimal.readWord?_digits]

/-! ## The pairs of a table -/

variable {t : Candidates} {u : VertexId} {p : PatternId}

theorem pairsOf_liveSets :
    pairsOf t.liveSets = t.liveVertices.flatMap fun u => (t.candidatesOf u).map (u, ·) := by
  rw [pairsOf, Candidates.liveSets, List.flatMap_map]

theorem mem_pairsOf (h : t.WF) : (u, p) ∈ pairsOf t.liveSets ↔ t.contains u p = true := by
  simp only [pairsOf_liveSets, List.mem_flatMap, List.mem_map, Prod.mk.injEq,
    Candidates.mem_liveVertices h, Candidates.mem_candidatesOf h]
  constructor
  · rintro ⟨_, -, _, hp, rfl, rfl⟩
    exact hp
  · exact fun hp => ⟨u, (Candidates.isLive_iff h).2 ⟨p, hp⟩, p, hp, rfl, rfl⟩

/-- The pairs come in lexicographic order, and none of them twice. -/
theorem pairwise_pairsOf (h : t.WF) :
    (pairsOf t.liveSets).Pairwise (Prod.Lex (· < ·) (· < ·)) := by
  rw [pairsOf_liveSets, List.pairwise_flatMap]
  constructor
  · intro u _
    rw [List.pairwise_map]
    refine (Candidates.pairwise_candidatesOf h).imp fun hlt => ?_
    exact Prod.Lex.right u (UInt32.lt_iff_toNat_lt.2 hlt)
  · refine (Candidates.pairwise_liveVertices h).imp fun {u v} hlt => ?_
    intro e he e' he'
    obtain ⟨p, -, rfl⟩ := List.mem_map.1 he
    obtain ⟨q, -, rfl⟩ := List.mem_map.1 he'
    exact Prod.Lex.left p q (UInt32.lt_iff_toNat_lt.2 hlt)

/-- There is a row for every pair that the table counts. -/
theorem matchRows_eq_total : matchRows t = t.total := by
  rw [matchRows, pairsOf_liveSets, List.length_flatMap, Candidates.total_eq_sum]
  refine congrArg List.sum (List.map_congr_left fun u _ => ?_)
  rw [List.length_map, Candidates.count_eq_length]

theorem lines_matchTable : Records.lines (matchTable t).toList =
    "vertex,pattern".toList :: (pairsOf t.liveSets).map (line ∘ fields) ++ [[]] := by
  have hheader : IsClear ("vertex".toList, "pattern".toList) := by simp [IsClear, Rows.isSpecial]
  rw [matchTable, lines_table hheader, List.map_map]
  · rfl
  · intro r hr
    obtain ⟨e, -, rfl⟩ := List.mem_map.1 hr
    exact isClear_fields e

theorem mapM_pair?_lines (es : List (VertexId × PatternId)) :
    (es.map (line ∘ fields)).mapM pair? = some es := by
  induction es with
  | nil => rfl
  | cons e es ih =>
    rw [List.map_cons, List.mapM_cons, ih, Function.comp_apply, pair?_line]
    rfl

/-- **Nothing is lost in the table of matches.** Whatever has been done to a table of candidates, it
is written as a header and a line for each of its pairs. The lines are read back as exactly the
pairs of the relation, in lexicographic order and each once, and the number of rows that is told is
the number of pairs. -/
theorem matchTable_decodes (capacity width : Nat) (calls : List Candidates.Call) :
    let t := (Candidates.callAll Candidates.call (.ofCapacity capacity width) calls).2
    ∃ rows pairs,
      Records.lines (matchTable t).toList = "vertex,pattern".toList :: rows ++ [[]] ∧
      rows.mapM pair? = some pairs ∧
      pairs.Pairwise (Prod.Lex (· < ·) (· < ·)) ∧
      (∀ u p, (u, p) ∈ pairs ↔ t.contains u p = true) ∧
      rows.length = matchRows t ∧ matchRows t = t.total := by
  intro t
  have h : t.WF := (Candidates.WF.ofCapacity capacity width).callAll calls
  refine ⟨_, _, lines_matchTable, mapM_pair?_lines _, pairwise_pairsOf h, fun u p => mem_pairsOf h,
    ?_, matchRows_eq_total⟩
  rw [List.length_map]
  rfl

/-- A vertex that has lost its last candidate, and one that has been given them out of order. -/
example : matchTable (Candidates.callAll Candidates.call (.ofCapacity 12 2)
    [.add 11 1, .add 0 1, .add 11 0, .prune 0 1]).2 = "vertex,pattern\n11,0\n11,1\n" := by
  decide +kernel

end Output

end VertexSweep
