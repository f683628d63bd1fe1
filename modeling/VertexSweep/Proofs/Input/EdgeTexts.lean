import VertexSweep.Input.Readers
import VertexSweep.Proofs.Graph.Admission
import VertexSweep.Proofs.Text.Numerals

/-!
# Edge lists as texts

An edge list can be written with any separator, one edge on a line, and in any layout; further
fields may follow the two endpoints (`EdgeText`). Every such text is read as the edges that are
written (`edgeList_written`).
-/

namespace VertexSweep.Input

open Records (Record Layout Spelled IsField IsPadding separators)

/-- The fields of an edge: its endpoints, and others that do not matter. -/
def EdgeFields (e : VertexId × VertexId) (fields : List (List Char)) : Prop :=
  ∃ source target more, fields = source :: target :: more ∧
    IsNumeral e.1 source ∧ IsNumeral e.2 target

/-- The texts that list the edges. -/
def EdgeText (sep : Char) (edges : List (VertexId × VertexId)) (text : List Char) : Prop :=
  ∃ records, Layout sep records text ∧ List.Forall₂ EdgeFields edges records

variable {file : String} {sep : Char} {text : List Char} {e : VertexId × VertexId}
  {edges : List (VertexId × VertexId)} {r : Record}

theorem number_of_isNumeral {w : UInt32} {what : String} {field : List Char}
    (h : IsNumeral w field) : number file r what field = .ok w := by
  rw [number, h.readWord?_eq]

theorem edge_of_fields (h : EdgeFields e r.fields) : edge file r = .ok e := by
  obtain ⟨source, target, more, hfields, hsource, htarget⟩ := h
  rw [edge, hfields]
  simp only [number_of_isNumeral hsource, number_of_isNumeral htarget]
  rfl

theorem mapM_edge {records : List Record}
    (h : List.Forall₂ EdgeFields edges (records.map (·.fields))) :
    records.mapM (edge file) = .ok edges := by
  induction records generalizing edges with
  | nil =>
    cases h
    rfl
  | cons r records ih =>
    cases h with
    | cons hr hrest =>
      rw [List.mapM_cons, edge_of_fields hr, ih hrest]
      rfl

/-- What a list of edges comes to: nothing is reserved, and the vertices are the ids up to the
greatest endpoint. -/
theorem ofList_eq (edges : List (VertexId × VertexId)) : EdgeList.ofList edges =
    { reserved := 0, vertexCount := EdgeList.idBound edges, edges := edges.toArray } := by
  have hmade : EdgeList.ofList edges =
      EdgeList.made none (edges.map fun e => .push e.1 e.2) := by
    rw [EdgeList.made, List.foldl_map]
    rfl
  have hpushed : EdgeList.pushed (edges.map fun e => .push e.1 e.2) = edges := by
    rw [EdgeList.pushed, List.filterMap_map]
    exact List.filterMap_some
  have hreservation : EdgeList.reservation none (edges.map fun e => .push e.1 e.2) = 0 := by
    have hnone :
        (edges.map fun e => EdgeList.Call.push e.1 e.2).filterMap EdgeList.Call.count? = [] := by
      rw [List.filterMap_map]
      exact List.filterMap_eq_nil_iff.2 fun e _ => rfl
    rw [EdgeList.reservation, hnone]
    rfl
  rw [hmade, EdgeList.made_eq, hpushed, hreservation, Nat.zero_max]

/-- Every list of edges can be written. -/
theorem exists_edgeText (sep : Char) (edges : List (VertexId × VertexId)) :
    ∃ text, EdgeText sep edges text := by
  induction edges with
  | nil => exact ⟨[], [], .last (.blank (by simp)), .nil⟩
  | cons e edges ih =>
    obtain ⟨text, records, hlayout, hfields⟩ := ih
    have hsource := isNumeral_digits e.1
    have htarget := isNumeral_digits e.2
    have hnone : IsPadding [] := fun c hc => absurd hc List.not_mem_nil
    exact ⟨_, _, .line (.record (.more hnone hsource.isField hnone
      (.one hnone htarget.isField hnone))) .newline hlayout,
      .cons ⟨_, _, [], rfl, hsource, htarget⟩ hfields⟩

/-- **Edge lists can be written and read.** There are texts for every list of edges and every
separator, and each of them is read as the list: the edges in their order, the vertices that they
call for, and no more. -/
theorem edgeList_written (file : String) (hsep : sep ∈ separators)
    (edges : List (VertexId × VertexId)) : (∃ text, EdgeText sep edges text) ∧
    ∀ text, EdgeText sep edges text → edgeList file text =
      .ok { reserved := 0, vertexCount := EdgeList.idBound edges, edges := edges.toArray } := by
  refine ⟨exists_edgeText sep edges, ?_⟩
  rintro text ⟨records, hlayout, hfields⟩
  have hread := hlayout.ofText hsep
  rw [← hread] at hfields
  rw [edgeList, mapM_edge hfields, ← ofList_eq]
  rfl

/-- Two edges, written with much else. -/
def commentedEdges : List Char :=
  "# \"from\", to\n \t\r\n 007 , 0,0.5,-1 \r\n\n4294967295,7\n# end".toList

theorem edgeText_commentedEdges : EdgeText ',' [(7, 0), (4294967295, 7)] commentedEdges := by
  have hseven : IsNumeral 7 "007".toList := by decide
  have hzero : IsNumeral 0 "0".toList := by decide
  have hlast : IsNumeral 4294967295 "4294967295".toList := by decide
  have hother : IsNumeral 7 "7".toList := by decide
  have hhalf : IsField "0.5".toList := by decide
  have hminus : IsField "-1".toList := by decide
  have hnone : IsPadding [] := by decide
  have hspace : IsPadding [' '] := by decide
  have hblank : ∀ c ∈ [' ', '\t'], Blank.isBlank c = true ∧ Records.isLineEnd c = false :=
    List.forall_mem_cons.2 ⟨by decide, List.forall_mem_singleton.2 (by decide)⟩
  have hspelled : Spelled ',' ["007".toList, "0".toList, "0.5".toList, "-1".toList]
      " 007 , 0,0.5,-1 ".toList :=
    .more hspace hseven.isField hspace <| .more hspace hzero.isField hnone <|
      .more hnone hhalf hnone <| .one hnone hminus hspace
  have hspelled' : Spelled ',' ["4294967295".toList, "7".toList] "4294967295,7".toList :=
    .more hnone hlast.isField hnone <| .one hnone hother.isField hnone
  refine ⟨[_, _], .line (.comment (l := " \"from\", to".toList) (by decide)) .newline <|
    .line (.blank (l := [' ', '\t']) hblank) .returnNewline <|
    .line (.record hspelled) .returnNewline <|
    .line (.blank (l := []) (List.forall_mem_nil _)) .newline <|
    .line (.record hspelled') .newline <|
    .last (.comment (l := " end".toList) (by decide)), ?_⟩
  exact .cons ⟨_, _, _, rfl, hseven, hzero⟩ (.cons ⟨_, _, _, rfl, hlast, hother⟩ .nil)

theorem edgeList_written_commentedEdges : ',' ∈ separators ∧
    EdgeText ',' [(7, 0), (4294967295, 7)] commentedEdges ∧
    edgeList "input.txt" commentedEdges = .ok
      { reserved := 0, vertexCount := 4294967296, edges := #[(7, 0), (4294967295, 7)] } :=
  ⟨by decide, edgeText_commentedEdges,
    (edgeList_written "input.txt" (by decide) _).2 _ edgeText_commentedEdges⟩

end VertexSweep.Input
