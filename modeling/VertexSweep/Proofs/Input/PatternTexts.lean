import Mathlib.Data.List.Nodup
import Mathlib.Data.List.Perm.Subperm
import VertexSweep.Proofs.Input.EdgeTexts
import VertexSweep.Proofs.Match.Pattern

/-!
# Patterns as texts

A pattern is written as a list of declarations, one of each vertex and one of each edge, in which
only the order of the edges matters (`Declares`). Every text with such declarations is read as what
is built from the edges and the labels, and from every text that is read as a pattern there can be
read such declarations (`pattern_written`).

While declarations are read, what is kept of them is told by the list of those so far (`Collects`).
That the ids are those below their number is checked by looking at each id alone, which is enough
because no id is declared twice (`Collects.perm_range`).
-/

namespace VertexSweep.Input

open Records (Record Layout Spelled IsField IsPadding separators)

/-- What a record of a pattern declares. -/
inductive Declaration where
  | vertex (id : PatternId) (label : Label)
  | edge (source target : PatternId)
deriving DecidableEq, Repr

namespace Declaration

def vertex? : Declaration → Option (PatternId × Label)
  | vertex id label => some (id, label)
  | edge _ _ => none

def edge? : Declaration → Option (PatternId × PatternId)
  | vertex _ _ => none
  | edge source target => some (source, target)

/-- The declaration in the fields of a record; further fields do not matter. -/
def ofFields? : List (List Char) → Option Declaration
  | ['v'] :: id :: label :: _ => do
    return vertex (← Decimal.readWord? id) (← Decimal.readWord? label)
  | ['e'] :: source :: target :: _ => do
    return edge (← Decimal.readWord? source) (← Decimal.readWord? target)
  | _ => none

end Declaration

/-- The vertices that are declared, with their labels. -/
def declaredVertices (ds : List Declaration) : List (PatternId × Label) :=
  ds.filterMap Declaration.vertex?

/-- The ids of the vertices that are declared. -/
def declaredIds (ds : List Declaration) : List PatternId := (declaredVertices ds).map (·.1)

/-- The edges that are declared. -/
def declaredEdges (ds : List Declaration) : List (PatternId × PatternId) :=
  ds.filterMap Declaration.edge?

theorem mem_declaredIds {ds : List Declaration} {p : PatternId} :
    p ∈ declaredIds ds ↔ ∃ l, (p, l) ∈ declaredVertices ds := by
  simp [declaredIds]

theorem declaredIds_append (ds ds' : List Declaration) :
    declaredIds (ds ++ ds') = declaredIds ds ++ declaredIds ds' := by
  simp [declaredIds, declaredVertices]

/-- What has been kept of declarations, none of which was refused. -/
structure Collects (ds : List Declaration) (d : Declared) : Prop where
  edges : d.edges.toList = declaredEdges ds
  nodup : (declaredIds ds).Nodup
  size : d.labels.size = (declaredVertices ds).length
  labels : ∀ p l, d.labels[p]? = some l ↔ (p, l) ∈ declaredVertices ds

variable {file : String} {sep : Char} {text : List Char} {ds ds' : List Declaration}
  {x : Declaration} {d d' : Declared} {r : Record} {p : PatternId}

theorem exists_of_bind {α β : Type} {x : Except Fault α} {f : α → Except Fault β} {b : β}
    (h : (x >>= f) = .ok b) : ∃ a, x = .ok a ∧ f a = .ok b := by
  cases x with
  | error fault => cases h
  | ok a => exact ⟨a, rfl, h⟩

theorem number_eq_ok {what : String} {field : List Char} {w : UInt32}
    (h : number file r what field = .ok w) : Decimal.readWord? field = some w := by
  unfold number at h
  split at h
  · rename_i n hn
    cases h
    exact hn
  · cases h

namespace Collects

theorem empty : Collects [] {} :=
  ⟨rfl, List.nodup_nil, rfl, fun p l => by simp [declaredVertices]⟩

theorem contains_eq (h : Collects ds d) :
    d.labels.contains p = true ↔ p ∈ declaredIds ds := by
  rw [Std.HashMap.contains_iff_mem, Std.HashMap.mem_iff_isSome_getElem?, Option.isSome_iff_exists,
    mem_declaredIds]
  exact exists_congr fun l => h.labels p l

/-- One more edge. -/
theorem push (h : Collects ds d) (s t : PatternId) :
    Collects (ds ++ [.edge s t]) { d with edges := d.edges.push (s, t) } := by
  have hvertices : declaredVertices (ds ++ [.edge s t]) = declaredVertices ds := by
    simp [declaredVertices, Declaration.vertex?]
  have hids : declaredIds (ds ++ [.edge s t]) = declaredIds ds := by
    rw [declaredIds, hvertices]
    rfl
  refine ⟨?_, by rw [hids]; exact h.nodup, by rw [hvertices]; exact h.size, ?_⟩
  · rw [Array.toList_push, h.edges]
    simp [declaredEdges, Declaration.edge?]
  · rw [hvertices]
    exact h.labels

/-- One more vertex. -/
theorem insert (h : Collects ds d) {l : Label} (hnew : d.labels.contains p = false) :
    Collects (ds ++ [.vertex p l]) { d with labels := d.labels.insert p l } := by
  have hvertices : declaredVertices (ds ++ [.vertex p l]) = declaredVertices ds ++ [(p, l)] := by
    simp [declaredVertices, Declaration.vertex?]
  have hnotMem : p ∉ declaredIds ds := fun hmem => by
    simp [h.contains_eq.2 hmem] at hnew
  constructor
  · rw [h.edges]
    simp [declaredEdges, Declaration.edge?]
  · rw [declaredIds_append, List.nodup_append]
    refine ⟨h.nodup, (by simp : [p].Nodup), fun q hq q' hq' heq => hnotMem ?_⟩
    rwa [heq, show q' = p from List.mem_singleton.1 hq'] at hq
  · have hmem : p ∉ d.labels := fun hmem => by
      rw [Std.HashMap.contains_iff_mem.2 hmem] at hnew
      cases hnew
    rw [hvertices, Std.HashMap.size_insert, if_neg hmem, h.size, List.length_append]
    rfl
  · intro q m
    rw [hvertices, Std.HashMap.getElem?_insert, List.mem_append, List.mem_singleton, Prod.mk.injEq]
    by_cases hq : p = q
    · subst hq
      have hold : (p, m) ∉ declaredVertices ds := fun hmem =>
        hnotMem (List.mem_map.2 ⟨_, hmem, rfl⟩)
      simp [hold, eq_comm]
    · simp [hq, Ne.symm hq, h.labels]

/-- Declarations are accepted, unless a vertex is declared again. -/
theorem exists_declare (file : String) (h : Collects ds d)
    (hx : Declaration.ofFields? r.fields = some x)
    (hnew : ∀ v ∈ x.vertex?, v.1 ∉ declaredIds ds) :
    ∃ d', declare file d r = .ok d' ∧ Collects (ds ++ [x]) d' := by
  unfold Declaration.ofFields? at hx
  split at hx
  · rename_i id label more hfields
    simp only [Option.bind_eq_bind, Option.bind_eq_some_iff, Option.pure_def,
      Option.some.injEq] at hx
    obtain ⟨p, hp, l, hl, rfl⟩ := hx
    have hcontains : d.labels.contains p = false := by
      rw [← Bool.not_eq_true, h.contains_eq]
      exact hnew (p, l) rfl
    refine ⟨_, ?_, h.insert (l := l) hcontains⟩
    simp only [declare, hfields, number, hp, hl, bind, Except.bind, hcontains]
    rfl
  · rename_i source target more hfields
    simp only [Option.bind_eq_bind, Option.bind_eq_some_iff, Option.pure_def,
      Option.some.injEq] at hx
    obtain ⟨s, hs, t, ht, rfl⟩ := hx
    refine ⟨_, ?_, h.push s t⟩
    simp only [declare, hfields, number, hs, ht, bind, Except.bind]
    rfl
  · cases hx

/-- Only declarations are accepted. -/
theorem of_declare (h : Collects ds d) (hd : declare file d r = .ok d') :
    ∃ x, Declaration.ofFields? r.fields = some x ∧ Collects (ds ++ [x]) d' := by
  unfold declare at hd
  split at hd
  · rename_i id label more hfields
    obtain ⟨p, hp, hd⟩ := exists_of_bind hd
    obtain ⟨l, hl, hd⟩ := exists_of_bind hd
    split at hd
    · cases hd
    · rename_i hcontains
      cases hd
      refine ⟨.vertex p l, ?_, h.insert (Bool.not_eq_true _ ▸ hcontains)⟩
      simp [hfields, Declaration.ofFields?, number_eq_ok hp, number_eq_ok hl]
  · rename_i source target more hfields
    obtain ⟨s, hs, hd⟩ := exists_of_bind hd
    obtain ⟨t, ht, hd⟩ := exists_of_bind hd
    cases hd
    refine ⟨.edge s t, ?_, h.push s t⟩
    simp [hfields, Declaration.ofFields?, number_eq_ok hs, number_eq_ok ht]
  · cases hd

/-! ## All records -/

/-- Declarations are accepted if they declare no vertex twice. -/
theorem exists_foldlM (file : String) {records : List Record} (h : Collects ds d)
    (hrecords : records.map (fun r => Declaration.ofFields? r.fields) = ds'.map some)
    (hnodup : (declaredIds (ds ++ ds')).Nodup) :
    ∃ d', records.foldlM (declare file) d = .ok d' ∧ Collects (ds ++ ds') d' := by
  induction records generalizing ds d ds' with
  | nil =>
    have hds' : ds' = [] := List.map_eq_nil_iff.1 hrecords.symm
    subst hds'
    exact ⟨d, rfl, by rwa [List.append_nil]⟩
  | cons r records ih =>
    cases ds' with
    | nil => cases hrecords
    | cons x ds' =>
      obtain ⟨hx, hrest⟩ := List.cons.inj hrecords
      have hnew : ∀ v ∈ x.vertex?, v.1 ∉ declaredIds ds := by
        intro v hv hmem
        have hv' : v.1 ∈ declaredIds (x :: ds') :=
          mem_declaredIds.2 ⟨v.2, List.mem_filterMap.2 ⟨x, List.mem_cons_self, hv⟩⟩
        rw [declaredIds_append, List.nodup_append] at hnodup
        exact hnodup.2.2 _ hmem _ hv' rfl
      obtain ⟨d₁, hd₁, h₁⟩ := h.exists_declare file hx hnew
      rw [List.append_cons] at hnodup
      obtain ⟨d', hd', h'⟩ := ih h₁ hrest hnodup
      refine ⟨d', ?_, by rwa [List.append_cons]⟩
      rw [List.foldlM_cons, hd₁]
      exact hd'

/-- If all records are accepted, they are declarations. -/
theorem of_foldlM {records : List Record} (h : Collects ds d)
    (hd : records.foldlM (declare file) d = .ok d') :
    ∃ ds', records.map (fun r => Declaration.ofFields? r.fields) = ds'.map some ∧
      Collects (ds ++ ds') d' := by
  induction records generalizing ds d with
  | nil =>
    cases hd
    exact ⟨[], rfl, by rwa [List.append_nil]⟩
  | cons r records ih =>
    rw [List.foldlM_cons] at hd
    obtain ⟨d₁, hd₁, hd⟩ := exists_of_bind hd
    obtain ⟨x, hx, h₁⟩ := h.of_declare hd₁
    obtain ⟨ds', hds', h'⟩ := ih h₁ hd
    exact ⟨x :: ds', by rw [List.map_cons, hx, hds', List.map_cons], by rwa [List.append_cons]⟩

/-! ## The ids -/

theorem gap?_eq_none_iff (h : Collects ds d) (n : Nat) :
    d.gap? n = none ↔ ∀ p ∈ declaredIds ds, p.toNat < n := by
  have hkeys : d.gap? n = none ↔ ∀ p ∈ d.labels, p.toNat < n := by
    simp [Declared.gap?, List.filter_eq_nil_iff, List.min?_eq_none_iff]
  simp only [hkeys, ← Std.HashMap.contains_iff_mem, h.contains_eq]

/-- Ids that differ and lie below their number are the ids below it. -/
theorem perm_range (h : Collects ds d)
    (hdense : ∀ p ∈ declaredIds ds, p.toNat < d.labels.size) :
    ((declaredIds ds).map (·.toNat)).Perm (List.range d.labels.size) := by
  have hnodup : ((declaredIds ds).map (·.toNat)).Nodup :=
    List.Nodup.map (fun p q heq => UInt32.toNat_inj.1 heq) h.nodup
  apply (hnodup.subperm fun i hi => ?_).perm_of_length_le
  · rw [List.length_range, List.length_map, declaredIds, List.length_map, h.size]
  · obtain ⟨p, hp, rfl⟩ := List.mem_map.1 hi
    exact List.mem_range.2 (hdense p hp)

theorem getD_eq (h : Collects ds d) {v : PatternId × Label} (hv : v ∈ declaredVertices ds) :
    d.labels.getD (UInt32.ofNat v.1.toNat) 0 = v.2 := by
  rw [UInt32.ofNat_toNat, Std.HashMap.getD_eq_getD_getElem?, (h.labels v.1 v.2).2 hv]
  rfl

end Collects

/-- Declarations of a pattern with `n` vertices: one of each vertex, and the edges in order. -/
structure Declares (ds : List Declaration) (n : Nat) (edges : Array (PatternId × PatternId))
    (labels : Array Label) : Prop where
  size : labels.size = n
  vertices : ((declaredVertices ds).map fun v => (v.2, v.1.toNat)).Perm labels.toList.zipIdx
  edges : declaredEdges ds = edges.toList

variable {n : Nat} {edges : Array (PatternId × PatternId)} {labels : Array Label} {t : Pattern}

namespace Declares

theorem perm_range (h : Declares ds n edges labels) :
    ((declaredIds ds).map (·.toNat)).Perm (List.range n) := by
  have hperm := h.vertices.map Prod.snd
  rw [List.zipIdx_map_snd, Array.length_toList, h.size, ← List.range_eq_range'] at hperm
  simpa [declaredIds, Function.comp_def] using hperm

theorem nodup (h : Declares ds n edges labels) : (declaredIds ds).Nodup :=
  (h.perm_range.nodup_iff.2 List.nodup_range).of_map

theorem size_labels (h : Declares ds n edges labels) (hd : Collects ds d) : d.labels.size = n := by
  have hlength := h.perm_range.length_eq
  rwa [List.length_map, declaredIds, List.length_map, List.length_range, ← hd.size] at hlength

/-- The pattern that is made of what was kept of the declarations. -/
theorem pattern_eq (h : Declares ds n edges labels) (hd : Collects ds d) :
    d.pattern = Pattern.build n edges labels := by
  have hgap : d.gap? n = none := (hd.gap?_eq_none_iff n).2 fun p hp =>
    List.mem_range.1 (h.perm_range.mem_iff.1 (List.mem_map.2 ⟨p, hp, rfl⟩))
  have hlabels : ((Pattern.idsBelow n).map fun p => d.labels.getD p 0) = labels.toList := by
    apply List.ext_getElem
    · simp [Pattern.idsBelow, h.size]
    · intro i hi hi'
      have hmem : (labels.toList[i], i) ∈ labels.toList.zipIdx := by
        simp [List.mk_mem_zipIdx_iff_getElem?]
      obtain ⟨v, hv, heq⟩ := List.mem_map.1 (h.vertices.mem_iff.2 hmem)
      have hlabel := hd.getD_eq hv
      rw [(Prod.mk.inj heq).1, (Prod.mk.inj heq).2] at hlabel
      simpa [Pattern.idsBelow] using hlabel
  have hedges : d.edges = edges := Array.toList_inj.1 (hd.edges.trans h.edges)
  simp only [Declared.pattern, h.size_labels hd, hgap, hlabels, hedges]

end Declares

/-- What was kept of declarations that are accepted as a pattern. -/
theorem Collects.declares (hd : Collects ds d) (h : d.pattern = .ok t) :
    ∃ labels, Declares ds t.vertexCount d.edges labels ∧
      Pattern.build t.vertexCount d.edges labels = .ok t := by
  cases hgap : d.gap? d.labels.size with
  | some id =>
    simp only [Declared.pattern, hgap] at h
    cases h
  | none =>
    simp only [Declared.pattern, hgap] at h
    rw [Pattern.vertexCount_build h]
    let labelled : Nat → Label × Nat := fun i => (d.labels.getD (UInt32.ofNat i) 0, i)
    have hvertices : (declaredVertices ds).map (fun v => (v.2, v.1.toNat)) =
        ((declaredIds ds).map (·.toNat)).map labelled := by
      rw [declaredIds, List.map_map, List.map_map]
      refine List.map_congr_left fun v hv => ?_
      simp only [Function.comp_apply, labelled, hd.getD_eq hv]
    have hlabels : (((Pattern.idsBelow d.labels.size).map fun p => d.labels.getD p 0).zipIdx) =
        (List.range d.labels.size).map labelled := by
      apply List.ext_getElem <;> simp [Pattern.idsBelow, labelled]
    refine ⟨_, ⟨by simp [Pattern.idsBelow], ?_, hd.edges.symm⟩, h⟩
    rw [List.toList_toArray, hlabels, hvertices]
    exact (hd.perm_range ((hd.gap?_eq_none_iff _).1 hgap)).map labelled

/-! ## Texts -/

/-- The fields of a declaration, and others that do not matter. -/
inductive DeclarationFields : Declaration → List (List Char) → Prop
  | vertex {id : PatternId} {label : Label} {first second : List Char} {more : List (List Char)}
      (hid : IsNumeral id first) (hlabel : IsNumeral label second) :
      DeclarationFields (.vertex id label) (['v'] :: first :: second :: more)
  | edge {source target : PatternId} {first second : List Char} {more : List (List Char)}
      (hsource : IsNumeral source first) (htarget : IsNumeral target second) :
      DeclarationFields (.edge source target) (['e'] :: first :: second :: more)

/-- The texts with the declarations. -/
def PatternText (sep : Char) (ds : List Declaration) (text : List Char) : Prop :=
  ∃ records, Layout sep records text ∧ List.Forall₂ DeclarationFields ds records

/-- The declarations in the records of a text, in their order; there are none in a record that
declares nothing. -/
def declarationsOf (text : List Char) : List (Option Declaration) :=
  (Records.ofText text).map fun r => Declaration.ofFields? r.fields

theorem ofFields?_of_fields {fields : List (List Char)} (h : DeclarationFields x fields) :
    Declaration.ofFields? fields = some x := by
  cases h with
  | vertex hid hlabel => simp [Declaration.ofFields?, hid.readWord?_eq, hlabel.readWord?_eq]
  | edge hsource htarget =>
    simp [Declaration.ofFields?, hsource.readWord?_eq, htarget.readWord?_eq]

theorem declarationsOf_eq (hsep : sep ∈ separators) (h : PatternText sep ds text) :
    declarationsOf text = ds.map some := by
  obtain ⟨records, hlayout, hfields⟩ := h
  have hread : declarationsOf text = records.map Declaration.ofFields? := by
    rw [declarationsOf, ← hlayout.ofText hsep, List.map_map]
    rfl
  rw [hread]
  clear hlayout hread
  induction hfields with
  | nil => rfl
  | cons h _ ih => rw [List.map_cons, ofFields?_of_fields h, ih, List.map_cons]

/-- A text is read as a pattern if its records are declarations of one. -/
theorem pattern_of_declares (file : String) (htext : declarationsOf text = ds.map some)
    (h : Declares ds n edges labels) : pattern file text = Pattern.build n edges labels := by
  obtain ⟨d, hread, hd⟩ := Collects.empty.exists_foldlM file htext h.nodup
  rw [pattern, hread]
  exact h.pattern_eq hd

/-- A text that is read as a pattern has declarations of one as its records. -/
theorem exists_declares (h : pattern file text = .ok t) :
    ∃ ds edges labels, declarationsOf text = ds.map some ∧ Declares ds t.vertexCount edges labels ∧
      Pattern.build t.vertexCount edges labels = .ok t := by
  obtain ⟨d, hread, ht⟩ := exists_of_bind h
  obtain ⟨ds, hds, hd⟩ := Collects.empty.of_foldlM hread
  obtain ⟨labels, hdeclares, hbuild⟩ := Collects.declares hd ht
  exact ⟨ds, d.edges, labels, hds, hdeclares, hbuild⟩

/-- **Patterns can be written and read.** A text with declarations of a pattern, in whatever order
and layout, is read as what is built from the edges and the labels, which is a pattern if the edges
are between its vertices. And if a text is read as a pattern, then its records are declarations:
one for each of the ids below the number of its vertices, and edges between these. -/
theorem pattern_written (file : String) :
    (∀ sep ∈ separators, ∀ ds text n edges labels, PatternText sep ds text →
      Declares ds n edges labels →
      pattern file text = Pattern.build n edges labels ∧
        (n ≤ maxWord → (∀ e ∈ edges, e.1.toNat < n ∧ e.2.toNat < n) →
          ∃ t, pattern file text = .ok t)) ∧
    ∀ text t, pattern file text = .ok t →
      ∃ ds edges labels, declarationsOf text = ds.map some ∧
        Declares ds t.vertexCount edges labels ∧
        ((declaredIds ds).map (·.toNat)).Perm (List.range t.vertexCount) ∧
        ∀ e ∈ declaredEdges ds, e.1.toNat < t.vertexCount ∧ e.2.toNat < t.vertexCount := by
  constructor
  · intro sep hsep ds text n edges labels htext h
    have hread := pattern_of_declares file (declarationsOf_eq hsep htext) h
    refine ⟨hread, fun hn hends => ?_⟩
    rw [hread]
    exact Pattern.exists_build_iff.2 ⟨h.size, hn, hends⟩
  · intro text t h
    obtain ⟨ds, edges, labels, htext, hdeclares, hbuild⟩ := exists_declares h
    refine ⟨ds, edges, labels, htext, hdeclares, hdeclares.perm_range, fun e he => ?_⟩
    rw [hdeclares.edges, Array.mem_toList_iff] at he
    exact (Pattern.build_eq_ok hbuild).2.2.1 e he

/-- Two vertices that point at each other: one edge is declared before the vertices, and they are
not in order. -/
def mixedDeclarations : List Declaration :=
  [.edge 1 0, .vertex 1 20, .vertex 0 10, .edge 0 1]

def mixedPattern : List Char := "e 1 0\nv  1 20\n# the first\n\nv 0 10\ne 0 1".toList

theorem patternText_mixedPattern : PatternText ' ' mixedDeclarations mixedPattern := by
  have hzero : IsNumeral 0 "0".toList := by decide
  have hone : IsNumeral 1 "1".toList := by decide
  have hten : IsNumeral 10 "10".toList := by decide
  have htwenty : IsNumeral 20 "20".toList := by decide
  have hspelled : ∀ {kind first second front : List Char}, IsField kind → IsPadding front →
      IsField first → IsField second →
      Spelled ' ' [kind, first, second] (kind ++ ' ' :: (front ++ first ++ ' ' :: second)) := by
    intro kind first second front hkind hfront hfirst hsecond
    have hnone : IsPadding [] := fun c hc => absurd hc List.not_mem_nil
    have hspelled : Spelled ' ' [kind, first, second] _ :=
      .more hnone hkind hnone (.more hfront hfirst hnone (.one hnone hsecond hnone))
    simpa using hspelled
  have hv : IsField ['v'] := by decide
  have he : IsField ['e'] := by decide
  have hnone : IsPadding [] := by decide
  have hspace : IsPadding [' '] := by decide
  refine ⟨[_, _, _, _],
    .line (.record (hspelled he hnone hone.isField hzero.isField)) .newline <|
    .line (.record (hspelled hv hspace hone.isField htwenty.isField))
      .newline <|
    .line (.comment (l := " the first".toList) (by decide)) .newline <|
    .line (.blank (l := []) (List.forall_mem_nil _)) .newline <|
    .line (.record (hspelled hv hnone hzero.isField hten.isField)) .newline <|
    .last (.record (hspelled he hnone hzero.isField hone.isField)), ?_⟩
  exact .cons (.edge hone hzero) (.cons (.vertex hone htwenty)
    (.cons (.vertex hzero hten) (.cons (.edge hzero hone) .nil)))

theorem declares_mixedDeclarations :
    Declares mixedDeclarations 2 #[(1, 0), (0, 1)] #[10, 20] :=
  ⟨rfl, by decide, rfl⟩

theorem pattern_written_mixedPattern : ' ' ∈ separators ∧
    PatternText ' ' mixedDeclarations mixedPattern ∧
    Declares mixedDeclarations 2 #[(1, 0), (0, 1)] #[10, 20] ∧
    ∃ t, pattern "input.txt" mixedPattern = .ok t ∧
      Pattern.build 2 #[(1, 0), (0, 1)] #[10, 20] = .ok t ∧
      ∃ ds edges labels, declarationsOf mixedPattern = ds.map some ∧
        Declares ds t.vertexCount edges labels ∧
        ((declaredIds ds).map (·.toNat)).Perm (List.range t.vertexCount) ∧
        ∀ e ∈ declaredEdges ds, e.1.toNat < t.vertexCount ∧ e.2.toNat < t.vertexCount := by
  obtain ⟨hread, hok⟩ := (pattern_written "input.txt").1 ' ' (by decide) _ _ _ _ _
    patternText_mixedPattern declares_mixedDeclarations
  obtain ⟨t, ht⟩ := hok (by decide) (by simp)
  exact ⟨by decide, patternText_mixedPattern, declares_mixedDeclarations, t, ht, hread ▸ ht,
    (pattern_written "input.txt").2 _ _ ht⟩

end VertexSweep.Input
