import SyntaxExport.Proofs.Arity
import SyntaxExport.Proofs.Identity.Word
import SyntaxExport.Proofs.Pass.Visits
import SyntaxExport.Proofs.Recording

/-!
# Nodes in the order of a walk

A document with raw identities has the nodes that a walk of its translation unit visits, in the same
order, less those inside children that the filter drops and those of payloads that no level reads
(`Session.nodes_visited`). The nodes are read off the document alone: the pointers of its tuples,
without those that stand for an absent node.
-/

namespace SyntaxExport

/-! ### Pointers of nodes -/

/-- The pointers that begin the tuples of nodes, in document order. -/
def Value.nodes (v : Value) : List String :=
  (v.outline none).flatMap fun
    | .node (.string pointer) => [pointer]
    | _ => []

/-- The raw pointer of a node. -/
def NodeRef.pointer (n : NodeRef) : String :=
  n.identity.text

/-- The raw pointers that stand for an absent node. -/
def placeholders : List String :=
  [NodeRef.null, .sentinel .decl, .sentinel .stmt, .sentinel .type, .sentinel .comment].map
    NodeRef.pointer

namespace NodeRef

theorem pointer_injective {n m : NodeRef} (h : n.pointer = m.pointer) : n = m :=
  identity_injective (NodeIdentity.text_injective h)

theorem pointer_mem_placeholders (n : NodeRef) :
    n.pointer ∈ placeholders ↔ n.isPlaceholder = true := by
  constructor
  · intro h
    obtain ⟨m, hm, hpointer⟩ := List.mem_map.mp h
    rw [← pointer_injective hpointer]
    simp only [List.mem_cons, List.not_mem_nil, or_false] at hm
    rcases hm with rfl | rfl | rfl | rfl | rfl <;> rfl
  · intro h
    refine List.mem_map_of_mem ?_
    cases n with
    | sentinel family => cases family <;> simp
    | null => simp
    | decl | stmt | type | comment | attr | temporary => cases h

theorem decide_notMem_placeholders (n : NodeRef) :
    decide (n.pointer ∉ placeholders) = !n.isPlaceholder := by
  cases h : n.isPlaceholder with
  | true => exact decide_eq_false (not_not_intro ((pointer_mem_placeholders n).mpr h))
  | false =>
    refine decide_eq_true fun hn => ?_
    rw [(pointer_mem_placeholders n).mp hn] at h
    cases h

/-- The pointers that stand for no absent node. -/
theorem filter_pointers (ns : List NodeRef) :
    ((ns.map pointer).filter fun p => p ∉ placeholders)
      = (ns.filter fun n => !n.isPlaceholder).map pointer := by
  induction ns with
  | nil => rfl
  | cons n ns ih =>
    rw [List.map_cons, List.filter_cons, List.filter_cons, decide_notMem_placeholders, ih]
    by_cases h : (!n.isPlaceholder) = true
    · rw [if_pos h, if_pos h, List.map_cons]
    · rw [if_neg h, if_neg h]

end NodeRef

/-- The nodes of a document are those of its tree. -/
theorem nodes_of_filled {ctx : Context} {paths : PathRule} {text : NodeRef → String}
    {ms : List (Mark Item)} {ns : List (Mark Scalar)} {c c' : LocationCursor}
    (h : Filled ctx paths text ms c ns c') : (ns.flatMap fun
      | .node (.string pointer) => [pointer]
      | _ => []) = (ms.flatMap Mark.nodes).map text := by
  induction h with
  | nil => rfl
  | node n _ ih => exact congrArg (text n :: ·) ih
  | head n _ ih => exact ih
  | locations n field _ _ ih => exact ih

namespace Session

/-- What a document with raw identities has for the nodes of its translation unit. -/
theorem nodes_of_write {ctx : Context} {root : DeclId} {opts : Options} {s s' : Session}
    {r : Recorder} (hraw : opts.identityMode = .raw)
    (h : s.write ctx root opts ({} : Recorder) = (.ok (), s', r)) :
    ∃ v : Value, r.document? = some v
      ∧ (v.nodes.filter fun p => p ∉ placeholders)
        = (written ctx opts ctx.nestingBound (Visit.decl root).marks).map NodeRef.pointer
      ∧ (Visit.decl root).Fills ctx opts ctx.nestingBound := by
  obtain ⟨v, hv, hfill, hfilled⟩ := filled_of_write h
  have htext : s'.identities.text opts.identityMode = NodeRef.pointer := by
    funext n
    rw [IdentityTable.text, hraw]
    rfl
  have hnodes : v.nodes = ((Site.outline ctx opts ctx.nestingBound (.decl (some root))).flatMap
      Mark.nodes).map NodeRef.pointer := by
    rw [← htext]
    exact nodes_of_filled hfilled
  have hmarks : (Visit.decl root).marks.flatMap (Mark.expand (Site.tree ctx opts ctx.nestingBound))
      = Site.outline ctx opts ctx.nestingBound (.decl (some root)) := List.append_nil _
  refine ⟨v, hv, ?_, ?_⟩
  · rw [hnodes, NodeRef.filter_pointers, written, hmarks]
  · intro site hsite
    cases List.mem_singleton.mp hsite
    exact ⟨_, _, v, hfill⟩

/-- The nodes of a document are visited by the walk of its translation unit, in the same order. They
are all the nodes that the walk visits, if the filter keeps every child of the visited declarations
and every payload with definitions is read. -/
theorem nodes_visited {ctx : Context} {root : DeclId} {opts : Options} {s s' : Session} {r : Recorder}
    (hacyclic : ctx.Acyclic (.decl root)) (hraw : opts.identityMode = .raw)
    (h : s.write ctx root opts ({} : Recorder) = (.ok (), s', r))
    (hinside : ∀ v, ctx.walk root ≠ .error (.missing v)) :
    ∃ (v : Value) (visits : List Visit), r.document? = some v ∧ ctx.walk root = .ok visits ∧
      (v.nodes.filter fun p => p ∉ placeholders).Sublist (visits.map fun u => u.node.pointer) ∧
      ((∀ u ∈ visits, ctx.KeepsChildren opts u) → (∀ u ∈ visits, ctx.ReadsPayload opts u) →
        (v.nodes.filter fun p => p ∉ placeholders) = visits.map fun u => u.node.pointer) := by
  obtain ⟨v, hv, hnodes, hfills⟩ := nodes_of_write hraw h
  obtain ⟨visits, hvisits⟩ : ∃ visits, ctx.walk root = .ok visits := by
    cases hwalk : ctx.walk root with
    | ok visits => exact ⟨visits, rfl⟩
    | error e =>
      cases e with
      | missing u => exact absurd hwalk (hinside u)
      | cyclic => exact absurd hwalk (Context.walk_ne_cyclic hacyclic)
  have hwalked := Context.walked_of_walk hvisits
  have hroot : ([Visit.decl root].flatMap fun u => written ctx opts ctx.nestingBound u.marks)
      = written ctx opts ctx.nestingBound (Visit.decl root).marks := List.append_nil _
  refine ⟨v, visits, hv, hvisits, ?_, fun hkeeps hreads => ?_⟩
  · have hsublist : ([Visit.decl root].flatMap fun u =>
        written ctx opts ctx.nestingBound u.marks).Sublist (visits.map Visit.node) :=
      written_sublist hwalked ctx.nestingBound
    rw [hroot] at hsublist
    have hpointers := hsublist.map NodeRef.pointer
    rw [List.map_map] at hpointers
    rw [hnodes]
    exact hpointers
  · have heq := written_eq hwalked hkeeps hreads fun u hu => List.mem_singleton.mp hu ▸ hfills
    rw [hroot] at heq
    rw [hnodes, heq, List.map_map]
    rfl

/-- What a walk of `functionUnit` visits. -/
def functionVisits : List Visit :=
  [.decl ⟨0⟩, .decl ⟨1⟩, .comment ⟨0⟩, .decl ⟨2⟩, .stmt ⟨0⟩, .stmt ⟨1⟩, .decl ⟨3⟩, .stmt ⟨2⟩, .type ⟨0⟩]

theorem walk_functionUnit : functionUnit.walk ⟨0⟩ = .ok functionVisits := rfl

theorem exists_write_functionUnit : ∃ s' r, ({} : Session).write functionUnit ⟨0⟩
    { identityMode := .raw } ({} : Recorder) = (.ok (), s', r) := by
  have hok : (({} : Session).write functionUnit ⟨0⟩ { identityMode := .raw }
      ({} : Recorder)).1.isOk = true := by
    decide +kernel
  obtain ⟨⟨s', r⟩, h⟩ := exists_of_isOk hok
  exact ⟨s', r, h⟩

theorem keepsChildren_functionUnit (v : Visit) :
    functionUnit.KeepsChildren { identityMode := .raw } v := by
  cases v with
  | decl id => exact fun _ _ _ _ _ _ _ => rfl
  | stmt | type | comment => trivial

theorem readsPayload_functionUnit :
    ∀ v ∈ functionVisits, functionUnit.ReadsPayload { identityMode := .raw } v := by
  intro v hv
  simp only [functionVisits, List.mem_cons, List.not_mem_nil, or_false] at hv
  rcases hv with rfl | rfl | rfl | rfl | rfl | rfl | rfl | rfl | rfl
  · rintro d ⟨⟩ hp
    exact absurd rfl hp
  · rintro d ⟨⟩ -
    exact ⟨.function, by decide, .null, fun h => by cases h⟩
  · trivial
  · rintro d ⟨⟩ hp
    exact absurd rfl hp
  · rintro s ⟨⟩ hp
    exact absurd rfl hp
  · rintro s ⟨⟩ -
    exact ⟨.declStmt, by decide, .null, fun h => by cases h⟩
  · rintro d ⟨⟩ -
    exact ⟨.var, by decide, .null, fun h => by cases h⟩
  · rintro s ⟨⟩ hp
    exact absurd rfl hp
  · trivial

theorem nodes_visited_functionUnit : ∃ (s' : Session) (r : Recorder) (v : Value),
    ({} : Session).write functionUnit ⟨0⟩ { identityMode := .raw } ({} : Recorder) = (.ok (), s', r) ∧
    functionUnit.Acyclic (.decl ⟨0⟩) ∧ (∀ v, functionUnit.walk ⟨0⟩ ≠ .error (.missing v)) ∧
    r.document? = some v ∧
    (v.nodes.filter fun p => p ∉ placeholders) = functionVisits.map fun u => u.node.pointer := by
  obtain ⟨s', r, h⟩ := exists_write_functionUnit
  have hacyclic := Context.acyclic_of_walk walk_functionUnit
  have hinside : ∀ v, functionUnit.walk ⟨0⟩ ≠ .error (.missing v) := by
    intro v hv
    rw [walk_functionUnit] at hv
    cases hv
  obtain ⟨v, visits, hv, hvisits, -, hall⟩ := nodes_visited hacyclic rfl h hinside
  rw [walk_functionUnit] at hvisits
  cases hvisits
  exact ⟨s', r, v, h, hacyclic, hinside, hv,
    hall (fun u _ => keepsChildren_functionUnit u) readsPayload_functionUnit⟩

end Session

end SyntaxExport
