import Mathlib.Algebra.BigOperators.Group.List.Basic
import Mathlib.Algebra.Ring.Nat
import Mathlib.Data.List.MinMax
import SyntaxExport.Proofs.Walk

/-!
# The volume of a walk

The entries of a node are those of the lists of its own record, whatever the kind of the node reads of
them. The volume of a walk counts one for every visited node, and its entries: a node counts as often
as it is visited, and all the types of the context count with every visited translation unit.

`Context.occurrences` gives the visits of a walk without its errors, so that there is a volume in any
case. A walk that succeeds visits just these (`Context.occurrences_of_walk`).
-/

namespace SyntaxExport

/-! ### Entries -/

namespace DeclPayload

/-- The number of entries in the lists of a payload. -/
def entries : DeclPayload → Nat
  | .record info => info.bases.length + info.virtualBases.length
  | .indirectField chain => chain.length
  | .function info =>
    info.prototypeDecls.length + info.params.length + info.ctorInitializers.length
  | .usingDirective info => info.qualifier.length
  | .namespaceAlias info => info.qualifier.length
  | .objCMethod info => info.params.length
  | .objCCategory info => info.protocols.length
  | .objCProtocol protocols => protocols.length
  | .objCInterface info => info.protocols.length
  | .objCImplementation info => info.ivarInitializers.length
  | .objCProperty info => info.attributes.length
  | .block info => info.params.length + info.captures.length
  | _ => 0

end DeclPayload

namespace TypePayload

/-- The number of entries in the lists of a payload. -/
def entries : TypePayload → Nat
  | .function _ params => (params.getD []).length
  | .objCObject _ protocols => protocols.length
  | .objCInterface _ protocols _ => protocols.length
  | _ => 0

end TypePayload

namespace CommentPayload

/-- The number of entries in the lists of a payload. -/
def entries : CommentPayload → Nat
  | .inlineCommand _ _ args => args.length
  | .htmlStartTag _ attributes _ => attributes.length
  | .blockCommand c => c.args.length
  | .paramCommand c .. => c.args.length
  | .tParamCommand c _ position => c.args.length + position.length
  | .verbatimBlock c _ => c.args.length
  | .verbatimLine c _ => c.args.length
  | _ => 0

end CommentPayload

namespace Context

variable (ctx : Context)

/-- The number of parameters of an attribute. -/
def parameterCount (id : AttrId) : Nat :=
  (ctx.attr? id).elim 0 (·.parameters.length)

/-- The number of attributes and of their parameters. -/
def attrEntries (attrs : List AttrId) : Nat :=
  (attrs.map fun id => 1 + ctx.parameterCount id).sum

/-- The number of entries in the lists of the payload of a statement. -/
def payloadEntries : StmtPayload → Nat
  | .decls ds => ds.length
  | .attributes attrs => ctx.attrEntries attrs
  | .cast info => info.basePath.length
  | .overload info => info.decls.length
  | .cleanups objects _ => objects.length
  | _ => 0

/-- The number of entries in the lists of a declaration. -/
def declEntries (d : Decl) : Nat :=
  (d.context.getD {}).decls.length + ctx.attrEntries d.attrs + d.payload.entries

/-- The number of entries in the lists of a statement. -/
def stmtEntries (s : Stmt) : Nat :=
  s.children.length + ctx.payloadEntries s.payload

/-- One for every type of the context, and its entries. -/
def typeVolume : Nat :=
  (ctx.types.toList.map fun t => 1 + t.payload.entries).sum

/-- What a declaration adds to the volume. A translation unit has the types of its context. -/
def declShare (d : Decl) : Nat :=
  1 + ctx.declEntries d + if d.kind = .translationUnit then ctx.typeVolume else 0

/-- What a visit adds to the volume: one for the node, and its entries. The types are added with their
translation unit, so they add nothing at their own visits. -/
def share : Visit → Nat
  | .decl id => (ctx.decl? id).elim 0 ctx.declShare
  | .stmt id => (ctx.stmt? id).elim 0 fun s => 1 + ctx.stmtEntries s
  | .comment id => (ctx.comment? id).elim 0 fun c => 1 + c.children.length + c.payload.entries
  | .type _ => 0

/-! ### Occurrences -/

/-- A node and what is defined inside it, in the order of a walk. What is outside its arena and what
is too deep is left out. -/
def occurrences : Nat → Visit → List Visit
  | 0, _ => []
  | fuel + 1, v =>
    match ctx.inside? v with
    | none => []
    | some inner => v :: inner.flatMap (occurrences fuel)

variable {ctx}

theorem occurrences_succ {v : Visit} {inner : List Visit} (h : ctx.inside? v = some inner)
    (fuel : Nat) : ctx.occurrences (fuel + 1) v = v :: inner.flatMap (ctx.occurrences fuel) := by
  rw [occurrences, h]

theorem occurrences_of_foldlM {fuel : Nat} (hvisit : ∀ {v : Visit} {seen seen' : List Visit},
      ctx.visitFrom true fuel seen v = .ok seen' →
      seen' = (ctx.occurrences fuel v).reverse ++ seen) :
    ∀ {vs seen seen' : List Visit}, vs.foldlM (ctx.visitFrom true fuel) seen = .ok seen' →
      seen' = (vs.flatMap (ctx.occurrences fuel)).reverse ++ seen
  | [], _, _, h => by
    cases h
    rfl
  | v :: vs, seen, seen', h => by
    rw [List.foldlM_cons] at h
    cases hv : ctx.visitFrom true fuel seen v with
    | error e =>
      rw [hv] at h
      cases h
    | ok seen₁ =>
      rw [hv] at h
      rw [occurrences_of_foldlM hvisit h, hvisit hv, List.flatMap_cons, List.reverse_append,
        List.append_assoc]

theorem occurrences_of_visitFrom : ∀ {fuel : Nat} {v : Visit} {seen seen' : List Visit},
    ctx.visitFrom true fuel seen v = .ok seen' →
    seen' = (ctx.occurrences fuel v).reverse ++ seen
  | 0, _, _, _, h => by cases h
  | fuel + 1, v, seen, seen', h => by
    rw [visitFrom_succ] at h
    split at h
    · cases h
    · next inner hinner =>
      rw [occurrences_of_foldlM occurrences_of_visitFrom h, occurrences_succ hinner,
        List.reverse_cons, List.append_assoc, List.singleton_append]

/-- A walk that succeeds visits every occurrence. -/
theorem occurrences_of_walk {root : DeclId} {visits : List Visit} (h : ctx.walk root = .ok visits) :
    ctx.occurrences ctx.nestingBound (.decl root) = visits := by
  cases hvisit : ctx.visitFrom true ctx.nestingBound [] (.decl root) with
  | error e =>
    rw [walk, hvisit] at h
    cases h
  | ok seen =>
    rw [walk, hvisit] at h
    cases h
    rw [occurrences_of_visitFrom hvisit, List.append_nil]
    exact (List.reverse_reverse _).symm

/-! ### Volumes -/

variable (ctx)

/-- The volume of a node and of what is defined inside it. -/
def volumeFrom (fuel : Nat) (v : Visit) : Nat :=
  ((ctx.occurrences fuel v).map ctx.share).sum

/-- The volume of the walk of the translation unit under `root`. -/
def volume (root : DeclId) : Nat :=
  ctx.volumeFrom ctx.nestingBound (.decl root)

variable {ctx}

theorem volume_of_walk {root : DeclId} {visits : List Visit} (h : ctx.walk root = .ok visits) :
    ctx.volume root = (visits.map ctx.share).sum := by
  rw [volume, volumeFrom, occurrences_of_walk h]

/-- The volume of a node is its share and the volume of what it holds. -/
theorem volumeFrom_succ {v : Visit} {inner : List Visit} (h : ctx.inside? v = some inner)
    (fuel : Nat) : ctx.volumeFrom (fuel + 1) v
      = ctx.share v + (inner.map (ctx.volumeFrom fuel)).sum := by
  rw [volumeFrom, occurrences_succ h, List.map_cons, List.sum_cons, List.map_flatMap, List.flatMap,
    List.sum_flatten, List.map_map]
  rfl

/-! ### The length of names -/

variable (ctx)

/-- The largest number of components that a name of the context has. -/
def scopeDepth : Nat :=
  (ctx.decls.toList.map fun d => d.name.elim 0 (·.components.length)).foldr max 0

/-- More than the number of components of any name. -/
def nameBound : Nat :=
  1 + ctx.scopeDepth

variable {ctx}

/-- A name of the context has no more components. -/
theorem length_components_le {id : DeclId} {d : Decl} (h : ctx.decl? id = some d) {n : DeclName}
    (hn : d.name = some n) : n.components.length ≤ ctx.scopeDepth := by
  have hmem : d ∈ ctx.decls.toList := Array.mem_toList_iff.mpr (Array.mem_of_getElem? h)
  refine List.le_max_of_le' 0 (List.mem_map_of_mem hmem) ?_
  rw [hn]
  exact Nat.le_refl _

end Context

end SyntaxExport
