import SyntaxExport.Proofs.Walk

/-!
# Nodes that a walk reaches

A walk lists the nodes that are reached from its root by going from a node to what is defined
directly inside it (`Context.Walked.mem_iff`), however often it comes by a node. A walk that does not
enter comments is the walk of a context whose comments are empty, and reaches the same nodes apart
from comments (`Context.mem_walkOutsideComments`).
-/

namespace SyntaxExport

open Relation (ReflTransGen TransGen)

namespace Context

variable {ctx : Context}

theorem Holds.intro {v w : Visit} {inner : List Visit} (h : ctx.inside? v = some inner)
    (hw : w ∈ inner) : ctx.Holds v w :=
  ⟨inner, h, hw⟩

/-- A walk lists the nodes it begins with, and everything that is reached from them. -/
theorem Walked.mem_iff {vs l : List Visit} (h : ctx.Walked vs l) (w : Visit) :
    w ∈ l ↔ ∃ v ∈ vs, ReflTransGen ctx.Holds v w := by
  induction h with
  | nil => simp
  | @cons v inner l vs ls hinner _ _ ihl ihls =>
    have hfirst : w ∈ v :: l ↔ ReflTransGen ctx.Holds v w := by
      rw [List.mem_cons, ihl]
      constructor
      · rintro (rfl | ⟨u, hu, huw⟩)
        · exact .refl
        · exact .head (.intro hinner hu) huw
      · intro hvw
        rcases hvw.cases_head with rfl | ⟨u, ⟨inner', hinner', hu⟩, huw⟩
        · exact .inl rfl
        · rw [hinner, Option.some.injEq] at hinner'
          exact .inr ⟨u, hinner' ▸ hu, huw⟩
    rw [List.mem_append, hfirst, ihls]
    simp only [List.mem_cons, exists_eq_or_imp]

/-! ### Walks that miss nothing -/

/-- A walk that misses a node has come to its position. -/
theorem reach_of_missing : ∀ {fuel : Nat} {v u : Visit} {seen : List Visit},
    ctx.visitFrom true fuel seen v = .error (.missing u) →
      ReflTransGen ctx.Holds v u ∧ ctx.inside? u = none
  | 0, _, _, _, h => by cases h
  | fuel + 1, v, u, seen, h => by
    rw [visitFrom_succ] at h
    split at h
    · next hinner =>
      cases h
      exact ⟨.refl, hinner⟩
    · next inner hinner =>
      obtain ⟨w, hw, seen', hmissing⟩ := exists_error_of_foldlM h
      obtain ⟨hwu, hu⟩ := reach_of_missing hmissing
      exact ⟨.head (.intro hinner hw) hwu, hu⟩

/-- A walk ends well where no node is defined inside itself and every position that it comes to is in
its arena. -/
theorem exists_walk {root : DeclId} (hacyclic : ctx.Acyclic (.decl root))
    (hinside : ∀ v, ReflTransGen ctx.Holds (.decl root) v → (ctx.inside? v).isSome) :
    ∃ visits, ctx.walk root = .ok visits := by
  cases hwalk : ctx.walk root with
  | ok visits => exact ⟨visits, rfl⟩
  | error e =>
    cases e with
    | cyclic => exact absurd hwalk (walk_ne_cyclic hacyclic)
    | missing u =>
      obtain ⟨hreach, hu⟩ := reach_of_missing (visitFrom_of_walk_error hwalk)
      exact absurd hu (Option.isSome_iff_ne_none.mp (hinside u hreach))

/-! ### Walks that do not enter comments -/

/-- The context with empty comments. -/
def emptyComments (ctx : Context) : Context :=
  { ctx with comments := ctx.comments.map fun c => { c with children := [] } }

theorem comment?_emptyComments (ctx : Context) (id : CommentId) : ctx.emptyComments.comment? id
    = (ctx.comment? id).map fun c => { c with children := [] } :=
  Array.getElem?_map

theorem inside?_emptyComments (ctx : Context) {v : Visit} (h : v.family ≠ .comment) :
    ctx.emptyComments.inside? v = ctx.inside? v := by
  cases v with
  | comment id => exact absurd rfl h
  | decl | stmt | type => rfl

theorem inside?_comment_emptyComments (ctx : Context) (id : CommentId) :
    ctx.emptyComments.inside? (.comment id) = (ctx.inside? (.comment id)).map fun _ => [] := by
  simp only [inside?, comment?_emptyComments, Option.map_map]
  rfl

theorem visitFrom_emptyComments (ctx : Context) : ∀ (fuel : Nat) (seen : List Visit) (v : Visit),
    ctx.visitFrom false fuel seen v = ctx.emptyComments.visitFrom true fuel seen v
  | 0, _, _ => rfl
  | fuel + 1, seen, v => by
    have hinner : ctx.visitFrom false fuel = ctx.emptyComments.visitFrom true fuel := by
      funext seen v
      exact visitFrom_emptyComments ctx fuel seen v
    rw [visitFrom_succ, visitFrom.eq_def]
    simp only [hinner]
    cases v with
    | comment id =>
      rw [inside?_comment_emptyComments]
      cases ctx.inside? (.comment id) <;> rfl
    | decl id | stmt id | type id =>
      rw [inside?_emptyComments ctx (by simp [Visit.family])]
      cases ctx.inside? _ <;> rfl

theorem walkOutsideComments_eq (ctx : Context) (root : DeclId) :
    ctx.walkOutsideComments root = ctx.emptyComments.walk root := by
  have hbound : ctx.emptyComments.nestingBound = ctx.nestingBound := by
    simp [nestingBound, emptyComments]
  rw [walkOutsideComments, walk, visitFrom_emptyComments, hbound]

/-- Comments hold nothing but comments. -/
theorem Holds.comment {id : CommentId} {w : Visit} (h : ctx.Holds (.comment id) w) :
    w.family = .comment := by
  obtain ⟨inner, hinner, hw⟩ := h
  obtain ⟨c, -, rfl⟩ := Option.map_eq_some_iff.mp hinner
  obtain ⟨child, -, hchild⟩ := List.mem_filterMap.mp hw
  obtain ⟨id, -, rfl⟩ := Option.map_eq_some_iff.mp hchild
  rfl

theorem Holds.of_emptyComments {v w : Visit} (h : ctx.emptyComments.Holds v w) : ctx.Holds v w := by
  obtain ⟨inner, hinner, hw⟩ := h
  by_cases hv : v.family = .comment
  · cases v with
    | comment id =>
      rw [inside?_comment_emptyComments] at hinner
      obtain ⟨_, -, rfl⟩ := Option.map_eq_some_iff.mp hinner
      cases hw
    | decl | stmt | type => cases hv
  · rw [inside?_emptyComments ctx hv] at hinner
    exact ⟨inner, hinner, hw⟩

/-- What is reached outside comments is reached with empty comments. -/
theorem reach_emptyComments {v w : Visit} (hw : w.family ≠ .comment) :
    ReflTransGen ctx.emptyComments.Holds v w ↔ ReflTransGen ctx.Holds v w := by
  constructor
  · exact fun h => ReflTransGen.mono (fun _ _ => Holds.of_emptyComments) _ _ h
  · intro h
    induction h with
    | refl => exact .refl
    | @tail u w _ huw ih =>
      -- the node before the last is no comment, as comments hold only comments
      have hu : u.family ≠ .comment := by
        intro hu
        cases u with
        | comment id => exact hw huw.comment
        | decl | stmt | type => cases hu
      obtain ⟨inner, hinner, hwu⟩ := huw
      have hinner' : ctx.emptyComments.inside? u = some inner := by
        rw [inside?_emptyComments ctx hu, hinner]
      exact .tail (ih hu) ⟨inner, hinner', hwu⟩

/-- A walk that does not enter comments lists everything that is reached, apart from comments. -/
theorem mem_walkOutsideComments {root : DeclId} {visits : List Visit}
    (h : ctx.walkOutsideComments root = .ok visits) {w : Visit} (hw : w.family ≠ .comment) :
    w ∈ visits ↔ ReflTransGen ctx.Holds (.decl root) w := by
  rw [walkOutsideComments_eq] at h
  rw [(walked_of_walk h).mem_iff, ← reach_emptyComments hw]
  simp only [List.mem_singleton, exists_eq_left]

theorem exists_walkOutsideComments {root : DeclId} (hacyclic : ctx.Acyclic (.decl root))
    (hinside : ∀ v, ReflTransGen ctx.Holds (.decl root) v → (ctx.inside? v).isSome) :
    ∃ visits, ctx.walkOutsideComments root = .ok visits := by
  have hmono : ∀ {v w}, ReflTransGen ctx.emptyComments.Holds v w → ReflTransGen ctx.Holds v w :=
    fun h => ReflTransGen.mono (fun _ _ => Holds.of_emptyComments) _ _ h
  rw [walkOutsideComments_eq]
  refine exists_walk (fun w hw hcycle => ?_) fun v hv => ?_
  · exact hacyclic w (hmono hw) (TransGen.mono (fun _ _ => Holds.of_emptyComments) _ _ hcycle)
  · have hv' := hinside v (hmono hv)
    cases v with
    | comment id =>
      rw [inside?_comment_emptyComments, Option.isSome_map]
      exact hv'
    | decl | stmt | type => rwa [inside?_emptyComments ctx (by simp [Visit.family])]

/-! ### Types -/

theorem mem_typeIds (ctx : Context) (t : TypeId) : t ∈ ctx.typeIds ↔ (ctx.type? t).isSome := by
  have hsome : (ctx.type? t).isSome ↔ t.toNat < ctx.types.size := by
    simp [type?]
  rw [typeIds, List.mem_map, hsome]
  constructor
  · rintro ⟨i, hi, rfl⟩
    have hlt := List.mem_range.mp hi
    exact Nat.lt_of_le_of_lt (Nat.mod_le _ _) hlt
  · intro ht
    exact ⟨t.toNat, List.mem_range.mpr ht, by rw [Id.ofSize, Id.toNat, UInt32.ofNat_toNat]⟩

theorem family_of_mem_stmts {v : Visit} {ss : List (Option StmtId)} (h : v ∈ Visit.stmts ss) :
    v.family = .stmt := by
  obtain ⟨s, -, hs⟩ := List.mem_filterMap.mp h
  obtain ⟨id, -, rfl⟩ := Option.map_eq_some_iff.mp hs
  rfl

/-- Payloads of declarations define declarations and statements. -/
theorem family_of_mem_declDefinitions {v : Visit} {p : DeclPayload} (h : v ∈ p.definitions) :
    v.family = .decl ∨ v.family = .stmt := by
  have hdecls : ∀ {ds : List DeclId}, v ∈ ds.map .decl → v.family = .decl := by
    intro ds hv
    obtain ⟨d, -, rfl⟩ := List.mem_map.mp hv
    rfl
  cases p
  case enumConstant | field | var | objCImplementation => exact .inr (family_of_mem_stmts h)
  case function info =>
    simp only [DeclPayload.definitions, List.mem_append] at h
    rcases h with ((h | h) | h) | h
    · exact .inl (hdecls h)
    · exact .inl (hdecls h)
    · exact .inr (family_of_mem_stmts h)
    · exact .inr (family_of_mem_stmts h)
  case objCMethod info =>
    rcases List.mem_append.mp h with h | h
    · exact .inl (hdecls h)
    · exact .inr (family_of_mem_stmts h)
  case block info =>
    simp only [DeclPayload.definitions, List.mem_append] at h
    rcases h with (h | h) | h
    · exact .inl (hdecls h)
    · exact .inr (family_of_mem_stmts h)
    · exact .inr (family_of_mem_stmts h)
  all_goals cases h

/-- Payloads of statements define declarations. -/
theorem family_of_mem_stmtDefinitions {v : Visit} {p : StmtPayload} (h : v ∈ p.definitions) :
    v.family = .decl := by
  unfold StmtPayload.definitions at h
  split at h
  · obtain ⟨d, -, rfl⟩ := List.mem_map.mp h
    rfl
  · rw [List.mem_singleton.mp h]
    rfl
  · rw [List.mem_singleton.mp h]
    rfl
  · cases h

/-- A type is held only as one of the types of the context. -/
theorem isSome_type?_of_holds {v : Visit} {t : TypeId} (h : ctx.Holds v (.type t)) :
    (ctx.type? t).isSome := by
  obtain ⟨inner, hinner, ht⟩ := h
  cases v with
  | decl id =>
    obtain ⟨d, -, rfl⟩ := Option.map_eq_some_iff.mp hinner
    refine (mem_typeIds ctx t).mp ?_
    simp only [insideDecl, List.mem_append] at ht
    rcases ht with ((hcomment | hchild) | htype) | hdefinition
    · simp at hcomment
    · split at hchild <;> simp at hchild
    · split at htype
      · simpa using htype
      · cases htype
    · rcases family_of_mem_declDefinitions hdefinition with hfamily | hfamily <;> cases hfamily
  | stmt id =>
    obtain ⟨s, -, rfl⟩ := Option.map_eq_some_iff.mp hinner
    rcases List.mem_append.mp ht with hchild | hdefinition
    · cases family_of_mem_stmts hchild
    · cases family_of_mem_stmtDefinitions hdefinition
  | type id =>
    obtain ⟨_, -, rfl⟩ := Option.map_eq_some_iff.mp hinner
    cases ht
  | comment id => cases Holds.comment (.intro hinner ht)

/-- The types that are reached from a translation unit are all there are. -/
theorem reach_type_iff {root : DeclId} {d : Decl} (hd : ctx.decl? root = some d)
    (hunit : d.kind = .translationUnit) (t : TypeId) :
    ReflTransGen ctx.Holds (.decl root) (.type t) ↔ (ctx.type? t).isSome := by
  constructor
  · intro h
    rcases h.cases_tail with heq | ⟨u, -, hu⟩
    · cases heq
    · exact isSome_type?_of_holds hu
  · intro ht
    have hinner : ctx.inside? (.decl root) = some (ctx.insideDecl d) := by
      rw [inside?, hd]
      rfl
    refine .single (.intro hinner ?_)
    rw [insideDecl, if_pos hunit]
    exact List.mem_append_left _ (List.mem_append_right _
      (List.mem_map_of_mem ((mem_typeIds ctx t).mpr ht)))

end Context

end SyntaxExport
