import Mathlib.Data.Set.Card
import SyntaxExport.Index
import SyntaxExport.Proofs.Visits
import SyntaxExport.Proofs.Walk.Reach

/-!
# What an index resolves

An index of a translation unit has the declarations and statements that are reached from the unit,
and all types of its context, each under its own identity and counted once (`Index.build_resolves`).
So the pointer of every tuple of a document is found in the index of the same unit, as the node that
the tuple is for. Only the tuples that stand for an absent node have pointers that are not found.
-/

namespace SyntaxExport

open Relation (ReflTransGen)

/-! ### Tables -/

/-- A table has the elements of a set, each under its key. -/
structure Tabulates {α : Type} (key : α → NodeIdentity) (m : Std.HashMap NodeIdentity α)
    (as : Set α) : Prop where
  getElem? : ∀ i a, m[i]? = some a ↔ a ∈ as ∧ key a = i
  finite : as.Finite
  size : m.size = as.ncard

namespace Tabulates

variable {α : Type} {key : α → NodeIdentity} {m : Std.HashMap NodeIdentity α} {as : Set α}

theorem congr {bs : Set α} (h : Tabulates key m as) (hset : ∀ a, a ∈ as ↔ a ∈ bs) :
    Tabulates key m bs := by
  rwa [Set.ext hset] at h

theorem empty (h : m.size = 0) : Tabulates key m ∅ where
  getElem? i a := by
    have hempty : m.isEmpty = true := by
      rw [Std.HashMap.isEmpty_eq_size_eq_zero, h]
      rfl
    simp [Std.HashMap.getElem?_of_isEmpty hempty]
  finite := Set.finite_empty
  size := by rw [h, Set.ncard_empty]

/-- What has the key of an element is that element. -/
theorem mem_iff (h : Tabulates key m as) (hkey : Function.Injective key) (a : α) :
    key a ∈ m ↔ a ∈ as := by
  rw [Std.HashMap.mem_iff_isSome_getElem?, Option.isSome_iff_exists]
  constructor
  · rintro ⟨b, hb⟩
    obtain ⟨hmem, hab⟩ := (h.getElem? _ b).mp hb
    exact hkey hab ▸ hmem
  · intro ha
    exact ⟨a, (h.getElem? _ a).mpr ⟨ha, rfl⟩⟩

theorem insert (h : Tabulates key m as) (hkey : Function.Injective key) (a : α) :
    Tabulates key (m.insert (key a) a) (Insert.insert a as) where
  getElem? i b := by
    rw [Std.HashMap.getElem?_insert]
    by_cases hi : key a = i
    · rw [if_pos (beq_iff_eq.mpr hi), Option.some.injEq, Set.mem_insert_iff]
      constructor
      · rintro rfl
        exact ⟨.inl rfl, hi⟩
      · rintro ⟨-, hb⟩
        exact hkey (hi.trans hb.symm)
    · rw [if_neg (by simpa using hi), h.getElem?, Set.mem_insert_iff]
      constructor
      · rintro ⟨hb, hkeyb⟩
        exact ⟨.inr hb, hkeyb⟩
      · rintro ⟨rfl | hb, hkeyb⟩
        · exact absurd hkeyb hi
        · exact ⟨hb, hkeyb⟩
  finite := h.finite.insert a
  size := by
    rw [Std.HashMap.size_insert, h.size]
    by_cases ha : a ∈ as
    · rw [if_pos ((h.mem_iff hkey a).mpr ha), Set.insert_eq_of_mem ha]
    · rw [if_neg (mt (h.mem_iff hkey a).mp ha), Set.ncard_insert_of_notMem ha h.finite]

/-- What is found under the key that is read, if one is read at all. -/
theorem bind_iff {ε : Type} (h : Tabulates key m as) (r : Except ε NodeIdentity) (a : α) :
    (r.toOption.bind fun i => m[i]?) = some a ↔ r = .ok (key a) ∧ a ∈ as := by
  cases r with
  | error e => simp [Except.toOption]
  | ok i =>
    simp only [Except.toOption, Option.bind_some, Except.ok.injEq]
    rw [h.getElem?]
    constructor
    · rintro ⟨ha, rfl⟩
      exact ⟨rfl, ha⟩
    · rintro ⟨rfl, ha⟩
      exact ⟨ha, rfl⟩

end Tabulates

/-! ### Entries -/

namespace Index

theorem declKey_injective : Function.Injective fun d : DeclId => (NodeRef.decl d).identity :=
  fun _ _ h => NodeRef.decl.inj (NodeRef.identity_injective h)

theorem stmtKey_injective : Function.Injective fun s : StmtId => (NodeRef.stmt s).identity :=
  fun _ _ h => NodeRef.stmt.inj (NodeRef.identity_injective h)

theorem typeKey_injective : Function.Injective fun t : TypeId => (NodeRef.type t).identity :=
  fun _ _ h => NodeRef.type.inj (NodeRef.identity_injective h)

/-- The index has the visited nodes apart from comments. -/
structure Covers (x : Index) (visits : List Visit) : Prop where
  decls : Tabulates (fun d => (NodeRef.decl d).identity) x.decls {d | .decl d ∈ visits}
  stmts : Tabulates (fun s => (NodeRef.stmt s).identity) x.stmts {s | .stmt s ∈ visits}
  types : Tabulates (fun t => (NodeRef.type t).identity) x.types {t | .type t ∈ visits}

variable {x y : Index}

theorem covers_nil (h : x.isEmpty = true) : x.Covers [] := by
  have hsize : x.decls.size + x.stmts.size + x.types.size = 0 := by
    simpa [isEmpty, size] using h
  constructor
  · exact (Tabulates.empty (by omega)).congr (by simp)
  · exact (Tabulates.empty (by omega)).congr (by simp)
  · exact (Tabulates.empty (by omega)).congr (by simp)

theorem Covers.enter {visits : List Visit} (h : x.Covers visits) (v : Visit) :
    (x.enter v).Covers (visits ++ [v]) := by
  cases v with
  | decl id =>
    exact ⟨(h.decls.insert declKey_injective id).congr (by simp [or_comm]),
      h.stmts.congr (by simp), h.types.congr (by simp)⟩
  | stmt id =>
    exact ⟨h.decls.congr (by simp), (h.stmts.insert stmtKey_injective id).congr (by simp [or_comm]),
      h.types.congr (by simp)⟩
  | type id =>
    exact ⟨h.decls.congr (by simp), h.stmts.congr (by simp),
      (h.types.insert typeKey_injective id).congr (by simp [or_comm])⟩
  | comment id =>
    exact ⟨h.decls.congr (by simp), h.stmts.congr (by simp), h.types.congr (by simp)⟩

theorem Covers.foldl : ∀ {visits seen : List Visit} {x : Index}, x.Covers seen →
    (visits.foldl Index.enter x).Covers (seen ++ visits)
  | [], seen, x, h => by
    rw [List.append_nil]
    exact h
  | v :: visits, seen, x, h => by
    have hrest : (visits.foldl Index.enter (x.enter v)).Covers (seen ++ [v] ++ visits) :=
      (h.enter v).foldl
    rwa [List.append_assoc] at hrest

/-- What a finished index was built from. -/
theorem of_build {ctx : Context} {root : DeclId} (h : build ctx root x = .ok y) :
    ∃ d visits, ctx.decl? root = some d ∧ d.kind = .translationUnit
      ∧ ctx.walkOutsideComments root = .ok visits ∧ y.Covers visits := by
  rw [build] at h
  split at h
  · cases h
  next hempty =>
  split at h
  · cases h
  next hroot =>
  split at h
  · cases h
  next visits hwalk =>
  obtain ⟨d, hd, hunit⟩ : ∃ d, ctx.decl? root = some d ∧ d.kind = .translationUnit := by
    simp only [isRoot, Bool.not_eq_true, Bool.not_eq_false'] at hroot
    split at hroot
    · cases hroot
    · next d hd => exact ⟨d, hd, beq_iff_eq.mp hroot⟩
  have hcovers : x.Covers [] := covers_nil (by simpa using hempty)
  cases h
  exact ⟨d, visits, hd, hunit, hwalk, hcovers.foldl⟩

/-- An index is built where no node is defined inside itself and every position that is reached is in
its arena. -/
theorem exists_ofUnit {ctx : Context} {root : DeclId} {d : Decl} (hd : ctx.decl? root = some d)
    (hunit : d.kind = .translationUnit) (hacyclic : ctx.Acyclic (.decl root))
    (hinside : ∀ v, ReflTransGen ctx.Holds (.decl root) v → (ctx.inside? v).isSome) :
    ∃ y, ofUnit ctx root = .ok y := by
  obtain ⟨visits, hwalk⟩ := Context.exists_walkOutsideComments hacyclic hinside
  have hroot : isRoot ctx root = true := by
    rw [isRoot, hd]
    exact beq_iff_eq.mpr hunit
  have hempty : empty.isEmpty = true := rfl
  exact ⟨_, by rw [ofUnit, build, hempty, hroot, hwalk]; rfl⟩

/-! ### Lookups -/

section Lookups

variable {ctx : Context} {root : DeclId}

/-- The tables of a finished index have what is reached from its translation unit. -/
theorem tabulates_of_build (h : build ctx root x = .ok y) :
    Tabulates (fun d => (NodeRef.decl d).identity) y.decls
      {d | ReflTransGen ctx.Holds (.decl root) (.decl d)} ∧
    Tabulates (fun s => (NodeRef.stmt s).identity) y.stmts
      {s | ReflTransGen ctx.Holds (.decl root) (.stmt s)} ∧
    Tabulates (fun t => (NodeRef.type t).identity) y.types {t | (ctx.type? t).isSome} := by
  obtain ⟨d, visits, hd, hunit, hwalk, hcovers⟩ := of_build h
  have hreach := fun {w : Visit} => Context.mem_walkOutsideComments hwalk (w := w)
  refine ⟨hcovers.decls.congr fun d => hreach (by simp [Visit.family]),
    hcovers.stmts.congr fun s => hreach (by simp [Visit.family]),
    hcovers.types.congr fun t => ?_⟩
  exact (hreach (by simp [Visit.family])).trans (Context.reach_type_iff hd hunit t)

theorem declOfText?_iff (h : build ctx root x = .ok y) (s : String) (d : DeclId) :
    y.declOfText? s = some d ↔ NodeIdentity.parse s = .ok (NodeRef.decl d).identity
      ∧ ReflTransGen ctx.Holds (.decl root) (.decl d) :=
  (tabulates_of_build h).1.bind_iff _ d

theorem stmtOfText?_iff (h : build ctx root x = .ok y) (s : String) (id : StmtId) :
    y.stmtOfText? s = some id ↔ NodeIdentity.parse s = .ok (NodeRef.stmt id).identity
      ∧ ReflTransGen ctx.Holds (.decl root) (.stmt id) :=
  (tabulates_of_build h).2.1.bind_iff _ id

theorem typeOfText?_iff (h : build ctx root x = .ok y) (s : String) (t : TypeId) :
    y.typeOfText? s = some t ↔ NodeIdentity.parse s = .ok (NodeRef.type t).identity
      ∧ (ctx.type? t).isSome :=
  (tabulates_of_build h).2.2.bind_iff _ t

/-- The number of entries of each sort. -/
theorem sizes_of_build (h : build ctx root x = .ok y) :
    y.decls.size = {d | ReflTransGen ctx.Holds (.decl root) (.decl d)}.ncard
      ∧ y.stmts.size = {s | ReflTransGen ctx.Holds (.decl root) (.stmt s)}.ncard
      ∧ y.types.size = {t | (ctx.type? t).isSome}.ncard :=
  have htables := tabulates_of_build h
  ⟨htables.1.size, htables.2.1.size, htables.2.2.size⟩

end Lookups

end Index

/-! ### Tuples of documents -/

/-- The nodes that the tuples of a translation unit are for, in document order. -/
def Context.tuples (ctx : Context) (opts : Options) (root : DeclId) : List NodeRef :=
  (Site.outline ctx opts ctx.nestingBound (.decl (some root))).flatMap Mark.nodes

/-- A tuple for a node that is present is for one that is reached from the translation unit. -/
theorem Context.reach_of_mem_tuples {ctx : Context} {opts : Options} {root : DeclId} {n : NodeRef}
    (hn : n ∈ ctx.tuples opts root) (hpresent : n.isPlaceholder = false) :
    ∃ u, ReflTransGen ctx.Holds (.decl root) u ∧ n = u.node := by
  have hmarks : (Visit.decl root).marks.flatMap (Mark.expand (Site.tree ctx opts ctx.nestingBound))
      = Site.outline ctx opts ctx.nestingBound (.decl (some root)) := List.append_nil _
  have hwritten : n ∈ written ctx opts ctx.nestingBound (Visit.decl root).marks := by
    rw [written, hmarks]
    exact List.mem_filter.mpr ⟨hn, by rw [hpresent]; rfl⟩
  obtain ⟨u, hu, hnode⟩ := reach_of_mem_written hwritten
  exact ⟨u, ReflTransGen.mono (fun _ _ => Writes.holds ctx opts) _ _ hu, hnode⟩

namespace Index

variable {ctx : Context} {root : DeclId} {x y : Index}

/-- The text names the node among the nodes of its sort. Comments are not named. -/
def Resolves (x : Index) (text : String) : NodeRef → Prop
  | .decl d => x.declOfText? text = some d
  | .stmt s => x.stmtOfText? text = some s
  | .type t => x.typeOfText? text = some t
  | _ => True

/-- What is reached from the translation unit is named by its pointer. -/
theorem resolves_of_reach (h : build ctx root x = .ok y) {u : Visit}
    (hu : ReflTransGen ctx.Holds (.decl root) u) : y.Resolves u.node.pointer u.node := by
  have hparse : NodeIdentity.parse u.node.pointer = .ok u.node.identity :=
    NodeIdentity.parse_text _
  cases u with
  | decl d => exact (declOfText?_iff h _ d).mpr ⟨hparse, hu⟩
  | stmt s => exact (stmtOfText?_iff h _ s).mpr ⟨hparse, hu⟩
  | type t =>
    obtain ⟨d, visits, hd, hunit, -, -⟩ := of_build h
    exact (typeOfText?_iff h _ t).mpr ⟨hparse, (Context.reach_type_iff hd hunit t).mp hu⟩
  | comment => trivial

/-- The pointers that stand for an absent node name nothing. -/
theorem unresolved_placeholder (h : build ctx root x = .ok y) {n : NodeRef}
    (hn : n.isPlaceholder = true) : y.declOfText? n.pointer = none
      ∧ y.stmtOfText? n.pointer = none ∧ y.typeOfText? n.pointer = none := by
  have hother : ∀ m : NodeRef, NodeIdentity.parse n.pointer = .ok m.identity →
      m.isPlaceholder = true := by
    intro m hm
    rw [NodeRef.pointer, NodeIdentity.parse_text, Except.ok.injEq] at hm
    exact NodeRef.identity_injective hm ▸ hn
  refine ⟨?_, ?_, ?_⟩
  · refine Option.eq_none_iff_forall_ne_some.mpr fun d hd => ?_
    cases hother (.decl d) ((declOfText?_iff h _ d).mp hd).1
  · refine Option.eq_none_iff_forall_ne_some.mpr fun s hs => ?_
    cases hother (.stmt s) ((stmtOfText?_iff h _ s).mp hs).1
  · refine Option.eq_none_iff_forall_ne_some.mpr fun t ht => ?_
    cases hother (.type t) ((typeOfText?_iff h _ t).mp ht).1

/-- An index names the declarations and statements that are reached from its translation unit and
the types of its context, and nothing else. So the pointers of a document with raw identities, other
than those that stand for an absent node, name the nodes whose tuples they begin. -/
theorem build_resolves (h : build ctx root x = .ok y) :
    (∀ s d, y.declOfText? s = some d ↔ NodeIdentity.parse s = .ok (NodeRef.decl d).identity
      ∧ ReflTransGen ctx.Holds (.decl root) (.decl d)) ∧
    (∀ s id, y.stmtOfText? s = some id ↔ NodeIdentity.parse s = .ok (NodeRef.stmt id).identity
      ∧ ReflTransGen ctx.Holds (.decl root) (.stmt id)) ∧
    (∀ s t, y.typeOfText? s = some t ↔ NodeIdentity.parse s = .ok (NodeRef.type t).identity
      ∧ (ctx.type? t).isSome) ∧
    y.decls.size = {d | ReflTransGen ctx.Holds (.decl root) (.decl d)}.ncard ∧
    y.stmts.size = {id | ReflTransGen ctx.Holds (.decl root) (.stmt id)}.ncard ∧
    y.types.size = {t | (ctx.type? t).isSome}.ncard ∧
    ∀ (opts : Options) (s s' : Session) (r : Recorder), opts.identityMode = .raw →
      s.write ctx root opts ({} : Recorder) = (.ok (), s', r) →
      ∃ v : Value, r.document? = some v
        ∧ v.nodes = (ctx.tuples opts root).map NodeRef.pointer
        ∧ ∀ n ∈ ctx.tuples opts root, n.isPlaceholder = false → y.Resolves n.pointer n := by
  obtain ⟨hdecls, hstmts, htypes⟩ := sizes_of_build h
  refine ⟨declOfText?_iff h, stmtOfText?_iff h, typeOfText?_iff h, hdecls, hstmts, htypes, ?_⟩
  intro opts s s' r hraw hwrite
  obtain ⟨v, hv, -, hfilled⟩ := Session.filled_of_write hwrite
  have htext : s'.identities.text opts.identityMode = NodeRef.pointer := by
    funext n
    rw [IdentityTable.text, hraw]
    rfl
  rw [htext] at hfilled
  refine ⟨v, hv, nodes_of_filled hfilled, fun n hn hpresent => ?_⟩
  obtain ⟨u, hu, rfl⟩ := Context.reach_of_mem_tuples hn hpresent
  exact resolves_of_reach h hu

open Session (functionUnit)

theorem exists_build_functionUnit : ∃ y, build functionUnit ⟨0⟩ empty = .ok y :=
  ⟨_, rfl⟩

/-- The variable in the body of the function is found, and so are the nodes of the document. -/
theorem build_resolves_functionUnit : ∃ (y : Index) (s' : Session) (r : Recorder) (v : Value),
    build functionUnit ⟨0⟩ empty = .ok y ∧
    ({} : Session).write functionUnit ⟨0⟩ { identityMode := .raw } ({} : Recorder) = (.ok (), s', r) ∧
    y.declOfText? "0x10000000030" = some ⟨3⟩ ∧ y.typeOfText? "0x30000000000" = some ⟨0⟩ ∧
    r.document? = some v ∧
    v.nodes = (functionUnit.tuples { identityMode := .raw } ⟨0⟩).map NodeRef.pointer ∧
    ∀ n ∈ functionUnit.tuples { identityMode := .raw } ⟨0⟩, n.isPlaceholder = false →
      y.Resolves n.pointer n := by
  obtain ⟨y, hy⟩ := exists_build_functionUnit
  obtain ⟨s', r, hwrite⟩ := Session.exists_write_functionUnit
  obtain ⟨hdecls, -, htypes, -, -, -, hdocument⟩ := build_resolves hy
  obtain ⟨v, hv, hnodes, hresolves⟩ := hdocument { identityMode := .raw } {} s' r rfl hwrite
  have hreach : ReflTransGen functionUnit.Holds (.decl ⟨0⟩) (.decl ⟨3⟩) := by
    have hwalked := Context.walked_of_walk Session.walk_functionUnit
    obtain ⟨u, hu, hreach⟩ := (hwalked.mem_iff (.decl ⟨3⟩)).mp (by decide)
    exact List.mem_singleton.mp hu ▸ hreach
  exact ⟨y, s', r, v, hy, hwrite, (hdecls _ _).mpr ⟨by decide, hreach⟩,
    (htypes _ _).mpr ⟨by decide, rfl⟩, hv, hnodes, hresolves⟩

/-- A translation unit with nothing in it. Its type list begins with the entry for no type. -/
def bareUnit : Context where
  decls := #[{ kind := .translationUnit }]

/-- The entry for no type has a pointer that an index does not find. -/
theorem null_unresolved : ∃ (y : Index) (s' : Session) (r : Recorder) (v : Value),
    build bareUnit ⟨0⟩ empty = .ok y ∧
    ({} : Session).write bareUnit ⟨0⟩ { identityMode := .raw } ({} : Recorder) = (.ok (), s', r) ∧
    [.variant "NoneType", .scope .tuple 1, .scope .object 2, .tag "pointer", .scalar (.string "0x0")]
      <:+: r.events.toList ∧
    r.document? = some v ∧ "0x0" ∈ v.nodes ∧
    y.declOfText? "0x0" = none ∧ y.stmtOfText? "0x0" = none ∧ y.typeOfText? "0x0" = none := by
  obtain ⟨y, hy⟩ : ∃ y, build bareUnit ⟨0⟩ empty = .ok y := ⟨_, rfl⟩
  refine ⟨y, _, _, _, hy, rfl, ?_, rfl, ?_, unresolved_placeholder hy (n := .null) rfl⟩
  · decide +kernel
  · decide +kernel

end Index

end SyntaxExport
