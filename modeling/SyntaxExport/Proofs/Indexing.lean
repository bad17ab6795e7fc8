import SyntaxExport.Proofs.Index
import SyntaxExport.Proofs.Renumbering

/-!
# Indexing what was written

An index follows the payload of a node whatever the kind of the node is, and a document has what the
levels of the kind read. So a translation unit that was written may hold more than its document: the
unit is indexed, and nothing but the document is, exactly if the document has whatever the payloads of
its nodes define (`Index.indexed_iff_payloads_written`).
-/

namespace SyntaxExport

open Relation (ReflTransGen)

/-! ### Documents of any writer -/

/-- Acts that no writer stopped come to no failure of their own. -/
theorem Act.outcome_of_performAll {σ : Type} [DocumentWriter σ] {mode : IdentityMode} :
    ∀ {as : List Act} {p q : Pass σ}, performAll mode as p = (.ok (), q) → outcome as = .ok ()
  | [], _, _, _ => rfl
  | a :: as, p, q, h => by
    rw [performAll, List.map_cons, Pass.all] at h
    split at h
    · next p₁ hact =>
      have hrest : outcome as = .ok () := outcome_of_performAll h
      cases a with
      | fail e => cases hact
      | call | identity | move => exact hrest
    · cases congrArg Prod.fst h

namespace Session

variable {σ : Type} [DocumentWriter σ] {ctx : Context} {root : DeclId} {opts : Options}
  {s s' : Session} {w w' : σ}

theorem outcome_of_write (h : s.write ctx root opts w = (.ok (), s', w')) :
    ctx.outcome root opts = .ok () := by
  rcases write_cases ctx root opts s w with ⟨e, hrefused⟩ | ⟨hcheck, result, p, hrun, hwrite⟩
  · cases congrArg Prod.fst (h.symm.trans hrefused)
  cases congrArg Prod.fst (h.symm.trans hwrite)
  rw [runPass, Pass.all, site_eq_acts] at hrun
  rw [Context.outcome, hcheck]
  split at hrun
  · next q hq => exact Act.outcome_of_performAll hq
  · cases congrArg Prod.fst hrun

/-- The root of what was written is a translation unit. -/
theorem exists_unit_of_write (h : s.write ctx root opts w = (.ok (), s', w')) :
    ∃ d, ctx.decl? root = some d ∧ d.kind = .translationUnit := by
  rcases write_cases ctx root opts s w with ⟨e, hrefused⟩ | ⟨hcheck, -⟩
  · cases congrArg Prod.fst (h.symm.trans hrefused)
  rw [Options.check] at hcheck
  split at hcheck
  · cases hcheck
  rw [Context.checkRoot] at hcheck
  split at hcheck
  · cases hcheck
  next d hd =>
  split at hcheck
  · next hunit => exact ⟨d, hd, hunit⟩
  · cases hcheck

/-- What was written to some writer can be recorded with raw identities. -/
theorem exists_record_of_write (h : s.write ctx root opts w = (.ok (), s', w')) :
    ∃ s'' r, record ctx root opts .raw = (.ok (), s'', r) := by
  have hrecord : (record ctx root opts .raw).1 = .ok () := by
    have hresult := (recorded_write ctx root { opts with identityMode := .raw } (s := {}) rfl).1
    rw [Context.outcome_identityMode, outcome_of_write h] at hresult
    exact hresult
  exact ⟨_, _, Prod.ext hrecord rfl⟩

end Session

/-! ### What is left out of a document -/

section Fills

variable {ctx : Context} {opts : Options} {fuel : Nat}

theorem Layout.not_fills_fault {define : Site → Tree Item} (e : ExportError) :
    ¬ ((Layout.fault e).tree.bind (Item.expand define)).Fills ctx opts := by
  rintro ⟨s, s', v, h⟩
  cases h

/-- A site that can be filled is not at the end of the fuel, and its layout is not a fault. -/
theorem Site.layout_of_fills {s : Site} (h : (s.tree ctx opts fuel).Fills ctx opts) :
    ∃ n, fuel = n + 1 ∧ ∀ e, s.layout ctx opts ≠ Layout.fault e := by
  cases fuel with
  | zero =>
    obtain ⟨slots, slots', v, hcyclic⟩ := h
    cases hcyclic
  | succ n =>
    refine ⟨n, rfl, fun e hlayout => ?_⟩
    rw [Site.tree, hlayout] at h
    exact Layout.not_fills_fault e h

theorem Layout.mem_declLevel {l : Layout} {d : Decl} {level : DeclKind} (n : NodeRef)
    (hlevel : level ∈ contextLevels) (hl : l ∈ declContext ctx opts d) :
    l ∈ declLevel ctx opts n d level := by
  simp only [contextLevels, List.mem_cons, List.not_mem_nil, or_false] at hlevel
  rcases hlevel with rfl | rfl | rfl | rfl | rfl | rfl | rfl
  all_goals first | exact hl | exact List.mem_append_left _ hl

namespace Context

/-- The nodes that the payload of a node defines, whatever the kind of the node is. -/
def payloadDefinitions (ctx : Context) : Visit → List Visit
  | .decl id => (ctx.decl? id).elim [] (·.payload.definitions)
  | .stmt id => (ctx.stmt? id).elim [] (·.payload.definitions)
  | .type _ | .comment _ => []

/-- Without a filter every child is kept, if all of them are in the context. -/
theorem keptChildren_of_unfiltered (hfilter : opts.filter = none) : ∀ {ids kept : List DeclId},
    Layout.keptChildren ctx opts ids = .ok kept → kept = ids
  | [], _, h => by
    cases h
    rfl
  | id :: ids, kept, h => by
    simp only [Layout.keptChildren, Options.keeps, hfilter] at h
    split at h
    · cases h
    · split at h
      · cases h
      · next rest hrest =>
        cases h
        rw [if_pos trivial, keptChildren_of_unfiltered hfilter hrest]

theorem writtenChildren_of_fills {id : DeclId} {d : Decl} (hd : ctx.decl? id = some d)
    (hcontext : d.kind.isDeclContext) (hfilter : opts.filter = none)
    (h : (Visit.decl id).Fills ctx opts (fuel + 1)) :
    ctx.writtenChildren opts d = (d.context.getD {}).decls.map .decl := by
  have hfill := h (.decl (some id)) List.mem_cons_self
  simp only [Site.tree, Site.layout, hd] at hfill
  obtain ⟨level, hlineage, hlevel⟩ := (isDeclContext_iff d.kind).mpr hcontext
  rw [writtenChildren]
  cases hkept : Layout.keptChildren ctx opts (d.context.getD {}).decls with
  | ok kept => rw [keptChildren_of_unfiltered hfilter hkept]
  | error e =>
    have hfault : Layout.fault e ∈ Layout.declContext ctx opts d := by
      rw [Layout.declContext, hkept]
      exact List.mem_cons_self
    exact absurd ((Layout.fills_of_node hfill).2 level hlineage _
      (Layout.mem_declLevel (.decl id) hlevel hfault)) (Layout.not_fills_fault e)

theorem writtenStmts_of_fills {id : StmtId} {s : Stmt} (hs : ctx.stmt? id = some s)
    (h : (Visit.stmt id).Fills ctx opts (fuel + 1)) :
    ctx.writtenStmts s = Visit.stmts s.children := by
  have hfill := h (.stmt (some id)) List.mem_cons_self
  simp only [Site.tree, Site.layout, hs] at hfill
  have hchildren := (Layout.fills_of_node hfill).2 .stmt (by cases s.kind <;> decide)
    (Layout.stmtChildren ctx s) (List.mem_cons_of_mem _ List.mem_cons_self)
  rcases hfind : s.children.find? (Layout.isStmtMissing ctx) with _ | _ | missing <;>
    simp only [writtenStmts, hfind]
  simp only [Layout.stmtChildren, hfind] at hchildren
  exact absurd hchildren (Layout.not_fills_fault _)

theorem writtenInComment_of_fills {id : CommentId} {c : Comment} (hc : ctx.comment? id = some c)
    (h : (Visit.comment id).Fills ctx opts (fuel + 1)) :
    ctx.writtenInComment c = c.children.filterMap (·.map .comment) := by
  have hfill := h (.comment (some id)) List.mem_cons_self
  simp only [Site.tree, Site.layout, hc] at hfill
  have hchildren := (Layout.fills_of_node hfill).2 .comment (by cases c.kind <;> decide)
    (Layout.commentChildren ctx c) (List.mem_cons_of_mem _ List.mem_cons_self)
  rcases hfind : c.children.find? (Layout.isCommentMissing ctx) with _ | _ | missing <;>
    simp only [writtenInComment, hfind]
  simp only [Layout.commentChildren, hfind] at hchildren
  exact absurd hchildren (Layout.not_fills_fault _)

/-- Nothing is left out of a node that can be filled, except what its payload defines. -/
theorem mem_writtenIn_or_payload {v u : Visit} (hfilter : opts.filter = none)
    (hfills : v.Fills ctx opts (fuel + 1)) (hu : ctx.Holds v u) :
    u ∈ ctx.writtenIn opts v ∨ u ∈ ctx.payloadDefinitions v := by
  obtain ⟨inner, hinner, hu⟩ := hu
  cases v with
  | decl id =>
    obtain ⟨d, hd, rfl⟩ := Option.map_eq_some_iff.mp hinner
    have hchildren : (if d.kind.isDeclContext then ctx.writtenChildren opts d else [])
        = if d.kind.isDeclContext then (d.context.getD {}).decls.map .decl else [] := by
      split
      · next hcontext => exact writtenChildren_of_fills hd hcontext hfilter hfills
      · rfl
    have htypes : (if d.kind = .translationUnit then ctx.writtenTypes else [])
        = if d.kind = .translationUnit then ctx.typeIds.map .type else [] := by
      split
      · next hunit => exact writtenTypes_eq ctx (isAbstract_of_fills hd hunit hfills)
      · rfl
    simp only [writtenIn, payloadDefinitions, hd, Option.elim_some, writtenInDecl, hchildren, htypes]
    rcases List.mem_append.mp hu with hcommon | hpayload
    · exact .inl (List.mem_append_left _ hcommon)
    · exact .inr hpayload
  | stmt id =>
    obtain ⟨s, hs, rfl⟩ := Option.map_eq_some_iff.mp hinner
    simp only [writtenIn, payloadDefinitions, hs, Option.elim_some, writtenInStmt,
      writtenStmts_of_fills hs hfills]
    rcases List.mem_append.mp hu with hchild | hpayload
    · exact .inl (List.mem_append_left _ hchild)
    · exact .inr hpayload
  | type id =>
    obtain ⟨t, -, rfl⟩ := Option.map_eq_some_iff.mp hinner
    cases hu
  | comment id =>
    obtain ⟨c, hc, rfl⟩ := Option.map_eq_some_iff.mp hinner
    simp only [writtenIn, hc, Option.elim_some, writtenInComment_of_fills hc hfills]
    exact .inl hu

/-- A declaration, statement or comment that can be filled is in its arena. -/
theorem inside_of_fills {v : Visit} (hfamily : v.family ≠ .type) (h : v.Fills ctx opts fuel) :
    ∃ n inner, fuel = n + 1 ∧ ctx.inside? v = some inner := by
  cases v with
  | type => exact absurd rfl hfamily
  | decl id =>
    obtain ⟨n, hn, hlayout⟩ := Site.layout_of_fills (h _ List.mem_cons_self)
    cases hd : ctx.decl? id with
    | some d => exact ⟨n, _, hn, congrArg (Option.map ctx.insideDecl) hd⟩
    | none => exact absurd (by rw [Site.layout, hd]) (hlayout (.danglingNode (.decl id)))
  | stmt id =>
    obtain ⟨n, hn, hlayout⟩ := Site.layout_of_fills (h _ List.mem_cons_self)
    cases hs : ctx.stmt? id with
    | some s => exact ⟨n, _, hn, congrArg (Option.map _) hs⟩
    | none => exact absurd (by rw [Site.layout, hs]) (hlayout (.danglingNode (.stmt id)))
  | comment id =>
    obtain ⟨n, hn, hlayout⟩ := Site.layout_of_fills (h _ List.mem_cons_self)
    cases hc : ctx.comment? id with
    | some c => exact ⟨n, _, hn, congrArg (Option.map _) hc⟩
    | none => exact absurd (by rw [Site.layout, hc]) (hlayout (.danglingNode (.comment id)))

/-! ### Nodes of a document -/

/-- Whatever is written inside a node that can be filled can be filled, and is written with it. -/
theorem fills_of_writes {v u : Visit} (h : v.Fills ctx opts fuel)
    (hu : ReflTransGen (ctx.Writes opts) v u) : ∃ n, u.Fills ctx opts n
      ∧ ∀ m ∈ written ctx opts n u.marks, m ∈ written ctx opts fuel v.marks := by
  induction hu with
  | refl => exact ⟨fuel, h, fun _ hm => hm⟩
  | @tail u w _ huw ih =>
    obtain ⟨n, hfills, hwritten⟩ := ih
    obtain ⟨k, inner, rfl, hinner⟩ := inside_of_fills huw.holds.canHold.2 hfills
    refine ⟨k, fills_of_mem_writtenIn hinner hfills huw, fun m hm => hwritten m ?_⟩
    rw [written_marks hinner (isConcrete_of_fills hfills)]
    exact List.mem_cons_of_mem _ (List.mem_flatMap.mpr ⟨w, huw, hm⟩)

theorem node_mem_written {v : Visit} (h : v.Fills ctx opts fuel) :
    v.node ∈ written ctx opts fuel v.marks := by
  by_cases hfamily : v.family = .type
  · cases v with
    | type id => exact List.mem_singleton.mpr rfl
    | decl | stmt | comment => cases hfamily
  · obtain ⟨n, inner, rfl, hinner⟩ := inside_of_fills hfamily h
    rw [written_marks hinner (isConcrete_of_fills h)]
    exact List.mem_cons_self

/-- The nodes in the place of one that can be filled are those that are written inside it. -/
theorem mem_written_iff {v u : Visit} (h : v.Fills ctx opts fuel) :
    u.node ∈ written ctx opts fuel v.marks ↔ ReflTransGen (ctx.Writes opts) v u := by
  constructor
  · intro hu
    obtain ⟨w, hw, heq⟩ := reach_of_mem_written hu
    exact Visit.node_injective heq ▸ hw
  · intro hu
    obtain ⟨n, hfills, hwritten⟩ := fills_of_writes h hu
    exact hwritten _ (node_mem_written hfills)

/-- Everything that is held is written where the payloads of what is written are written too. -/
theorem writes_of_holds {v u : Visit} (hfilter : opts.filter = none) (h : v.Fills ctx opts fuel)
    (hpayloads : ∀ w, ReflTransGen (ctx.Writes opts) v w → ∀ d ∈ ctx.payloadDefinitions w,
      ReflTransGen (ctx.Writes opts) v d) (hu : ReflTransGen ctx.Holds v u) :
    ReflTransGen (ctx.Writes opts) v u := by
  induction hu with
  | refl => exact .refl
  | @tail u w _ huw ih =>
    obtain ⟨n, hfills, -⟩ := fills_of_writes h ih
    obtain ⟨k, inner, rfl, -⟩ := inside_of_fills huw.canHold.2 hfills
    rcases mem_writtenIn_or_payload hfilter hfills huw with hwritten | hpayload
    · exact .tail ih hwritten
    · exact hpayloads u ih w hpayload

theorem mem_payloadDefinitions_decl {id : DeclId} {u : Visit} :
    u ∈ ctx.payloadDefinitions (.decl id) ↔ ∃ d, ctx.decl? id = some d ∧ u ∈ d.payload.definitions := by
  rw [payloadDefinitions]
  cases ctx.decl? id <;> simp

theorem mem_payloadDefinitions_stmt {id : StmtId} {u : Visit} :
    u ∈ ctx.payloadDefinitions (.stmt id) ↔ ∃ s, ctx.stmt? id = some s ∧ u ∈ s.payload.definitions := by
  rw [payloadDefinitions]
  cases ctx.stmt? id <;> simp

theorem holds_of_mem_payload {v u : Visit} (h : u ∈ ctx.payloadDefinitions v) : ctx.Holds v u := by
  cases v with
  | decl id =>
    obtain ⟨d, hd, hu⟩ := mem_payloadDefinitions_decl.mp h
    exact ⟨ctx.insideDecl d, congrArg (Option.map ctx.insideDecl) hd, List.mem_append_right _ hu⟩
  | stmt id =>
    obtain ⟨s, hs, hu⟩ := mem_payloadDefinitions_stmt.mp h
    exact ⟨_, congrArg (Option.map _) hs, List.mem_append_right _ hu⟩
  | type | comment => cases h

theorem family_of_mem_payload {v u : Visit} (h : u ∈ ctx.payloadDefinitions v) :
    u.family = .decl ∨ u.family = .stmt := by
  cases v with
  | decl id =>
    obtain ⟨d, -, hu⟩ := mem_payloadDefinitions_decl.mp h
    exact family_of_mem_declDefinitions hu
  | stmt id =>
    obtain ⟨s, -, hu⟩ := mem_payloadDefinitions_stmt.mp h
    exact .inl (family_of_mem_stmtDefinitions hu)
  | type | comment => cases h

/-- What a payload defines is written if a level of the kind reads the payload. -/
theorem writes_of_readsPayload {v u : Visit} (hreads : ctx.ReadsPayload opts v)
    (h : u ∈ ctx.payloadDefinitions v) (opts' : Options) : ctx.Writes opts' v u := by
  cases v with
  | decl id =>
    obtain ⟨d, hd, hu⟩ := mem_payloadDefinitions_decl.mp h
    have hp := List.ne_nil_of_mem hu
    obtain ⟨level, hlevel, hread⟩ := hreads d hd hp
    rw [Writes, writtenIn, hd, Option.elim_some, writtenInDecl,
      if_pos (exists_home_of_readsDecl ctx opts hp hlevel hread)]
    exact List.mem_append_right _ hu
  | stmt id =>
    obtain ⟨s, hs, hu⟩ := mem_payloadDefinitions_stmt.mp h
    have hp := List.ne_nil_of_mem hu
    obtain ⟨level, hlevel, hread⟩ := hreads s hs hp
    rw [Writes, writtenIn, hs, Option.elim_some, writtenInStmt,
      if_pos (exists_home_of_readsStmt ctx hp hlevel hread)]
    exact List.mem_append_right _ hu
  | type | comment => cases h

/-- Every node that is held is in its arena if it is written inside one that can be filled. -/
theorem inside_of_reach {id : DeclId} (h : (Visit.decl id).Fills ctx opts fuel)
    (hwritten : ∀ u, ReflTransGen ctx.Holds (.decl id) u → ReflTransGen (ctx.Writes opts) (.decl id) u)
    {u : Visit} (hu : ReflTransGen ctx.Holds (.decl id) u) : (ctx.inside? u).isSome := by
  by_cases hfamily : u.family = .type
  · cases u with
    | type t =>
      rcases hu.cases_tail with hroot | ⟨w, -, hw⟩
      · cases hroot
      · rw [inside?, Option.isSome_map]
        exact isSome_type?_of_holds hw
    | decl | stmt | comment => cases hfamily
  · obtain ⟨n, hfills, -⟩ := fills_of_writes h (hwritten u hu)
    obtain ⟨k, inner, -, hinner⟩ := inside_of_fills hfamily hfills
    rw [hinner]
    rfl

end Context

end Fills

namespace Session

/-- The nodes of a document with raw identities are those that are written inside its unit. -/
theorem mem_nodes_of_write {ctx : Context} {root : DeclId} {opts : Options} {s s' : Session}
    {r : Recorder} (hraw : opts.identityMode = .raw)
    (h : s.write ctx root opts ({} : Recorder) = (.ok (), s', r)) :
    ∃ v : Value, r.document? = some v ∧ (Visit.decl root).Fills ctx opts ctx.nestingBound
      ∧ ∀ u : Visit, u.node.pointer ∈ v.nodes
        ↔ ReflTransGen (ctx.Writes opts) (.decl root) u := by
  obtain ⟨v, hv, hnodes, hfills⟩ := nodes_of_write hraw h
  refine ⟨v, hv, hfills, fun u => ?_⟩
  have hpresent : u.node.pointer ∉ placeholders := by
    rw [NodeRef.pointer_mem_placeholders]
    cases u <;> exact Bool.false_ne_true
  rw [← Context.mem_written_iff hfills]
  constructor
  · intro hu
    have hfiltered : u.node.pointer ∈ v.nodes.filter fun p => p ∉ placeholders :=
      List.mem_filter.mpr ⟨hu, decide_eq_true hpresent⟩
    rw [hnodes] at hfiltered
    obtain ⟨n, hn, heq⟩ := List.mem_map.mp hfiltered
    exact NodeRef.pointer_injective heq ▸ hn
  · intro hu
    have hfiltered : u.node.pointer ∈ v.nodes.filter fun p => p ∉ placeholders := by
      rw [hnodes]
      exact List.mem_map_of_mem hu
    exact (List.mem_filter.mp hfiltered).1

end Session

/-! ### Indexes of documents -/

namespace Index

/-- Every declaration and statement of an index is a node of the document. -/
structure Within (x : Index) (v : Value) : Prop where
  decls : ∀ i d, x.decl? i = some d → (NodeRef.decl d).pointer ∈ v.nodes
  stmts : ∀ i id, x.stmt? i = some id → (NodeRef.stmt id).pointer ∈ v.nodes

variable {ctx : Context} {root : DeclId} {opts : Options}

/-- What is reached is entered, and so it is a node of the document. -/
theorem Within.mem_nodes {y : Index} {v : Value} (h : y.Within v) (hy : ofUnit ctx root = .ok y)
    {u : Visit} (hu : ReflTransGen ctx.Holds (.decl root) u)
    (hfamily : u.family = .decl ∨ u.family = .stmt) : u.node.pointer ∈ v.nodes := by
  obtain ⟨hdecls, hstmts, -⟩ := tabulates_of_build hy
  cases u with
  | decl d => exact h.decls _ d ((hdecls.getElem? _ d).mpr ⟨hu, rfl⟩)
  | stmt id => exact h.stmts _ id ((hstmts.getElem? _ id).mpr ⟨hu, rfl⟩)
  | type | comment => rcases hfamily with hfamily | hfamily <;> cases hfamily

/-- A translation unit that some writer has accepted is indexed, and its index has no declaration or
statement that the document does not have, exactly if the document has what the payloads of its nodes
define. That is so where every such payload is read by a level of the kind of its node. -/
theorem indexed_iff_payloads_written {σ : Type} [DocumentWriter σ] {s s' : Session} {w w' : σ}
    (hacyclic : ctx.Acyclic (.decl root)) (hfilter : opts.filter = none)
    (h : s.write ctx root opts w = (.ok (), s', w')) :
    ∃ (s'' : Session) (r : Recorder) (v : Value),
      Session.record ctx root opts .raw = (.ok (), s'', r) ∧ r.document? = some v ∧
      ((∃ y, ofUnit ctx root = .ok y ∧ y.Within v) ↔ ∀ u : Visit, u.node.pointer ∈ v.nodes →
        ∀ d ∈ ctx.payloadDefinitions u, d.node.pointer ∈ v.nodes) ∧
      ((∀ u : Visit, u.node.pointer ∈ v.nodes → ctx.ReadsPayload opts u) →
        ∃ y, ofUnit ctx root = .ok y ∧ y.Within v) := by
  obtain ⟨s'', r, hrecord⟩ := Session.exists_record_of_write h
  obtain ⟨v, hv, hfills, hnodes⟩ := Session.mem_nodes_of_write rfl hrecord
  obtain ⟨d, hd, hunit⟩ := Session.exists_unit_of_write h
  have hiff : (∃ y, ofUnit ctx root = .ok y ∧ y.Within v) ↔ ∀ u : Visit, u.node.pointer ∈ v.nodes →
      ∀ d ∈ ctx.payloadDefinitions u, d.node.pointer ∈ v.nodes := by
    constructor
    · rintro ⟨y, hy, hwithin⟩ u hu d hd
      have hreach : ReflTransGen ctx.Holds (.decl root) u :=
        ReflTransGen.mono (fun _ _ => Context.Writes.holds ctx _) _ _ ((hnodes u).mp hu)
      exact hwithin.mem_nodes hy (hreach.tail (Context.holds_of_mem_payload hd))
        (Context.family_of_mem_payload hd)
    · intro hpayloads
      have hwritten : ∀ u, ReflTransGen ctx.Holds (.decl root) u →
          ReflTransGen (ctx.Writes { opts with identityMode := .raw }) (.decl root) u := by
        refine fun u => Context.writes_of_holds hfilter hfills fun w hw d hd => ?_
        exact (hnodes d).mp (hpayloads w ((hnodes w).mpr hw) d hd)
      obtain ⟨y, hy⟩ := exists_ofUnit hd hunit hacyclic fun u => Context.inside_of_reach hfills hwritten
      obtain ⟨hdecls, hstmts, -⟩ := tabulates_of_build hy
      refine ⟨y, hy, fun i d hi => ?_, fun i id hi => ?_⟩
      · exact (hnodes (.decl d)).mpr (hwritten _ ((hdecls.getElem? i d).mp hi).1)
      · exact (hnodes (.stmt id)).mpr (hwritten _ ((hstmts.getElem? i id).mp hi).1)
  refine ⟨s'', r, v, hrecord, hv, hiff, fun hreads => hiff.mpr fun u hu d hd => ?_⟩
  exact (hnodes d).mpr
    (((hnodes u).mp hu).tail (Context.writes_of_readsPayload (hreads u hu) hd _))

open Session (functionUnit)

/-- The whole function is indexed, and the index has nothing but the document. -/
theorem indexed_iff_payloads_written_functionUnit :
    ∃ (s' : Session) (r : Recorder) (v : Value) (y : Index),
      functionUnit.Acyclic (.decl ⟨0⟩) ∧
      ({} : Session).write functionUnit ⟨0⟩ { identityMode := .raw } ({} : Recorder) = (.ok (), s', r) ∧
      r.document? = some v ∧ ofUnit functionUnit ⟨0⟩ = .ok y ∧ y.Within v := by
  obtain ⟨s', r, hwrite⟩ := Session.exists_write_functionUnit
  have hwalked := Context.walked_of_walk Session.walk_functionUnit
  have hacyclic := Context.acyclic_of_walk Session.walk_functionUnit
  obtain ⟨s'', r', v, hrecord, hv, -, hindexed⟩ :=
    indexed_iff_payloads_written hacyclic rfl hwrite
  cases hwrite.symm.trans hrecord
  obtain ⟨v', hv', -, hnodes⟩ := Session.mem_nodes_of_write rfl hwrite
  cases hv.symm.trans hv'
  have hreads : ∀ u : Visit, u.node.pointer ∈ v.nodes →
      functionUnit.ReadsPayload { identityMode := .raw } u := by
    intro u hu
    have hreach := ReflTransGen.mono (fun _ _ => Context.Writes.holds functionUnit _) _ _
      ((hnodes u).mp hu)
    exact Session.readsPayload_functionUnit u
      ((hwalked.mem_iff u).mpr ⟨_, List.mem_singleton.mpr rfl, hreach⟩)
  obtain ⟨y, hy, hwithin⟩ := hindexed hreads
  exact ⟨s', r, v, y, hacyclic, hwrite, hv, hy, hwithin⟩

/-- A translation unit with an empty declaration that has the payload of a variable, and with a
statement that is not in the document. -/
def strayUnit (init : StmtId) : Context where
  decls := #[{ kind := .translationUnit, context := some { decls := [⟨1⟩] } },
    { kind := .empty, payload := .var { init := some init } }]
  stmts := #[{ kind := .nullStmt }]

theorem acyclic_strayUnit (init : StmtId) (v : Visit) : (strayUnit init).Acyclic v := by
  refine Context.acyclic_of_ranks (fun v => if v.family = .decl then 2 - v.index else 0) ?_ ?_ ?_ v
  · intro i hi w hw
    match i, hi with
    | 0, _ =>
      rw [List.mem_singleton.mp hw]
      decide
    | 1, _ =>
      rw [List.mem_singleton.mp hw]
      exact Nat.zero_lt_one
  · intro i hi w hw
    obtain rfl := Nat.lt_one_iff.mp hi
    cases hw
  · intro i hi
    cases hi

/-- No level of an empty declaration reads the payload, so its statement is not in the document. An
index follows it nonetheless. -/
theorem stray_payload_indexed :
    ((strayUnit ⟨7⟩).Acyclic (.decl ⟨0⟩) ∧
      (Session.record (strayUnit ⟨7⟩) ⟨0⟩ {} .raw).1 = .ok () ∧
      ofUnit (strayUnit ⟨7⟩) ⟨0⟩ = .error (.walk (.missing (.stmt ⟨7⟩)))) ∧
    (strayUnit ⟨0⟩).Acyclic (.decl ⟨0⟩) ∧
    (Session.record (strayUnit ⟨0⟩) ⟨0⟩ {} .raw).1 = .ok () ∧
    (Session.record (strayUnit ⟨0⟩) ⟨0⟩ {} .raw).2.2.document?.map Value.nodes
      = some ["0x10000000000", "0x10000000010", "0x0"] ∧
    ∃ y, ofUnit (strayUnit ⟨0⟩) ⟨0⟩ = .ok y ∧ y.stmtOfText? "0x20000000000" = some ⟨0⟩ := by
  have hindex : ∃ y, ofUnit (strayUnit ⟨0⟩) ⟨0⟩ = .ok y := ⟨_, rfl⟩
  obtain ⟨y, hy⟩ := hindex
  refine ⟨⟨acyclic_strayUnit _ _, ?_, rfl⟩, acyclic_strayUnit _ _, ?_, ?_, y, hy, ?_⟩
  · decide +kernel
  · decide +kernel
  · decide +kernel
  · refine (stmtOfText?_iff hy _ _).mpr ⟨by decide, ?_⟩
    have hempty : (strayUnit ⟨0⟩).Holds (.decl ⟨0⟩) (.decl ⟨1⟩) := ⟨_, rfl, List.mem_cons_self⟩
    exact .tail (.single hempty) ⟨_, rfl, List.mem_cons_self⟩

end Index

end SyntaxExport
