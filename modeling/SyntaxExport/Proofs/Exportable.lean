import SyntaxExport.Proofs.Exportable.Nodes
import SyntaxExport.Proofs.Visits

/-!
# Documents of complete nodes

A session writes a translation unit exactly if everything that is exported inside the unit is complete,
and otherwise it ends with the fault of a node (`Session.write_ok_iff_exportable`).

What is exported inside a node and what the layout of the node defines is the same where the node is
complete, so the sites that are reached are those of the nodes that are reached. The tree of the unit is
made of the layouts of these sites, and each of them has a fault exactly if its node is not complete.
-/

namespace SyntaxExport

open Relation (ReflTransGen)
open ScopedWriter (scopes Reliable)

/-! ### Payloads and the levels that define nodes -/

/-- A level that reads a payload with definitions is the one that defines them, or below it. -/
theorem DeclPayload.exists_home_of_accepts {p : DeclPayload} {level : DeclKind}
    {accepts : DeclPayload → Bool} (hlevel : level.accepts? = some accepts) (haccepts : accepts p)
    (hp : p.definitions ≠ []) : ∃ home, p.home? = some home ∧ home ∈ NodeKind.lineage level := by
  cases level <;> cases hlevel <;> beta_reduce at haccepts <;> split at haccepts
  all_goals first | exact absurd rfl hp | exact ⟨_, rfl, by decide⟩ | cases haccepts

theorem DeclPayload.exists_accepts_of_home {p : DeclPayload} {home : DeclKind}
    (h : p.home? = some home) : ∃ accepts, home.accepts? = some accepts ∧ accepts p := by
  cases p <;> cases h <;> exact ⟨_, rfl, rfl⟩

theorem StmtPayload.mem_homes_of_accepts {p : StmtPayload} {level : StmtKind}
    {accepts : StmtPayload → Bool} (hlevel : level.accepts? = some accepts) (haccepts : accepts p)
    (hp : p.definitions ≠ []) : level ∈ p.homes := by
  cases p
  case decls | catchParam | ownedDecl =>
    cases level <;> cases hlevel <;> first | (simp [homes]; done) | cases haccepts
  all_goals exact absurd rfl hp

theorem StmtPayload.exists_accepts_of_home {p : StmtPayload} {home : StmtKind}
    (h : home ∈ p.homes) : ∃ accepts, home.accepts? = some accepts ∧ accepts p := by
  cases p
  case decls | catchParam | ownedDecl =>
    simp only [homes, List.mem_cons, List.not_mem_nil, or_false] at h
    rcases h with rfl | rfl <;> exact ⟨_, rfl, rfl⟩
  all_goals cases h

theorem DeclPayload.ne_type_of_mem {p : DeclPayload} {v : Visit} (h : v ∈ p.definitions)
    (t : TypeId) : v ≠ .type t := by
  rintro rfl
  cases p <;> simp [definitions, Visit.stmts] at h

theorem StmtPayload.ne_type_of_mem {p : StmtPayload} {v : Visit} (h : v ∈ p.definitions)
    (t : TypeId) : v ≠ .type t := by
  rintro rfl
  cases p
  case catchParam d | ownedDecl d => cases d <;> simp [definitions] at h
  all_goals simp [definitions] at h

/-! ### Exported nodes -/

/-- Every node but a type has a site. -/
theorem Visit.exists_site {v : Visit} (h : ∀ t, v ≠ .type t) : ∃ s : Site, s.visit? = some v := by
  cases v with
  | decl id => exact ⟨.decl (some id), rfl⟩
  | stmt id => exact ⟨.stmt (some id), rfl⟩
  | comment id => exact ⟨.comment (some id), rfl⟩
  | type id => exact absurd rfl (h id)

namespace Context

variable {ctx : Context} {opts : Options} {v w : Visit}

theorem Exports.ne_type (h : ctx.Exports opts v w) (t : TypeId) : w ≠ .type t := by
  cases h with
  | comment | child | operand | part => nofun
  | declPayload _ _ _ _ hw => exact DeclPayload.ne_type_of_mem hw t
  | stmtPayload _ _ _ _ hw => exact StmtPayload.ne_type_of_mem hw t

theorem writes_decl_iff {id : DeclId} {d : Decl} (hd : ctx.decl? id = some d) :
    ctx.Writes opts (.decl id) w ↔ w ∈ ctx.writtenInDecl opts d := by
  rw [Writes, writtenIn, hd]
  rfl

theorem writes_stmt_iff {id : StmtId} {s : Stmt} (hs : ctx.stmt? id = some s) :
    ctx.Writes opts (.stmt id) w ↔ w ∈ ctx.writtenInStmt s := by
  rw [Writes, writtenIn, hs]
  rfl

theorem writes_comment_iff {id : CommentId} {c : Comment} (hc : ctx.comment? id = some c) :
    ctx.Writes opts (.comment id) w ↔ w ∈ ctx.writtenInComment c := by
  rw [Writes, writtenIn, hc]
  rfl

theorem exists_kept_of_mem_writtenChildren {d : Decl} (h : w ∈ ctx.writtenChildren opts d) :
    ∃ c child, w = .decl c ∧ c ∈ (d.context.getD {}).decls ∧ ctx.decl? c = some child ∧
      opts.keeps ctx child = .ok true := by
  rw [writtenChildren] at h
  split at h
  · cases h
  · next kept hkept =>
    obtain ⟨c, hc, rfl⟩ := List.mem_map.mp h
    obtain ⟨hlisted, child, hchild, hkeep⟩ := (mem_keptChildren ctx opts hkept).mp hc
    exact ⟨c, child, rfl, hlisted, hchild, hkeep⟩

theorem exists_child_of_mem_writtenStmts {s : Stmt} (h : w ∈ ctx.writtenStmts s) :
    ∃ c, w = .stmt c ∧ some c ∈ s.children := by
  rw [writtenStmts] at h
  split at h
  · cases h
  · obtain ⟨child, hchild, hvisit⟩ := List.mem_filterMap.mp h
    obtain ⟨c, rfl, rfl⟩ := Option.map_eq_some_iff.mp hvisit
    exact ⟨c, rfl, hchild⟩

/-- The children of a complete declaration are all in the context, so none of them keeps the others
from being written. -/
theorem exists_keptChildren_of_complete (hknown : ctx.KnowsLocations)
    (hfilter : ∀ f ∈ opts.filter, f.Decides) {d : Decl} (hd : d.Complete ctx)
    (hcontext : d.kind.isDeclContext) :
    ∃ kept, Layout.keptChildren ctx opts (d.context.getD {}).decls = .ok kept := by
  have hranges : ∀ d ∈ ctx.decls, ctx.KnowsRange d.range := fun d hd => (hknown.decls d hd).1
  rcases Layout.keptChildren_cases hranges hfilter (d.context.getD {}).decls with
    ⟨kept, hkept, -⟩ | ⟨i, hi, hnone, -⟩
  · exact ⟨kept, hkept⟩
  · have hsome := hd.children hcontext i hi
    rw [hnone] at hsome
    cases hsome

/-- What is written inside a node is exported inside it, unless it is a type. -/
theorem exports_of_writes (h : ctx.Writes opts v w) (hw : ∀ t, w ≠ .type t) :
    ctx.Exports opts v w := by
  obtain ⟨inner, hinner, -⟩ := h.holds
  cases v with
  | decl id =>
    obtain ⟨d, hd, -⟩ := Option.map_eq_some_iff.mp hinner
    have hmem := (writes_decl_iff hd).mp h
    simp only [writtenInDecl, List.mem_append] at hmem
    rcases hmem with ((hcomment | hchild) | htype) | hdefinition
    · obtain ⟨c, hc, rfl⟩ := List.mem_map.mp hcomment
      exact .comment hd (Option.mem_toList.mp hc)
    · split at hchild
      · next hcontext =>
        obtain ⟨c, child, rfl, hlisted, hdecl, hkeep⟩ := exists_kept_of_mem_writtenChildren hchild
        exact .child hd hcontext hlisted hdecl hkeep
      · cases hchild
    · split at htype
      · obtain ⟨t, -, ht⟩ := List.mem_map.mp (ctx.writtenTypes_sublist.subset htype)
        exact absurd ht.symm (hw t)
      · cases htype
    · split at hdefinition
      · next hhome =>
        obtain ⟨level, hlevel, hhome⟩ := hhome
        obtain ⟨accepts, haccepts, hpayload⟩ := DeclPayload.exists_accepts_of_home hhome
        exact .declPayload hd hlevel haccepts hpayload hdefinition
      · cases hdefinition
  | stmt id =>
    obtain ⟨s, hs, -⟩ := Option.map_eq_some_iff.mp hinner
    rcases List.mem_append.mp ((writes_stmt_iff hs).mp h) with hchild | hdefinition
    · obtain ⟨c, rfl, hc⟩ := exists_child_of_mem_writtenStmts hchild
      exact .operand hs hc
    · split at hdefinition
      · next hhome =>
        obtain ⟨level, hlevel, hhome⟩ := hhome
        obtain ⟨accepts, haccepts, hpayload⟩ := StmtPayload.exists_accepts_of_home hhome
        exact .stmtPayload hs hlevel haccepts hpayload hdefinition
      · cases hdefinition
  | type id => cases h
  | comment id =>
    obtain ⟨c, hc, -⟩ := Option.map_eq_some_iff.mp hinner
    have hmem := (writes_comment_iff hc).mp h
    rw [writtenInComment] at hmem
    split at hmem
    · cases hmem
    · obtain ⟨child, hchild, hvisit⟩ := List.mem_filterMap.mp hmem
      obtain ⟨i, rfl, rfl⟩ := Option.map_eq_some_iff.mp hvisit
      exact .part hc hchild

/-- What is exported inside a complete node is written inside it. -/
theorem writes_of_exports (hknown : ctx.KnowsLocations) (hfilter : ∀ f ∈ opts.filter, f.Decides)
    (h : ctx.Exports opts v w) (hv : ctx.HasComplete v) : ctx.Writes opts v w := by
  cases h with
  | @comment id d c hd hc =>
    rw [writes_decl_iff hd]
    simp [writtenInDecl, hc]
  | @child id c d child hd hcontext hc hchild hkeep =>
    obtain ⟨d', hd', hcomplete⟩ := hv
    cases hd.symm.trans hd'
    obtain ⟨kept, hkept⟩ := exists_keptChildren_of_complete hknown hfilter hcomplete hcontext
    have hmem : c ∈ kept := (mem_keptChildren ctx opts hkept).mpr ⟨hc, child, hchild, hkeep⟩
    rw [writes_decl_iff hd]
    simp [writtenInDecl, hcontext, writtenChildren, hkept, hmem]
  | @declPayload id d level accepts u hd hlevel haccepts hpayload hu =>
    obtain ⟨home, hhome, hmem⟩ :=
      DeclPayload.exists_home_of_accepts haccepts hpayload (List.ne_nil_of_mem hu)
    have hread : ∃ level ∈ NodeKind.lineage d.kind, d.payload.home? = some level :=
      ⟨home, NodeKind.mem_lineage_trans hlevel hmem, hhome⟩
    rw [writes_decl_iff hd, writtenInDecl, if_pos hread]
    exact List.mem_append_right _ hu
  | @operand id c s hs hc =>
    obtain ⟨s', hs', hcomplete⟩ := hv
    cases hs.symm.trans hs'
    rw [writes_stmt_iff hs, writtenInStmt, ctx.writtenStmts_eq hcomplete.children]
    exact List.mem_append_left _ (List.mem_filterMap.mpr ⟨some c, hc, rfl⟩)
  | @stmtPayload id s level accepts u hs hlevel haccepts hpayload hu =>
    have hread : ∃ level ∈ NodeKind.lineage s.kind, level ∈ s.payload.homes :=
      ⟨level, hlevel, StmtPayload.mem_homes_of_accepts haccepts hpayload (List.ne_nil_of_mem hu)⟩
    rw [writes_stmt_iff hs, writtenInStmt, if_pos hread]
    exact List.mem_append_right _ hu
  | @part id i c hc hi =>
    obtain ⟨c', hc', hcomplete⟩ := hv
    cases hc.symm.trans hc'
    rw [writes_comment_iff hc, ctx.writtenInComment_eq hcomplete.children]
    exact List.mem_filterMap.mpr ⟨some i, hi, rfl⟩

theorem isConcrete_of_hasComplete (h : ctx.HasComplete v) : ctx.IsConcrete v := by
  cases v with
  | decl id =>
    obtain ⟨d, hd, hcomplete⟩ := h
    rintro d' hd'
    cases hd.symm.trans hd'
    exact hcomplete.concrete
  | stmt id =>
    obtain ⟨s, hs, hcomplete⟩ := h
    rintro s' hs'
    cases hs.symm.trans hs'
    exact hcomplete.concrete
  | type id => trivial
  | comment id =>
    obtain ⟨c, hc, hcomplete⟩ := h
    rintro c' hc'
    cases hc.symm.trans hc'
    exact hcomplete.concrete

end Context

/-! ### Sites that are reached -/

namespace Site

variable {ctx : Context} {opts : Options} {root : DeclId} {u : Site} {w : Visit}

/-- What is defined inside a translation unit is exported inside it. -/
theorem exports_of_reach (h : ReflTransGen (Defines ctx opts) (.decl (some root)) u)
    (hu : u.visit? = some w) : ReflTransGen (ctx.Exports opts) (.decl root) w := by
  induction h generalizing w with
  | refl =>
    cases hu
    exact .refl
  | tail _ hdefines ih =>
    obtain ⟨v, hv, -⟩ := exists_visit_of_defines hdefines
    have hwrites := writes_of_defines hdefines hv hu
    exact .tail (ih hv) (Context.exports_of_writes hwrites (ne_type_of_visit? hu))

/-- What is exported inside a translation unit is defined inside it, if what is defined is complete. -/
theorem exists_reach_of_exports (hknown : ctx.KnowsLocations) (hfilter : ∀ f ∈ opts.filter, f.Decides)
    (hcomplete : ∀ u, ReflTransGen (Defines ctx opts) (.decl (some root)) u →
      ∀ v ∈ u.visit?, ctx.HasComplete v)
    (h : ReflTransGen (ctx.Exports opts) (.decl root) w) :
    ∃ u, ReflTransGen (Defines ctx opts) (.decl (some root)) u ∧ u.visit? = some w := by
  induction h with
  | refl => exact ⟨.decl (some root), .refl, rfl⟩
  | tail _ hexports ih =>
    obtain ⟨s, hs, hv⟩ := ih
    obtain ⟨u, hu⟩ := Visit.exists_site hexports.ne_type
    have hnode := hcomplete s hs _ hv
    have hwrites := Context.writes_of_exports hknown hfilter hexports hnode
    exact ⟨u, .tail hs (defines_of_writes hwrites (Context.isConcrete_of_hasComplete hnode) hv hu), hu⟩

end Site

/-- A translation unit can be exported exactly if none of the layouts that are defined inside it has a
fault. -/
theorem Context.exportable_iff_allowed {ctx : Context} {opts : Options} {root : DeclId} {d : Decl}
    (hknown : ctx.KnowsLocations) (hfilter : ∀ f ∈ opts.filter, f.Decides)
    (hroot : ctx.decl? root = some d) (hunit : d.kind = .translationUnit) :
    ctx.Exportable opts root ↔ ∀ u, ReflTransGen (Site.Defines ctx opts) (.decl (some root)) u →
      (u.layout ctx opts).Allowed ctx False := by
  constructor
  · intro h u hu
    refine (u.allowed_layout hknown hfilter).mpr (.inr fun v hv => ⟨?_, ?_⟩)
    · exact h.nodes v (Site.exports_of_reach hu hv)
    · cases v with
      | decl id => exact fun _ _ _ => h.types
      | stmt | type | comment => trivial
  · intro h
    have hcomplete : ∀ u, ReflTransGen (Site.Defines ctx opts) (.decl (some root)) u →
        ∀ v ∈ u.visit?, ctx.HasComplete v ∧ ctx.ListsComplete v := fun u hu =>
      ((u.allowed_layout hknown hfilter).mp (h u hu)).resolve_left not_false
    refine ⟨(hcomplete _ .refl _ rfl).2 d hroot hunit, fun v hv => ?_⟩
    obtain ⟨u, hu, huv⟩ := Site.exists_reach_of_exports hknown hfilter
      (fun u hu v hv => (hcomplete u hu v hv).1) hv
    exact (hcomplete u hu v huv).1

namespace Session

/-- In a fresh writer a session writes a translation unit exactly if the unit can be exported, and
otherwise it ends with the fault of a node. So no type or file is ever looked up without a check and
not found (`.unknownType`, `.unknownFile`), wherever the references of the nodes lead. Of a filter it is
asked that it decides about declarations in known files (`DeclFilter.skipFiles_decides`). -/
theorem write_ok_iff_exportable {σ : Type} [ScopedWriter σ] {ctx : Context} {opts : Options}
    {root : DeclId} {d : Decl} {w : σ} (hw : Reliable w) (hfresh : scopes w = {})
    (hvalid : opts.validate = .ok ()) (hroot : ctx.decl? root = some d)
    (hunit : d.kind = .translationUnit) (hknown : ctx.KnowsLocations)
    (hfilter : ∀ f ∈ opts.filter, f.Decides) (hacyclic : ctx.Acyclic (.decl root)) (s : Session)
    (hs : s.inUse = false) :
    ((s.write ctx root opts w).1 = .ok () ↔ ctx.Exportable opts root) ∧
      ∀ e, (s.write ctx root opts w).1 = .error e → e.IsNodeFault := by
  have hcheck := Options.check_of_translationUnit hvalid hroot hunit
  have hfaults : ∀ u, ReflTransGen (Site.Defines ctx opts) (.decl (some root)) u →
      (u.layout ctx opts).Allowed ctx True := fun u _ =>
    (u.allowed_layout hknown hfilter).mpr (.inl trivial)
  rw [Context.exportable_iff_allowed hknown hfilter hroot hunit]
  cases hfill : (Site.tree ctx opts ctx.nestingBound (.decl (some root))).fill ctx opts
      ⟨{}, s.identities⟩ with
  | ok x =>
    obtain ⟨w₁, w', -, -, hwrite⟩ := write_of_fill hw hfresh hs hcheck hfill
    have hfaultless := Tree.faultless_of_fill hfill
    rw [hwrite]
    refine ⟨iff_of_true rfl fun u hu => ?_, nofun⟩
    exact Layout.allowed_of_faultless (hfaults u hu) (Site.faultless_of_reach hfaultless hu)
  | error e =>
    have hfault := (isNodeFault_of_fill hacyclic hfaults hfill).2
    rw [write_of_fill_error hw hfresh hs hcheck hfill]
    refine ⟨iff_of_false nofun fun hallowed => ?_, ?_⟩
    · exact (isNodeFault_of_fill hacyclic hallowed hfill).1
    · rintro _ ⟨⟩
      exact hfault

/-- The unit `functionUnit` with a type that has no payload. -/
def untypedUnit : Context :=
  { functionUnit with types := #[{ kind := .builtin, spelling := "int" }] }

/-- The unit is written and can be exported; without the payload of its type it is not and cannot. -/
theorem write_ok_iff_exportable_functionUnit :
    functionUnit.KnowsLocations ∧ functionUnit.Acyclic (.decl ⟨0⟩) ∧
      functionUnit.Exportable { identityMode := .raw } ⟨0⟩ ∧
    untypedUnit.KnowsLocations ∧ untypedUnit.Acyclic (.decl ⟨0⟩) ∧
      ¬ untypedUnit.Exportable { identityMode := .raw } ⟨0⟩ := by
  have hknown : functionUnit.KnowsLocations := ⟨by decide, by decide, by decide, by decide⟩
  have huntyped : untypedUnit.KnowsLocations := ⟨by decide, by decide, by decide, by decide⟩
  have hacyclic := Context.acyclic_of_walk walk_functionUnit
  have hwalk : untypedUnit.walk ⟨0⟩ = .ok functionVisits := rfl
  have hacyclic' := Context.acyclic_of_walk hwalk
  have hfilter : ∀ f ∈ ({ identityMode := .raw } : Options).filter, f.Decides := by
    rintro f ⟨⟩
  refine ⟨hknown, hacyclic, ?_, huntyped, hacyclic', ?_⟩
  · obtain ⟨s', r, h⟩ := exists_write_functionUnit
    have hiff : (({} : Session).write functionUnit ⟨0⟩ { identityMode := .raw } ({} : Recorder)).1
        = .ok () ↔ functionUnit.Exportable { identityMode := .raw } ⟨0⟩ :=
      (write_ok_iff_exportable trivial rfl rfl rfl rfl hknown hfilter hacyclic {} rfl).1
    exact hiff.mp (congrArg Prod.fst h)
  · have herror : (({} : Session).write untypedUnit ⟨0⟩ { identityMode := .raw } ({} : Recorder)).1
        = .error (.missingPayload "BuiltinType" "builtin kind") := by
      decide +kernel
    have hiff : (({} : Session).write untypedUnit ⟨0⟩ { identityMode := .raw } ({} : Recorder)).1
        = .ok () ↔ untypedUnit.Exportable { identityMode := .raw } ⟨0⟩ :=
      (write_ok_iff_exportable trivial rfl rfl rfl rfl huntyped hfilter hacyclic' {} rfl).1
    intro hexportable
    cases herror.symm.trans (hiff.mpr hexportable)

end Session

end SyntaxExport
