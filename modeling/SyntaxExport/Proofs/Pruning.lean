import SyntaxExport.Proofs.Layout.WellFormed
import SyntaxExport.Session

/-!
# Skipped files

A filter drops children in the middle of a pass, where sizes are declared before the parts follow and
where every location and every number depends on all that was written before. `Context.prune` takes
the same children out of the context beforehand. `Session.write_skipFiles_eq_prune` says that nothing
tells the two apart: a document that is written with the filter is the document of the pruned context,
call by call, and leaves the session and the writer as that one does.
-/

namespace SyntaxExport

/-- The declaration without some of the children of its context. -/
def Decl.dropChildren (drops : DeclId → Bool) (d : Decl) : Decl :=
  { d with context := d.context.map fun c => { c with decls := c.decls.filter fun id => !drops id } }

namespace Context

/-- Whether a declaration is in the context and its range begins in one of the named files. -/
def beginsIn (ctx : Context) (names : List String) (id : DeclId) : Bool :=
  match ctx.decl? id with
  | none => false
  | some d =>
    match d.range.file?.bind ctx.fileName? with
    | none => false
    | some name => names.contains name

/-- The context without the children whose range begins in one of the named files. -/
def prune (ctx : Context) (names : List String) : Context :=
  { ctx with decls := ctx.decls.map (Decl.dropChildren (ctx.beginsIn names)) }

/-- Every declaration begins in a file of the file table, unless its location is absent. -/
def KnowsFiles (ctx : Context) : Prop :=
  ∀ d ∈ ctx.decls, ∀ f, d.range.file? = some f → (ctx.fileName? f).isSome

variable (ctx : Context) (names : List String)

theorem decl?_prune (id : DeclId) : (ctx.prune names).decl? id
    = (ctx.decl? id).map (Decl.dropChildren (ctx.beginsIn names)) :=
  Array.getElem?_map

@[simp] theorem nestingBound_prune : (ctx.prune names).nestingBound = ctx.nestingBound := by
  simp [nestingBound, prune]

end Context

/-! ### Mentions -/

namespace Layout

variable (ctx : Context) (names : List String)

/-- A digest tells nothing about children. -/
@[simp] theorem declRef_prune : declRef (ctx.prune names) = declRef ctx := by
  funext id
  rw [declRef, declRef, Context.decl?_prune]
  cases ctx.decl? id <;> rfl

@[simp] theorem qualType_prune : qualType (ctx.prune names) = qualType ctx := rfl

@[simp] theorem attr_prune : attr (ctx.prune names) = attr ctx := rfl

@[simp] theorem memberInfo_prune : memberInfo (ctx.prune names) = memberInfo ctx := by
  funext isArrow id
  rw [memberInfo, memberInfo, Context.decl?_prune]
  cases ctx.decl? id <;> rfl

@[simp] theorem nestedNameSpecifier_prune :
    nestedNameSpecifier (ctx.prune names) = nestedNameSpecifier ctx := by
  funext s
  simp only [nestedNameSpecifier, declRef_prune]

@[simp] theorem ctorInitializer_prune :
    ctorInitializer (ctx.prune names) = ctorInitializer ctx := by
  have hsubject : initializerSubject (ctx.prune names) = initializerSubject ctx := by
    funext s
    cases s <;> simp only [initializerSubject, declRef_prune, qualType_prune]
  funext i
  rw [ctorInitializer, ctorInitializer, hsubject]

@[simp] theorem propertyAttribute_prune :
    propertyAttribute (ctx.prune names) = propertyAttribute ctx := by
  funext a
  cases a <;> simp only [propertyAttribute, declRef_prune]

@[simp] theorem propertyTarget_prune : propertyTarget (ctx.prune names) = propertyTarget ctx := by
  funext t
  cases t <;> simp only [propertyTarget, declRef_prune]

@[simp] theorem blockCapture_prune : blockCapture (ctx.prune names) = blockCapture ctx := by
  funext c
  simp only [blockCapture, declRef_prune]

/-! ### Statements and comments -/

theorem stmtPayload_prune (s : Stmt) (level : StmtKind) :
    stmtPayload (ctx.prune names) s level = stmtPayload ctx s level := by
  unfold stmtPayload
  split <;> simp only [attr_prune, qualType_prune, declRef_prune, memberInfo_prune, overloadInfo,
    lookupInfo, ivarRef, constructInfo, cleanupsInfo, messageInfo, receiver, propertyRefInfo,
    propertyTarget_prune]

theorem stmtLevel_prune (n : NodeRef) (s : Stmt) (level : StmtKind) :
    stmtLevel (ctx.prune names) n s level = stmtLevel ctx n s level := by
  unfold stmtLevel
  split
  · rfl
  · rfl
  · rw [stmtPayload_prune]

theorem stmtNode_prune (n : NodeRef) (s : Stmt) :
    stmtNode (ctx.prune names) n s = stmtNode ctx n s :=
  congrArg (node s.kind) (funext (stmtLevel_prune ctx names n s))

/-! ### Declarations -/

variable (drops : DeclId → Bool)

theorem declInfo_prune (n : NodeRef) (d : Decl) :
    declInfo (ctx.prune names) n (d.dropChildren drops) = declInfo ctx n d := rfl

theorem declaredType_prune (d : Decl) :
    declaredType (ctx.prune names) (d.dropChildren drops) = declaredType ctx d := rfl

theorem declPayload_prune (d : Decl) (level : DeclKind) :
    declPayload (ctx.prune names) (d.dropChildren drops) level = declPayload ctx d level := by
  have hpayload : (d.dropChildren drops).payload = d.payload := rfl
  have hkind : (d.dropChildren drops).kind = d.kind := rfl
  have hflags : (d.dropChildren drops).flags = d.flags := rfl
  unfold declPayload
  rw [hpayload, hkind, hflags]
  split <;> simp only [declRef_prune, qualType_prune, blockInfo, blockCapture_prune, namespaceInfo,
    functionInfo, ctorInitializer_prune, usingDirectiveInfo, nestedNameSpecifier_prune,
    namespaceAliasInfo, objCMethodInfo, objCCategoryInfo, objCCategoryImplInfo, objCInterfaceInfo,
    objCImplementationInfo, objCPropertyInfo, propertyAttribute_prune, objCPropertyImplInfo]

variable {ctx names} (opts : Options)

/-- The filter keeps the children that are left in the pruned context, and a child that is not in
the context ends both lists. -/
theorem keptChildren_prune (h : ctx.KnowsFiles) : ∀ ids : List DeclId,
    keptChildren (ctx.prune names) { opts with filter := none }
        (ids.filter fun id => !ctx.beginsIn names id)
      = keptChildren ctx { opts with filter := some (.skipFiles names) } ids
  | [] => rfl
  | id :: ids => by
    have ih := keptChildren_prune h ids
    cases hd : ctx.decl? id with
    | none =>
      have hbegins : ctx.beginsIn names id = false := by
        simp only [Context.beginsIn, hd]
      have hpruned : (ctx.prune names).decl? id = none := by
        rw [Context.decl?_prune, hd]
        rfl
      simp only [List.filter_cons, hbegins, Bool.not_false, if_true, keptChildren, hpruned, hd]
    | some d =>
      have hpruned : (ctx.prune names).decl? id = some (d.dropChildren (ctx.beginsIn names)) := by
        rw [Context.decl?_prune, hd]
        rfl
      -- what the filter says of the child is whether it is left in the pruned context
      have hkeeps : ({ opts with filter := some (.skipFiles names) } : Options).keeps ctx d
          = .ok (!ctx.beginsIn names id) := by
        have hbegins : ctx.beginsIn names id = match d.range.file?.bind ctx.fileName? with
            | none => false
            | some name => names.contains name := by
          simp only [Context.beginsIn, hd]
        simp only [Options.keeps, DeclFilter.skipFiles]
        cases hf : d.range.file? with
        | none => simp [hbegins, hf]
        | some f =>
          obtain ⟨name, hname⟩ := Option.isSome_iff_exists.mp
            (h d (Array.mem_of_getElem? hd) f hf)
          simp [hbegins, hf, hname]
      have hall : ({ opts with filter := none } : Options).keeps (ctx.prune names)
          (d.dropChildren (ctx.beginsIn names)) = .ok true := rfl
      cases hbegins : ctx.beginsIn names id with
      | true =>
        rw [hbegins] at hkeeps
        rw [List.filter_cons_of_neg (by simp [hbegins]), ih]
        simp only [keptChildren, hd, hkeeps]
        cases keptChildren ctx { opts with filter := some (.skipFiles names) } ids <;> rfl
      | false =>
        rw [hbegins] at hkeeps
        rw [List.filter_cons_of_pos (by simp [hbegins])]
        simp only [keptChildren, hpruned, hall, hd, hkeeps, ih]
        cases keptChildren ctx { opts with filter := some (.skipFiles names) } ids <;> rfl

theorem declContext_prune (h : ctx.KnowsFiles) (d : Decl) :
    declContext (ctx.prune names) { opts with filter := none }
        (d.dropChildren (ctx.beginsIn names))
      = declContext ctx { opts with filter := some (.skipFiles names) } d := by
  cases hc : d.context with
  | none => simp [declContext, Decl.dropChildren, hc, keptChildren]
  | some c =>
    simp only [declContext, Decl.dropChildren, hc, Option.map_some, Option.getD_some,
      keptChildren_prune opts h]

theorem declLevel_prune (h : ctx.KnowsFiles) (n : NodeRef) (d : Decl) (level : DeclKind) :
    declLevel (ctx.prune names) { opts with filter := none } n
        (d.dropChildren (ctx.beginsIn names)) level
      = declLevel ctx { opts with filter := some (.skipFiles names) } n d level := by
  have hcontext : declContext (ctx.prune names) { opts with filter := none }
        (d.dropChildren (ctx.beginsIn names))
      = declContext ctx { opts with filter := some (.skipFiles names) } d :=
    declContext_prune opts h d
  unfold declLevel
  split
  · rw [declInfo_prune]
  · rfl
  · rw [declaredType_prune]
  · rfl
  iterate 4 exact hcontext
  · rw [hcontext]
    rfl
  iterate 2 rw [hcontext, declPayload_prune]
  · rw [declPayload_prune]

theorem declNode_prune (h : ctx.KnowsFiles) (n : NodeRef) (d : Decl) :
    declNode (ctx.prune names) { opts with filter := none } n
        (d.dropChildren (ctx.beginsIn names))
      = declNode ctx { opts with filter := some (.skipFiles names) } n d :=
  congrArg (node d.kind) (funext (declLevel_prune opts h n d))

end Layout

/-! ### Passes -/

section

variable {ctx : Context} {names : List String} (opts : Options)

/-- Whatever a site defines in the pruned context it defines with the filter. -/
theorem Site.layout_prune (h : ctx.KnowsFiles) (s : Site) :
    s.layout (ctx.prune names) { opts with filter := none }
      = s.layout ctx { opts with filter := some (.skipFiles names) } := by
  cases s with
  | decl id =>
    cases id with
    | none => exact Layout.declNode_prune opts h (.sentinel .decl) Layout.sentinelDecl
    | some id =>
      simp only [layout, Context.decl?_prune]
      cases ctx.decl? id with
      | none => rfl
      | some d => exact Layout.declNode_prune opts h (.decl id) d
  | stmt id =>
    have hstmt : ∀ i, (ctx.prune names).stmt? i = ctx.stmt? i := fun _ => rfl
    cases id with
    | none => exact Layout.stmtNode_prune ctx names (.sentinel .stmt) Layout.sentinelStmt
    | some id =>
      simp only [layout, hstmt]
      cases ctx.stmt? id with
      | none => rfl
      | some s => exact Layout.stmtNode_prune ctx names (.stmt id) s
  | comment id =>
    cases id <;> rfl

variable {σ : Type} [DocumentWriter σ]

/-- Tokens do not depend on declarations, nor on the filter. -/
theorem Pass.token_prune (define : Site → PassStep σ) (t : Token Item) :
    token (ctx.prune names) { opts with filter := none } define t
      = token ctx { opts with filter := some (.skipFiles names) } define t := by
  cases t with
  | leaf a => cases a <;> rfl
  | container | variant | close | tag => rfl

theorem Pass.site_prune (h : ctx.KnowsFiles) : ∀ (fuel : Nat) (s : Site),
    (site (ctx.prune names) { opts with filter := none } fuel s : PassStep σ)
      = site ctx { opts with filter := some (.skipFiles names) } fuel s
  | 0, _ => rfl
  | fuel + 1, s => by
    have hinside : (site (ctx.prune names) { opts with filter := none } fuel : Site → PassStep σ)
        = site ctx { opts with filter := some (.skipFiles names) } fuel :=
      funext (site_prune h fuel)
    rw [site, site, Site.layout_prune opts h, hinside, layout, layout]
    exact congrArg all (List.map_congr_left fun t _ => token_prune opts _ t)

end

namespace Session

/-- A filter that skips files writes the document of the pruned context. Result, session and writer
are the same, whichever state session and writer begin in. -/
theorem write_skipFiles_eq_prune {σ : Type} [DocumentWriter σ] {ctx : Context} (h : ctx.KnowsFiles)
    (root : DeclId) (opts : Options) (names : List String) (s : Session) (w : σ) :
    s.write ctx root { opts with filter := some (.skipFiles names) } w
      = s.write (ctx.prune names) root { opts with filter := none } w := by
  have hroot : (ctx.prune names).checkRoot root = ctx.checkRoot root := by
    rw [Context.checkRoot, Context.checkRoot, Context.decl?_prune]
    cases ctx.decl? root <;> rfl
  have hcheck : ({ opts with filter := none } : Options).check (ctx.prune names) root
      = ({ opts with filter := some (.skipFiles names) } : Options).check ctx root := by
    rw [Options.check, Options.check, hroot]
    rfl
  have hpass : (runPass (ctx.prune names) root { opts with filter := none } : PassStep σ)
      = runPass ctx root { opts with filter := some (.skipFiles names) } := by
    rw [runPass, runPass, Pass.site_prune opts h, Context.nestingBound_prune]
  rw [write, write, hcheck, hpass]

/-- A translation unit that includes a header: a record of the header stands before a namespace of
the unit, which has a function of the header and a variable of its own. -/
def headerUnit : Context where
  files := #["main.cpp", "list.h"]
  decls := #[{ kind := .translationUnit, context := some { decls := [⟨1⟩, ⟨2⟩] } },
    { kind := .cxxRecord, range := .point ⟨⟨1⟩, 3, 1⟩, payload := .record {} },
    { kind := .namespaceDecl, range := .point ⟨⟨0⟩, 2, 1⟩, context := some { decls := [⟨3⟩, ⟨4⟩] },
      payload := .namespaceDecl {} },
    { kind := .function, range := .point ⟨⟨1⟩, 9, 1⟩, payload := .function {} },
    { kind := .var, range := .point ⟨⟨0⟩, 3, 3⟩, payload := .var {} }]

theorem knowsFiles_headerUnit : headerUnit.KnowsFiles := by
  intro d hd f hf
  simp only [headerUnit, List.mem_toArray, List.mem_cons, List.not_mem_nil, or_false] at hd
  rcases hd with rfl | rfl | rfl | rfl | rfl <;> cases hf <;> rfl

/-- Skipping the header leaves the unit with its namespace, and the namespace with its variable. -/
theorem write_skipFiles_eq_prune_headerUnit :
    headerUnit.KnowsFiles ∧
    ((headerUnit.prune ["list.h"]).decl? ⟨0⟩).map (·.context) = some (some { decls := [⟨2⟩] }) ∧
    ((headerUnit.prune ["list.h"]).decl? ⟨2⟩).map (·.context) = some (some { decls := [⟨4⟩] }) ∧
    ({} : Session).write headerUnit ⟨0⟩ { filter := some (.skipFiles ["list.h"]) } ({} : Recorder)
      = ({} : Session).write (headerUnit.prune ["list.h"]) ⟨0⟩ {} ({} : Recorder) :=
  ⟨knowsFiles_headerUnit,
    by rw [Context.decl?_prune]; decide +kernel,
    by rw [Context.decl?_prune]; decide +kernel,
    write_skipFiles_eq_prune knowsFiles_headerUnit ⟨0⟩ {} ["list.h"] {} ({} : Recorder)⟩

end Session

end SyntaxExport
