import SyntaxExport.Ast.Walk
import SyntaxExport.Pass
import SyntaxExport.Proofs.Document.Outline
import SyntaxExport.Proofs.Kind.Lineage

/-!
# Outlines of layouts

What the outline of each layout is. Most parts of a node have an empty one: the first field of a node
has its pointer and its range, a few levels of declarations and statements define other nodes, and
using directives and namespace aliases have locations of their own.
-/

namespace SyntaxExport

namespace Mark

/-- The range of a node or attribute. -/
def range (owner : Option Item) (r : SourceRange) : Mark Item :=
  .locations owner "source_range" [.leaf (.location r.first), .leaf (.location r.last)]

/-- A location of a node beside its range. -/
def place (owner : Option Item) (field : String) (loc : Option SourceLocation) : Mark Item :=
  .locations owner field [.leaf (.location loc)]

/-- The place where a node is defined. -/
def define (s : Site) : Mark Item :=
  .slot (.define s)

end Mark

/-- What a definition has in the outline: types are defined in place. -/
def Visit.marks : Visit → List (Mark Item)
  | .decl id => [.define (.decl (some id))]
  | .stmt id => [.define (.stmt (some id))]
  | .comment id => [.define (.comment (some id))]
  | .type id => [.node (.identity (.type id)), .head (.identity (.type id))]

namespace DeclPayload

/-- The level at which a payload defines nodes, for payloads that can. -/
def home? : DeclPayload → Option DeclKind
  | .enumConstant _ => some .enumConstant
  | .function _ => some .function
  | .field _ => some .field
  | .var _ => some .var
  | .objCMethod _ => some .objCMethod
  | .objCImplementation _ => some .objCImplementation
  | .block _ => some .block
  | _ => none

/-- The nodes that a payload defines at a level. -/
def definitionsAt (p : DeclPayload) (level : DeclKind) : List Visit :=
  if p.home? = some level then p.definitions else []

/-- The locations that a level reads from a payload, with their fields. -/
def places (p : DeclPayload) : DeclKind → List (String × Option SourceLocation)
  | .usingDirective =>
    match p with
    | .usingDirective info =>
      [("using_location", info.usingLocation), ("namespace_key_location", info.namespaceKeyLocation)]
    | _ => []
  | .namespaceAlias =>
    match p with
    | .namespaceAlias info =>
      [("namespace_loc", info.namespaceLocation), ("target_name_loc", info.targetNameLocation)]
    | _ => []
  | _ => []

/-- What a level has in the outline for a payload. -/
def marks (owner : Option Item) (p : DeclPayload) (level : DeclKind) : List (Mark Item) :=
  (p.definitionsAt level).flatMap Visit.marks ++ (p.places level).map fun x => .place owner x.1 x.2

end DeclPayload

namespace Layout

/-- The outline of a layout under a pointer. -/
def outline (owner : Option Item) (l : Layout) : List (Mark Item) :=
  l.tree.outline owner

/-- The outline of fields under a pointer. -/
def outlineFields (owner : Option Item) (fs : Fields) : List (Mark Item) :=
  Tree.outlineFields owner (fieldTrees fs)

/-- The pointer that fields begin with. -/
def leading? (fs : Fields) : Option Item :=
  Tree.leading? (fieldTrees fs)

@[simp] theorem flatMap_empty {α β : Type} (as : List α) :
    as.flatMap (fun _ => ([] : List β)) = [] := by
  simp [List.flatMap_eq_nil_iff]

variable (owner : Option Item)

@[simp] theorem mem_locationFields (name : String) : name ∈ locationFields ↔
    name = "source_range" ∨ name = "using_location" ∨ name = "namespace_key_location"
      ∨ name = "namespace_loc" ∨ name = "target_name_loc" := by
  simp [locationFields]

/-! ### Containers -/

@[simp] theorem outline_scalar (x : Scalar) : outline owner (.leaf (.scalar x)) = [] := rfl

@[simp] theorem outline_identity (n : NodeRef) : outline owner (.leaf (.identity n)) = [] := rfl

@[simp] theorem outline_fault (e : ExportError) : outline owner (.leaf (.fault e)) = [] := rfl

@[simp] theorem outline_define (s : Site) :
    outline owner (.leaf (.define s)) = [.define s] := rfl

@[simp] theorem outline_object (size : Nat) (fs : Fields) : outline owner (.object size fs)
    = (leading? fs).toList.map .head ++ outlineFields ((leading? fs).or owner) fs := rfl

theorem outlineItems_eq (ls : List Layout) :
    Tree.outlineItems owner (itemTrees ls) = ls.flatMap (outline owner) := by
  induction ls with
  | nil => rfl
  | cons l ls ih =>
    rw [itemTrees, Tree.outlineItems, ih]
    rfl

@[simp] theorem outline_array (size : Nat) (ls : List Layout) :
    outline owner (.array size ls) = ls.flatMap (outline owner) :=
  outlineItems_eq owner ls

@[simp] theorem outline_variant (tag : String) (l : Layout) :
    outline owner (.variant tag l) = outline owner l := rfl

@[simp] theorem outline_list {α : Type} (f : α → Layout) (as : List α) :
    outline owner (list f as) = as.flatMap fun a => outline owner (f a) := by
  rw [list, outline_array, List.flatMap_map]

/-! ### Fields -/

@[simp] theorem outlineFields_nil : outlineFields owner [] = [] := rfl

theorem outlineFields_cons (name : String) (l : Layout) (fs : Fields) :
    outlineFields owner ((name, l) :: fs)
      = (if name ∈ locationFields then [.locations owner name l.tree.parts] else outline owner l)
        ++ outlineFields owner fs := rfl

@[simp] theorem outlineFields_cons_of_notMem {name : String} (h : name ∉ locationFields)
    (l : Layout) (fs : Fields) :
    outlineFields owner ((name, l) :: fs) = outline owner l ++ outlineFields owner fs := by
  rw [outlineFields_cons, if_neg h]

@[simp] theorem outlineFields_append (fs gs : Fields) :
    outlineFields owner (fs ++ gs) = outlineFields owner fs ++ outlineFields owner gs := by
  induction fs with
  | nil => rfl
  | cons f fs ih =>
    obtain ⟨name, l⟩ := f
    rw [List.cons_append, outlineFields_cons, outlineFields_cons, ih, List.append_assoc]

@[simp] theorem outlineFields_flag {name : String} (h : name ∉ locationFields) (b : Bool) :
    outlineFields owner (flag name b) = [] := by
  cases b
  · rfl
  · exact outlineFields_cons_of_notMem owner h _ []

@[simp] theorem outlineFields_optional {α : Type} {name : String} (h : name ∉ locationFields)
    (a : Option α) (f : α → Layout) :
    outlineFields owner (optional name a f) = a.toList.flatMap fun x => outline owner (f x) := by
  cases a
  · rfl
  · exact outlineFields_cons_of_notMem owner h _ []

@[simp] theorem outlineFields_nonempty {α : Type} {name : String} (h : name ∉ locationFields)
    (as : List α) (f : α → Layout) :
    outlineFields owner (nonempty name as f) = as.flatMap fun a => outline owner (f a) := by
  cases as with
  | nil => rfl
  | cons a as =>
    have hlist := outline_list owner f (a :: as)
    rw [nonempty, List.isEmpty_cons, if_neg (by simp), outlineFields_cons_of_notMem owner h, hlist,
      outlineFields_nil, List.append_nil]

@[simp] theorem outlineFields_ite {name : String} (h : name ∉ locationFields) (b : Bool)
    (l : Layout) : outlineFields owner (if b then [(name, l)] else [])
      = if b then outline owner l else [] := by
  cases b
  · rfl
  · exact (outlineFields_cons_of_notMem owner h l []).trans (List.append_nil _)

@[simp] theorem outlineFields_range (r : SourceRange) (fs : Fields) :
    outlineFields owner (("source_range", range r) :: fs)
      = .range owner r :: outlineFields owner fs := rfl

@[simp] theorem outlineFields_location {name : String} (h : name ∈ locationFields)
    (loc : Option SourceLocation) (fs : Fields) :
    outlineFields owner ((name, location loc) :: fs)
      = .place owner name loc :: outlineFields owner fs := by
  rw [outlineFields_cons, if_pos h]
  rfl

/-! ### Pointers -/

@[simp] theorem leading?_nil : leading? [] = none := rfl

@[simp] theorem leading?_pointer (n : NodeRef) (fs : Fields) :
    leading? (("pointer", .leaf (.identity n)) :: fs) = some (.identity n) := rfl

@[simp] theorem leading?_cons {name : String} (h : name ≠ "pointer") (l : Layout) (fs : Fields) :
    leading? ((name, l) :: fs) = none := by
  cases l with
  | leaf a => exact if_neg fun hname => h hname.1
  | object | array | tuple | variant => rfl

@[simp] theorem leading?_append (fs gs : Fields) :
    leading? (fs ++ gs) = if fs = [] then leading? gs else leading? fs := by
  cases fs with
  | nil => rfl
  | cons f fs =>
    obtain ⟨name, l⟩ := f
    cases l <;> rfl

@[simp] theorem leading?_flag {name : String} (h : name ≠ "pointer") (b : Bool) :
    leading? (flag name b) = none := by
  cases b
  · rfl
  · exact leading?_cons h _ []

@[simp] theorem leading?_optional {α : Type} {name : String} (h : name ≠ "pointer") (a : Option α)
    (f : α → Layout) : leading? (optional name a f) = none := by
  cases a
  · rfl
  · exact leading?_cons h _ []

@[simp] theorem leading?_nonempty {α : Type} {name : String} (h : name ≠ "pointer") (as : List α)
    (f : α → Layout) : leading? (nonempty name as f) = none := by
  cases as
  · rfl
  · exact leading?_cons h _ []

@[simp] theorem leading?_ite {name : String} (h : name ≠ "pointer") (b : Bool) (l : Layout) :
    leading? (if b then [(name, l)] else []) = none := by
  cases b
  · rfl
  · exact leading?_cons h l []

/-! ### Parts that nodes of several families share -/

@[simp] theorem outline_qualType (ctx : Context) (q : QualType) :
    outline owner (qualType ctx q) = [] := by
  unfold qualType
  split
  · rfl
  · split
    · rfl
    · rfl
    · simp

@[simp] theorem outline_declName (n : DeclName) : outline owner (declName n) = [] := by
  simp [declName]

@[simp] theorem outline_declDigest (ctx : Context) (id : DeclId) (d : Decl) :
    outline owner (declDigest ctx id d) = [] := by
  simp [declDigest]

@[simp] theorem outline_declRef (ctx : Context) (id : DeclId) :
    outline owner (declRef ctx id) = [] := by
  unfold declRef
  split <;> simp

/-- The outline of an attribute, wherever it stands. -/
def attrMarks (ctx : Context) (id : AttrId) : List (Mark Item) :=
  match ctx.attr? id with
  | none => []
  | some a => [.head (.identity (.attr id)), .range (some (.identity (.attr id))) a.range]

@[simp] theorem outline_attr (ctx : Context) (id : AttrId) :
    outline owner (attr ctx id) = attrMarks ctx id := by
  cases ha : ctx.attr? id with
  | none => simp [attr, attrMarks, ha]
  | some a => simp [attr, attrMarks, ha, attrNode]

@[simp] theorem outline_nestedNameSpecifier (ctx : Context) (s : NestedNameSpecifier) :
    outline owner (nestedNameSpecifier ctx s) = [] := by
  simp [nestedNameSpecifier]

@[simp] theorem outline_initializerSubject (ctx : Context) (s : InitializerSubject) :
    outline owner (initializerSubject ctx s) = [] := by
  cases s with
  | member d => simp [initializerSubject]
  | delegating t => simp [initializerSubject]
  | baseClass t isVirtual =>
    -- the type of a base class is no node
    have htype : Tree.pointer? (itemTrees [qualType ctx t, boolean isVirtual]) = none := by
      unfold qualType
      split
      · rfl
      · split <;> rfl
    rw [initializerSubject, outline_variant, outline, tree, Tree.outline, htype, outlineItems_eq]
    simp

@[simp] theorem outline_ctorInitializer (ctx : Context) (i : CtorInitializer) :
    outline owner (ctorInitializer ctx i) = (Visit.stmts [i.init]).flatMap Visit.marks := by
  cases hinit : i.init <;> simp [ctorInitializer, Visit.stmts, Visit.marks, hinit]

/-! ### Nodes -/

/-- Fields of a node, the first of which begins with the pointer of the node. -/
def BeginsWith (n : NodeRef) (fields : List Layout) : Prop :=
  ∃ (size : Nat) (fs : Fields) (rest : List Layout),
    fields = .object size (("pointer", identity n) :: fs) :: rest

section Node

variable {κ : Type} [NodeKind κ] {k : κ} {level : κ → List Layout} {n : NodeRef}

/-- A kind begins with the fields of its root. -/
theorem beginsWith_lineage {root : κ} (hroot : ∀ k : κ, NodeKind.parent k = none → k = root) (k : κ)
    (h : BeginsWith n (level root)) : BeginsWith n ((NodeKind.lineage k).flatMap level) := by
  obtain ⟨levels, hlevels, -⟩ := NodeKind.exists_lineage_eq_cons hroot k
  obtain ⟨size, fs, rest, hfields⟩ := h
  exact ⟨size, fs, rest ++ levels.flatMap level, by rw [hlevels, List.flatMap_cons, hfields]; rfl⟩

theorem isHeaded_node (h : BeginsWith n ((NodeKind.lineage k).flatMap level)) :
    (node k level).tree.IsHeaded := by
  obtain ⟨size, fs, rest, hfields⟩ := h
  unfold node
  split
  · exact .fault _
  · rw [hfields]
    exact .node _ _ _ _

theorem outline_node (h : BeginsWith n ((NodeKind.lineage k).flatMap level)) :
    outline owner (node k level) = if NodeKind.isAbstract k then []
      else .node (.identity n)
        :: (NodeKind.lineage k).flatMap fun l => (level l).flatMap (outline (some (.identity n))) := by
  obtain ⟨size, fs, rest, hfields⟩ := h
  unfold node
  split
  · rfl
  · have hpointer : Tree.pointer? (itemTrees ((NodeKind.lineage k).flatMap level))
        = some (.identity n) := by
      rw [hfields]
      rfl
    rw [outline_variant, outline, tree, Tree.outline, hpointer, Option.some_or, outlineItems_eq,
      List.flatMap_assoc]
    rfl

end Node

/-! ### Types -/

@[simp] theorem outline_typePayload (t : TypeNode) (level : TypeKind) :
    outline owner (typePayload t level) = [] := by
  unfold typePayload
  split <;> split <;> simp [functionParams, objCObjectInfo]

theorem outline_typeLevel (id : TypeId) (t : TypeNode) (level : TypeKind) :
    (typeLevel id t level).flatMap (outline owner)
      = if level = .type then [.head (.identity (.type id))] else [] := by
  unfold typeLevel
  split
  · simp [typeInfo]
  · next hlevel =>
    rw [if_neg hlevel]
    split <;> simp

theorem TypeKind.eq_of_root (k : TypeKind) (h : NodeKind.parent k = none) : k = .type := by
  cases k <;> first | rfl | cases h

/-- The outline of a type is that of its visit, if its kind is concrete. -/
theorem outline_typeNode (id : TypeId) (t : TypeNode) : outline owner (typeNode id t)
    = if NodeKind.isAbstract t.kind then [] else (Visit.type id).marks := by
  rw [typeNode, outline_node owner (beginsWith_lineage TypeKind.eq_of_root t.kind ⟨_, _, _, rfl⟩)]
  simp only [outline_typeLevel]
  rw [NodeKind.flatMap_ite_root TypeKind.eq_of_root]
  rfl

/-- The outline of the entry for the absent type. -/
def noTypeMarks : List (Mark Item) :=
  [.node (.identity .null), .head (.identity .null)]

theorem outline_typeList (ctx : Context) : outline owner (typeList ctx)
    = (ctx.types.toList.zipIdx.flatMap fun t =>
        if NodeKind.isAbstract t.1.kind then [] else (Visit.type (Id.ofSize t.2)).marks)
      ++ noTypeMarks := by
  rw [typeList, outline_array, List.flatMap_append, List.mapIdx_eq_zipIdx_map, List.flatMap_map]
  simp only [outline_typeNode]
  rfl

/-! ### Comments -/

@[simp] theorem outline_commentPayload (c : Comment) (level : CommentKind) :
    outline owner (commentPayload c level) = [] := by
  unfold commentPayload
  split <;> split <;>
    simp [inlineCommand, htmlStartTag, htmlAttribute, blockCommand, paramCommand, tParamCommand]

/-- The children of a comment, where they are in the context. -/
def commentChildMarks (ctx : Context) (c : Comment) : List (Mark Item) :=
  match c.children.find? (isCommentMissing ctx) with
  | some (some _) => []
  | _ => c.children.map fun child => .define (.comment child)

@[simp] theorem outline_commentChildren (ctx : Context) (c : Comment) :
    outline owner (commentChildren ctx c) = commentChildMarks ctx c := by
  rcases hfind : c.children.find? (isCommentMissing ctx) with _ | _ | id <;>
    simp [commentChildren, commentChildMarks, hfind, List.map_eq_flatMap]

theorem CommentKind.eq_of_root (k : CommentKind) (h : NodeKind.parent k = none) : k = .comment := by
  cases k <;> first | rfl | cases h

theorem outline_commentLevel (ctx : Context) (n : NodeRef) (c : Comment) (level : CommentKind) :
    (commentLevel ctx n c level).flatMap (outline owner) = if level = .comment then
      .head (.identity n) :: .range (some (.identity n)) c.range :: commentChildMarks ctx c
      else [] := by
  unfold commentLevel
  split
  · simp [commentInfo]
  · next hlevel =>
    rw [if_neg hlevel]
    split <;> simp

theorem beginsWith_comment (ctx : Context) (n : NodeRef) (c : Comment) :
    BeginsWith n ((NodeKind.lineage c.kind).flatMap (commentLevel ctx n c)) :=
  beginsWith_lineage CommentKind.eq_of_root c.kind ⟨_, _, _, rfl⟩

theorem outline_commentNode (ctx : Context) (n : NodeRef) (c : Comment) :
    outline owner (commentNode ctx n c) = if NodeKind.isAbstract c.kind then []
      else .node (.identity n) :: .head (.identity n) :: .range (some (.identity n)) c.range
        :: commentChildMarks ctx c := by
  rw [commentNode, outline_node owner (beginsWith_comment ctx n c)]
  simp only [outline_commentLevel]
  rw [NodeKind.flatMap_ite_root CommentKind.eq_of_root]

/-! ### Statements -/

@[simp] theorem outline_overloadInfo (ctx : Context) (o : OverloadInfo) :
    outline owner (overloadInfo ctx o) = [] := by
  simp [overloadInfo]

@[simp] theorem outline_memberInfo (ctx : Context) (isArrow : Bool) (id : DeclId) :
    outline owner (memberInfo ctx isArrow id) = [] := by
  unfold memberInfo
  split <;> simp

@[simp] theorem outline_messageInfo (ctx : Context) (selector : String) (method : Option DeclId)
    (target : Receiver) : outline owner (messageInfo ctx selector method target) = [] := by
  have hreceiver : outline owner (receiver ctx target) = [] := by
    cases target <;> simp [receiver]
  simp [messageInfo, hreceiver, -bne_iff_ne]

@[simp] theorem outline_propertyRefInfo (ctx : Context) (p : PropertyRef) :
    outline owner (propertyRefInfo ctx p) = [] := by
  have htarget : outline owner (propertyTarget ctx p.target) = [] := by
    cases p.target <;> simp [propertyTarget, accessorNames]
  simp [propertyRefInfo, htarget]

/-- What a level of the kind of a statement has in the outline for a payload. -/
def stmtMarks (ctx : Context) (p : StmtPayload) : StmtKind → List (Mark Item)
  | .declStmt =>
    match p with
    | .decls ds => ds.map fun d => .define (.decl (some d))
    | _ => []
  | .attributedStmt =>
    match p with
    | .attributes attrs => attrs.flatMap (attrMarks ctx)
    | _ => []
  | .cxxCatchStmt | .objCAtCatchStmt =>
    match p with
    | .catchParam d => d.toList.map fun d => .define (.decl (some d))
    | _ => []
  | .blockExpr | .lambdaExpr =>
    match p with
    | .ownedDecl d => [.define (.decl d)]
    | _ => []
  | _ => []

theorem outline_stmtPayload (ctx : Context) (s : Stmt) (level : StmtKind) :
    outline owner (stmtPayload ctx s level) = stmtMarks ctx s.payload level := by
  unfold stmtPayload
  split <;> split <;> (try split) <;>
    simp [labelRef, lookupInfo, ivarRef, integerLiteral, unaryInfo, constructInfo, cleanupsInfo,
      newInfo, subscriptRefInfo, accessorNames, castInfo, castBase, stmtMarks,
      List.map_eq_flatMap, *]
  split <;> simp_all

theorem StmtKind.eq_of_root (k : StmtKind) (h : NodeKind.parent k = none) : k = .stmt := by
  cases k <;> first | rfl | cases h

/-- The children of a statement, where they are in the context. -/
def stmtChildMarks (ctx : Context) (s : Stmt) : List (Mark Item) :=
  match s.children.find? (isStmtMissing ctx) with
  | some (some _) => []
  | _ => s.children.map fun child => .define (.stmt child)

@[simp] theorem outline_stmtChildren (ctx : Context) (s : Stmt) :
    outline owner (stmtChildren ctx s) = stmtChildMarks ctx s := by
  rcases hfind : s.children.find? (isStmtMissing ctx) with _ | _ | id <;>
    simp [stmtChildren, stmtChildMarks, hfind, List.map_eq_flatMap]

/-- The level of every statement has its place in the outline, the others what they read. -/
theorem outline_stmtLevel (ctx : Context) (n : NodeRef) (s : Stmt) (level : StmtKind) :
    (stmtLevel ctx n s level).flatMap (outline owner) = (if level = .stmt then
      .head (.identity n) :: .range (some (.identity n)) s.range :: stmtChildMarks ctx s else [])
      ++ stmtMarks ctx s.payload level := by
  unfold stmtLevel
  split
  · simp [stmtInfo, stmtMarks]
  · split
    · simp [exprInfo, stmtMarks, -bne_iff_ne]
    · simp [stmtMarks]
  · next hlevel _ =>
    rw [if_neg hlevel, List.nil_append]
    split
    · next hcount =>
      cases level <;> first | rfl | cases hcount
    · simp [outline_stmtPayload]

theorem beginsWith_stmt (ctx : Context) (n : NodeRef) (s : Stmt) :
    BeginsWith n ((NodeKind.lineage s.kind).flatMap (stmtLevel ctx n s)) :=
  beginsWith_lineage StmtKind.eq_of_root s.kind ⟨_, _, _, rfl⟩

theorem outline_stmtNode (ctx : Context) (n : NodeRef) (s : Stmt) :
    outline owner (stmtNode ctx n s) = if NodeKind.isAbstract s.kind then []
      else .node (.identity n) :: .head (.identity n) :: .range (some (.identity n)) s.range
        :: stmtChildMarks ctx s ++ (NodeKind.lineage s.kind).flatMap (stmtMarks ctx s.payload) := by
  rw [stmtNode, outline_node owner (beginsWith_stmt ctx n s)]
  simp only [outline_stmtLevel]
  rw [NodeKind.flatMap_root StmtKind.eq_of_root]
  rfl

/-! ### Declarations -/

theorem outline_declInfo (ctx : Context) (n : NodeRef) (d : Decl) :
    outline owner (declInfo ctx n d) = .head (.identity n) :: .range (some (.identity n)) d.range
      :: d.attrs.flatMap (attrMarks ctx)
      ++ d.fullComment.toList.map fun c => .define (.comment (some c)) := by
  have hlink : ∀ r, outline (some (.identity n)) (redeclaration r) = [] := by
    intro r
    cases r <;> simp [redeclaration]
  simp [declInfo, hlink, List.map_eq_flatMap]

/-- A statement that may be absent. -/
@[simp] theorem marks_stmt (a : Option StmtId) :
    (a.toList.flatMap fun x => [Mark.define (.stmt (some x))])
      = (Visit.stmts [a]).flatMap Visit.marks := by
  cases a <;> rfl

/-- Statements that may be absent, one by one. -/
theorem marks_stmts {α : Type} (f : α → Option StmtId) (as : List α) :
    as.flatMap (fun a => (Visit.stmts [f a]).flatMap Visit.marks)
      = (Visit.stmts (as.map f)).flatMap Visit.marks := by
  induction as with
  | nil => rfl
  | cons a as ih =>
    rw [List.flatMap_cons, ih, ← List.flatMap_append]
    cases h : f a <;> simp [Visit.stmts, h]

@[simp] theorem marks_decls (ds : List DeclId) :
    (ds.flatMap fun d => [Mark.define (.decl (some d))]) = (ds.map Visit.decl).flatMap Visit.marks := by
  rw [List.flatMap_map]
  rfl

@[simp] theorem outline_functionInfo (ctx : Context) (modulePrivate : Bool) (info : FunctionInfo) :
    outline owner (functionInfo ctx modulePrivate info)
      = (DeclPayload.function info).definitions.flatMap Visit.marks := by
  simp [functionInfo, DeclPayload.definitions, marks_stmts]

@[simp] theorem outline_fieldInfo (modulePrivate : Bool) (info : FieldInfo) :
    outline owner (fieldInfo modulePrivate info)
      = (DeclPayload.field info).definitions.flatMap Visit.marks := by
  cases hinit : info.init <;>
    simp [fieldInfo, DeclPayload.definitions, Visit.stmts, Visit.marks, hinit]

@[simp] theorem outline_varInfo (modulePrivate : Bool) (info : VarInfo) :
    outline owner (varInfo modulePrivate info)
      = (DeclPayload.var info).definitions.flatMap Visit.marks := by
  simp [varInfo, DeclPayload.definitions, -bne_iff_ne]

@[simp] theorem outline_objCMethodInfo (ctx : Context) (info : ObjCMethodInfo) :
    outline owner (objCMethodInfo ctx info)
      = (DeclPayload.objCMethod info).definitions.flatMap Visit.marks := by
  simp [objCMethodInfo, DeclPayload.definitions]

@[simp] theorem outline_objCImplementationInfo (ctx : Context) (info : ObjCImplementationInfo) :
    outline owner (objCImplementationInfo ctx info)
      = (DeclPayload.objCImplementation info).definitions.flatMap Visit.marks := by
  simp [objCImplementationInfo, DeclPayload.definitions, marks_stmts]

@[simp] theorem outline_blockInfo (ctx : Context) (info : BlockInfo) :
    outline owner (blockInfo ctx info)
      = (DeclPayload.block info).definitions.flatMap Visit.marks := by
  simp [blockInfo, blockCapture, DeclPayload.definitions, marks_stmts]

@[simp] theorem outline_objCPropertyInfo (ctx : Context) (info : ObjCPropertyInfo) :
    outline owner (objCPropertyInfo ctx info) = [] := by
  have hattribute : ∀ a, outline owner (propertyAttribute ctx a) = [] := by
    intro a
    cases a <;> simp [propertyAttribute]
  simp [objCPropertyInfo, hattribute, -bne_iff_ne]

@[simp] theorem outline_cxxRecordInfo (info : RecordInfo) :
    outline owner (cxxRecordInfo info) = [] := by
  unfold cxxRecordInfo
  split <;> simp

/-- The levels that define nodes or have locations of their own. -/
def payloadLevels : List DeclKind :=
  [.enumConstant, .function, .field, .var, .objCMethod, .objCImplementation, .block, .usingDirective,
    .namespaceAlias]

/-- A payload of another sort has nothing in the outline. -/
theorem marks_eq_nil {p : DeclPayload} {level : DeclKind} (hhome : p.home? ≠ some level)
    (hplaces : p.places level = []) : p.marks owner level = [] := by
  rw [DeclPayload.marks, DeclPayload.definitionsAt, if_neg hhome, hplaces]
  rfl

/-- Other levels have nothing in the outline. -/
theorem marks_of_notMem {level : DeclKind} (h : level ∉ payloadLevels) (p : DeclPayload) :
    p.marks owner level = [] := by
  refine marks_eq_nil owner ?_ ?_
  · rintro hhome
    cases p <;> first | cases hhome; exact h (by decide) | cases hhome
  · unfold DeclPayload.places
    split
    · exact absurd (by decide) h
    · exact absurd (by decide) h
    · rfl

theorem outline_declPayload (ctx : Context) (d : Decl) (level : DeclKind) :
    outline owner (declPayload ctx d level) = d.payload.marks owner level := by
  unfold declPayload
  split
  all_goals try split
  -- a level reads its own sort of payload
  all_goals try
    next hp =>
      simp [hp, namespaceInfo, enumInfo, recordInfo, usingDirectiveInfo, namespaceAliasInfo, ivarInfo,
        objCCategoryInfo, objCCategoryImplInfo, objCInterfaceInfo, objCPropertyImplInfo,
        DeclPayload.marks, DeclPayload.definitionsAt, DeclPayload.home?, DeclPayload.places,
        DeclPayload.definitions, -bne_iff_ne]
      done
  -- and has a fault in the place of any other
  all_goals try
    next hp =>
      rw [outline_fault]
      refine (marks_eq_nil owner ?_ ?_).symm
      all_goals cases h : d.payload <;> first | rfl | exact absurd h (hp _) | (intro heq; cases heq)
  -- the remaining levels read no payload
  have hlevel : level ∉ payloadLevels := by simp_all [payloadLevels]
  rw [marks_of_notMem owner hlevel]
  simp

/-- The children that are written, if every child is in the context. -/
def childMarks (ctx : Context) (opts : Options) (d : Decl) : List (Mark Item) :=
  match keptChildren ctx opts (d.context.getD {}).decls with
  | .error _ => []
  | .ok ids => (ids.map Visit.decl).flatMap Visit.marks

theorem outline_declContext (ctx : Context) (opts : Options) (d : Decl) :
    (declContext ctx opts d).flatMap (outline owner) = childMarks ctx opts d := by
  cases hkept : keptChildren ctx opts (d.context.getD {}).decls <;>
    simp [declContext, childMarks, hkept]

theorem outline_declaredType (ctx : Context) (d : Decl) :
    (declaredType ctx d).flatMap (outline owner) = [] := by
  cases htype : d.typeForDecl with
  | none => simp [declaredType, htype]
  | some t => cases hnode : ctx.type? t <;> simp [declaredType, htype, hnode]

/-- The levels that hold the children of a declaration context. -/
def contextLevels : List DeclKind :=
  [.captured, .linkageSpec, .objCContainer, .tag, .translationUnit, .block, .namespaceDecl]

/-- What a level below the root has in the outline. -/
def declMarks (ctx : Context) (opts : Options) (d : Decl) (level : DeclKind) : List (Mark Item) :=
  (if level ∈ contextLevels then childMarks ctx opts d else [])
    ++ (if level = .translationUnit then outline owner (typeList ctx) else [])
    ++ d.payload.marks owner level

/-- The root level has its place in the outline, the others their children and definitions. -/
theorem outline_declLevel (ctx : Context) (opts : Options) (n : NodeRef) (d : Decl)
    (level : DeclKind) : (declLevel ctx opts n d level).flatMap (outline owner)
      = (if level = .decl then outline owner (declInfo ctx n d) else [])
        ++ declMarks owner ctx opts d level := by
  unfold declLevel
  split
  all_goals try
    simp [declMarks, contextLevels, marks_of_notMem, payloadLevels, outline_declaredType,
      outline_declContext, outline_declPayload]
    done
  have hroot : level ≠ .decl := by assumption
  have hcontext : level ∉ contextLevels := by simp_all [contextLevels]
  have hunit : level ≠ .translationUnit := by assumption
  rw [declMarks, if_neg hroot, if_neg hcontext, if_neg hunit]
  split
  · next hcount =>
    have hpayload : level ∉ payloadLevels := by
      rintro hlevel
      revert hcount
      simp only [payloadLevels, List.mem_cons, List.not_mem_nil, or_false] at hlevel
      rcases hlevel with rfl | rfl | rfl | rfl | rfl | rfl | rfl | rfl | rfl <;> decide
    simp [marks_of_notMem owner hpayload]
  · simp [outline_declPayload]

theorem DeclKind.eq_of_root (k : DeclKind) (h : NodeKind.parent k = none) : k = .decl := by
  cases k <;> first | rfl | cases h

theorem beginsWith_decl (ctx : Context) (opts : Options) (n : NodeRef) (d : Decl) :
    BeginsWith n ((NodeKind.lineage d.kind).flatMap (declLevel ctx opts n d)) :=
  beginsWith_lineage DeclKind.eq_of_root d.kind ⟨_, _, _, rfl⟩

theorem outline_declNode (ctx : Context) (opts : Options) (n : NodeRef) (d : Decl) :
    outline owner (declNode ctx opts n d) = if NodeKind.isAbstract d.kind then []
      else .node (.identity n) :: outline owner (declInfo ctx n d)
        ++ (NodeKind.lineage d.kind).flatMap (declMarks (some (.identity n)) ctx opts d) := by
  rw [declNode, outline_node owner (beginsWith_decl ctx opts n d)]
  simp only [outline_declLevel]
  rw [NodeKind.flatMap_root DeclKind.eq_of_root, outline_declInfo, outline_declInfo]
  rfl

end Layout

end SyntaxExport
