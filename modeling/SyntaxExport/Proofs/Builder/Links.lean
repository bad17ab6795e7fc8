import SyntaxExport.Proofs.Builder.Requests

/-!
# Links between declarations

A builder attaches declarations to parents: it lists the child at the parent, in its context or among the
parameters of a function, and points the child back at the parent. A declaration may be attached again,
and then the last attachment counts (`Context.Linked`). Between the two halves of an attachment the child
is the one declaration of which nothing is known. Every request keeps the links in order
(`BuilderRequest.linked_of_perform`).
-/

namespace SyntaxExport

/-! ### Attachments -/

/-- A declaration is attached to a parent. -/
structure Attachment where
  parent : DeclId
  child : DeclId
  deriving DecidableEq, Repr

/-- The parents that attachments give a declaration, in order. -/
def Attachment.parents (as : List Attachment) (id : DeclId) : List DeclId :=
  (as.filter (·.child = id)).map (·.parent)

theorem Attachment.parents_concat (as : List Attachment) (a : Attachment) (id : DeclId) :
    parents (as ++ [a]) id = if a.child = id then parents as id ++ [a.parent] else parents as id := by
  rw [parents, List.filter_append, List.map_append, List.filter_singleton]
  split <;> simp_all [parents]

/-- The attachments that a request makes, with the nodes that are returned. -/
def BuilderRequest.attachments : BuilderRequest → List Visit → List Attachment
  | .call (.addToContext parent child), _ => [⟨parent, child⟩]
  | .call (.function parent _ _ params _ _), .decl id :: _ =>
    ⟨parent, id⟩ :: params.map fun p => ⟨id, p⟩
  | .call (.var parent _ _ _ _), .decl id :: _ | .call (.record parent _ _), .decl id :: _
  | .call (.field parent _ _ _), .decl id :: _ | .declare parent _, .decl id :: _ => [⟨parent, id⟩]
  | _, _ => []

theorem BuilderRequest.attachments_of_not_onDecls {r : BuilderRequest} (h : ¬ r.OnDecls)
    (nodes : List Visit) : r.attachments nodes = [] := by
  unfold attachments
  split
  · exact absurd (.addToContext _ _) h
  · exact absurd (.function _ _ _ _ _ _) h
  · exact absurd (.var _ _ _ _ _) h
  · exact absurd (.record _ _ _) h
  · exact absurd (.field _ _ _ _) h
  · exact absurd (.declare _ _) h
  · rfl

/-- The declaration has a child in its context or among the parameters of its function. -/
def Decl.Lists (d : Decl) (child : DeclId) : Prop :=
  child ∈ (d.context.getD {}).decls ∨ ∃ info, d.payload = .function info ∧ child ∈ info.params

theorem Decl.lists_addChild (d : Decl) (child : DeclId) : (d.addChild child).Lists child :=
  .inl (List.mem_append_right _ (List.mem_singleton.mpr rfl))

theorem Decl.Lists.addChild {d : Decl} {c : DeclId} (h : d.Lists c) (child : DeclId) :
    (d.addChild child).Lists c :=
  h.imp_left (List.mem_append_left _)

namespace Context

/-- A parent in the context has a child. -/
def Lists (ctx : Context) (parent child : DeclId) : Prop :=
  ∃ d, ctx.decl? parent = some d ∧ d.Lists child

/-- The declarations of the context are linked as the attachments say: each points at the parent that it
was attached to last, and is listed at all parents that it was attached to. Of the pending declaration
nothing is said but that it is listed. -/
structure Linked (ctx : Context) (as : List Attachment) (pending : Option DeclId) : Prop where
  parents : ∀ id d, ctx.decl? id = some d → pending ≠ some id →
    d.semanticParent = (Attachment.parents as id).getLast? ∧ d.lexicalParent = d.semanticParent
  lists : ∀ a ∈ as, ctx.Lists a.parent a.child
  present : ∀ a ∈ as, a.child.toNat < ctx.decls.size

variable {ctx ctx' : Context} {as : List Attachment} {pending : Option DeclId} {id parent child : DeclId}
  {f : Decl → Decl}

theorem Lists.addDecl (h : ctx.Lists parent child) (d : Decl) : (ctx.addDecl d).2.Lists parent child := by
  obtain ⟨e, he, hlists⟩ := h
  exact ⟨e, decl?_addDecl_of_some d he, hlists⟩

theorem Lists.modifyDecl (h : ctx.Lists parent child) (hf : ∀ d c, d.Lists c → (f d).Lists c) :
    (ctx.modifyDecl id f).Lists parent child := by
  obtain ⟨e, he, hlists⟩ := h
  refine ⟨_, by rw [decl?_modifyDecl, he]; rfl, ?_⟩
  split
  · exact hf e child hlists
  · exact hlists

theorem Lists.withParent (h : ctx.Lists parent child) (id p : DeclId) :
    (ctx.modifyDecl id (·.withParent p)).Lists parent child :=
  h.modifyDecl fun _ _ hc => hc

namespace Linked

/-- The links are in the declarations alone. -/
theorem of_same (h : ctx.Linked as pending) (hsame : ctx'.decls = ctx.decls) :
    ctx'.Linked as pending where
  parents := by
    simpa only [decl?, hsame] using h.parents
  lists := by
    simpa only [Lists, decl?, hsame] using h.lists
  present := by
    simpa only [hsame] using h.present

/-- Anything may be pending. -/
theorem pend (h : ctx.Linked as none) (id : DeclId) : ctx.Linked as (some id) where
  __ := h
  parents := fun id d hd _ => h.parents id d hd nofun

/-- A new declaration with parents of any kind is pending. -/
theorem addDecl (h : ctx.Linked as none) (d : Decl) :
    (ctx.addDecl d).2.Linked as (some (Id.ofSize ctx.decls.size)) where
  parents := by
    intro id e he hne
    rw [decl?_addDecl] at he
    split at he
    · next hid =>
      refine absurd ?_ hne
      rw [← hid]
      exact congrArg some (Id.eq_of_toNat (Id.toNat_ofSize id.index.toNat_lt))
    · exact h.parents id e he nofun
  lists := fun a ha => (h.lists a ha).addDecl d
  present := fun a ha => (h.present a ha).trans (by simp)

/-- A new declaration without parents is not attached. -/
theorem addOrphan (h : ctx.Linked as none) {d : Decl} (hsemantic : d.semanticParent = none)
    (hlexical : d.lexicalParent = none) : (ctx.addDecl d).2.Linked as none where
  __ := h.addDecl d
  parents := by
    intro id e he _
    rw [decl?_addDecl] at he
    split at he
    · next hid =>
      cases he
      have hparents : Attachment.parents as id = [] := by
        refine List.map_eq_nil_iff.mpr (List.filter_eq_nil_iff.mpr fun a ha hchild => ?_)
        have hlt := h.present a ha
        rw [of_decide_eq_true hchild] at hlt
        omega
      rw [hparents, hsemantic, hlexical]
      exact ⟨rfl, rfl⟩
    · exact h.parents id e he nofun

/-- A change that leaves the parents alone and takes no child away. -/
theorem modifyDecl (h : ctx.Linked as pending) (id : DeclId)
    (hsemantic : ∀ d, (f d).semanticParent = d.semanticParent)
    (hlexical : ∀ d, (f d).lexicalParent = d.lexicalParent)
    (hlists : ∀ d c, d.Lists c → (f d).Lists c) : (ctx.modifyDecl id f).Linked as pending where
  parents := by
    intro id' e he hne
    rw [decl?_modifyDecl] at he
    obtain ⟨d, hd, rfl⟩ := Option.map_eq_some_iff.mp he
    split
    · rw [hsemantic, hlexical]
      exact h.parents id' d hd hne
    · exact h.parents id' d hd hne
  lists := fun a ha => (h.lists a ha).modifyDecl hlists
  present := by simpa using h.present

/-- A declaration that is listed at a parent is attached once it points there. -/
theorem withParent (h : ctx.Linked as (some child)) (hlists : ctx.Lists parent child)
    (hchild : child.toNat < ctx.decls.size) :
    (ctx.modifyDecl child (·.withParent parent)).Linked (as ++ [⟨parent, child⟩]) none where
  parents := by
    intro id e he _
    rw [decl?_modifyDecl] at he
    obtain ⟨d, hd, rfl⟩ := Option.map_eq_some_iff.mp he
    rw [Attachment.parents_concat]
    split
    · exact ⟨List.getLast?_concat.symm, rfl⟩
    · next hne => exact h.parents id d hd fun hsome => hne (Option.some.inj hsome)
  lists := by
    intro a ha
    have hbefore : ctx.Lists a.parent a.child := by
      rcases List.mem_append.mp ha with ha | ha
      · exact h.lists a ha
      · rw [List.mem_singleton.mp ha]
        exact hlists
    exact hbefore.withParent child parent
  present := by
    intro a ha
    rw [size_modifyDecl]
    rcases List.mem_append.mp ha with ha | ha
    · exact h.present a ha
    · rw [List.mem_singleton.mp ha]
      exact hchild

end Linked

end Context

/-! ### Steps -/

namespace Build

variable {b b' : Builder} {as : List Attachment} {parent child id : DeclId} {d : Decl}

/-- Whatever the child points at before it is attached, and whatever it is. -/
theorem linked_of_addToContext {u : Unit} (hb : b.context.Linked as (some child))
    (h : addToContext parent child b = some (u, b')) :
    b'.context.Linked (as ++ [⟨parent, child⟩]) none := by
  obtain ⟨_, b₁, hparent, hchild⟩ := exists_of_bind h
  obtain ⟨⟨d, hd⟩, rfl⟩ := of_updateDecl hparent
  obtain ⟨⟨e, he⟩, rfl⟩ := of_updateDecl hchild
  have hadded := hb.modifyDecl parent (f := (·.addChild child)) (fun _ => rfl) (fun _ => rfl)
    fun d c hc => hc.addChild child
  have hlists : (b.context.modifyDecl parent (·.addChild child)).Lists parent child := by
    refine ⟨d.addChild child, ?_, d.lists_addChild child⟩
    rw [Context.decl?_modifyDecl, hd, Option.map_some, if_pos rfl]
  exact hadded.withParent hlists (Context.lt_of_decl? he)

/-- What a new declaration lists, it lists once it is attached. -/
theorem lists_of_declare (h : declare parent d b = some (id, b'))
    (hfits : b'.context.decls.size < UInt32.size) (hlists : d.Lists child) :
    b'.context.Lists id child := by
  obtain ⟨_, b₁, hadd, h⟩ := exists_of_bind h
  obtain ⟨_, b₂, hattach, h⟩ := exists_of_bind h
  cases h
  obtain ⟨rfl, rfl⟩ := of_addDecl hadd
  have hroom := (keeps_addToContext _ _ _ _ _ hattach).room hfits
  have hnew : (b.context.addDecl d).2.Lists (Id.ofSize b.context.decls.size) child :=
    ⟨d, Context.decl?_addDecl_new d hroom, hlists⟩
  obtain ⟨_, b₃, hparent, hchild⟩ := exists_of_bind hattach
  obtain ⟨-, rfl⟩ := of_updateDecl hparent
  obtain ⟨-, rfl⟩ := of_updateDecl hchild
  exact (hnew.modifyDecl fun _ _ hc => hc.addChild _).withParent _ parent

/-- Parameters are attached one after the other to a function that lists them. -/
theorem linked_of_attachParams {u : PUnit} : ∀ {params : List DeclId} {b : Builder}
    {as : List Attachment}, b.context.Linked as none → (∀ p ∈ params, b.context.Lists id p) →
    (params.forM fun p => updateDecl p (·.withParent id)) b = some (u, b') →
    b'.context.Linked (as ++ params.map fun p => ⟨id, p⟩) none
  | [], b, as, hb, _, h => by
    cases h
    rw [List.map_nil, List.append_nil]
    exact hb
  | p :: params, b, as, hb, hlists, h => by
    obtain ⟨_, b₁, hupdate, h⟩ := exists_of_bind h
    obtain ⟨⟨d, hd⟩, rfl⟩ := of_updateDecl hupdate
    obtain ⟨hp, hparams⟩ := List.forall_mem_cons.mp hlists
    have hattached := (hb.pend p).withParent hp (Context.lt_of_decl? hd)
    rw [List.map_cons, ← List.singleton_append, ← List.append_assoc]
    exact linked_of_attachParams hattached (fun q hq => (hparams q hq).withParent p id) h

section Links

variable (hb : b.context.Linked as none)
include hb

theorem linked_of_declare (h : declare parent d b = some (id, b')) :
    b'.context.Linked (as ++ [⟨parent, id⟩]) none := by
  obtain ⟨_, b₁, hadd, h⟩ := exists_of_bind h
  obtain ⟨_, b₂, hattach, h⟩ := exists_of_bind h
  cases h
  obtain ⟨rfl, rfl⟩ := of_addDecl hadd
  exact linked_of_addToContext (hb.addDecl d) hattach

theorem linked_of_addDecl (hsemantic : d.semanticParent = none) (hlexical : d.lexicalParent = none)
    (h : addDecl d b = some (id, b')) : b'.context.Linked as none := by
  obtain ⟨-, rfl⟩ := of_addDecl h
  exact hb.addOrphan hsemantic hlexical

theorem linked_of_recordType {t : TypeId} (h : recordType id b = some (t, b')) :
    b'.context.Linked as none := by
  obtain ⟨_, b₁, hget, h⟩ := exists_of_bind h
  obtain ⟨_, b₂, htype, h⟩ := exists_of_bind h
  obtain ⟨_, b₃, hupdate, h⟩ := exists_of_bind h
  cases h
  obtain ⟨-, rfl⟩ := of_getDecl hget
  obtain ⟨-, rfl⟩ := of_updateDecl hupdate
  have hmade := hb.of_same (keeps_addType _ _ _ _ htype).same
  exact hmade.modifyDecl id (fun _ => rfl) (fun _ => rfl) fun _ _ hc => hc

theorem linked_of_record {name : String} {range : SourceRange} {t : TypeId}
    (h : record parent name range b = some ((id, t), b')) :
    b'.context.Linked (as ++ [⟨parent, id⟩]) none := by
  obtain ⟨_, _, hname, h⟩ := exists_of_bind h
  obtain ⟨_, b₁, hdeclare, h⟩ := exists_of_bind h
  obtain ⟨_, b₂, htype, h⟩ := exists_of_bind h
  cases h
  obtain ⟨-, rfl⟩ := of_qualified hname
  exact linked_of_recordType (linked_of_declare hb hdeclare) htype

theorem linked_of_field {name : String} {type : QualType} {range : SourceRange}
    (h : field parent name type range b = some (id, b')) :
    b'.context.Linked (as ++ [⟨parent, id⟩]) none := by
  obtain ⟨_, _, hname, hdeclare⟩ := exists_of_bind h
  obtain ⟨-, rfl⟩ := of_qualified hname
  exact linked_of_declare hb hdeclare

theorem linked_of_var {name : String} {type : QualType} {init : Option StmtId} {range : SourceRange}
    (h : var parent name type init range b = some (id, b')) :
    b'.context.Linked (as ++ [⟨parent, id⟩]) none := by
  obtain ⟨b₁, b₂, d, hlocal, hattach, -, rfl⟩ := of_var h
  have hmade := linked_of_addDecl hb rfl rfl hlocal
  exact (linked_of_addToContext (hmade.pend id) hattach).modifyDecl id (fun _ => rfl) (fun _ => rfl)
    fun _ _ hc => hc

theorem linked_of_function {name : String} {type : TypeId} {params : List DeclId}
    {body : Option StmtId} {range : SourceRange}
    (h : function parent name type params body range b = some (id, b'))
    (hfits : b'.context.decls.size < UInt32.size) :
    b'.context.Linked (as ++ ⟨parent, id⟩ :: params.map fun p => ⟨id, p⟩) none := by
  obtain ⟨_, _, hname, h⟩ := exists_of_bind h
  obtain ⟨_, b₁, hdeclare, h⟩ := exists_of_bind h
  obtain ⟨_, b₂, hparams, h⟩ := exists_of_bind h
  cases h
  obtain ⟨-, rfl⟩ := of_qualified hname
  have hdeclared := linked_of_declare hb hdeclare
  have hgrows := (keeps_attachParams id params _ _ _ hparams).decls
  -- the payload of the function lists the parameters from the start
  have hlists : ∀ p ∈ params, b₁.context.Lists id p := fun p hp =>
    lists_of_declare hdeclare (Nat.lt_of_le_of_lt hgrows hfits) (.inr ⟨_, rfl, hp⟩)
  rw [← List.singleton_append, ← List.append_assoc]
  exact linked_of_attachParams hdeclared hlists hparams

end Links

end Build

namespace BuilderRequest

variable {b b' : Builder} {r : BuilderRequest} {nodes : List Visit} {as : List Attachment}

/-- Every request keeps the links of declarations, and adds its attachments. -/
theorem linked_of_perform (hb : b.context.Linked as none) (h : r.perform b = some (nodes, b'))
    (hfits : b'.context.decls.size < UInt32.size) :
    b'.context.Linked (as ++ r.attachments nodes) none := by
  by_cases hdecls : r.OnDecls
  swap
  · rw [attachments_of_not_onDecls hdecls, List.append_nil]
    exact hb.of_same ((onDecls_or_amends h).resolve_left hdecls).same
  cases hdecls with
  | recordType decl =>
    obtain ⟨t, hrun, rfl⟩ := Build.of_return h
    exact (List.append_nil as).symm ▸ Build.linked_of_recordType hb hrun
  | param name type range | localVar name type init range =>
    obtain ⟨id, hrun, rfl⟩ := Build.of_return h
    exact (List.append_nil as).symm ▸ Build.linked_of_addDecl hb rfl rfl hrun
  | function parent name type params body range =>
    obtain ⟨id, hrun, rfl⟩ := Build.of_return h
    exact Build.linked_of_function hb hrun hfits
  | var parent name type init range =>
    obtain ⟨id, hrun, rfl⟩ := Build.of_return h
    exact Build.linked_of_var hb hrun
  | record parent name range =>
    obtain ⟨⟨id, t⟩, b₁, hrun, hrest⟩ := Build.exists_of_bind h
    cases hrest
    exact Build.linked_of_record hb hrun
  | field parent name type range =>
    obtain ⟨id, hrun, rfl⟩ := Build.of_return h
    exact Build.linked_of_field hb hrun
  | addToContext parent child =>
    obtain ⟨u, hrun, rfl⟩ := Build.of_return h
    exact Build.linked_of_addToContext (hb.pend child) hrun
  | declare parent d =>
    obtain ⟨id, hrun, rfl⟩ := Build.of_return h
    exact Build.linked_of_declare hb hrun

end BuilderRequest

end SyntaxExport
