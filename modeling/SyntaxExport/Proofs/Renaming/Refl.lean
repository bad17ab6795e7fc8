import SyntaxExport.Proofs.Renaming.Basic

/-!
# Nodes that keep their positions

The renaming that moves nothing changes nothing, so what is known of renamed nodes holds of contexts
that have the same nodes in the same places.
-/

namespace SyntaxExport

/-- Nothing moves. -/
def Renaming.refl : Renaming :=
  ⟨.refl _, .refl _, .refl _, .refl _, .refl _, .refl _⟩

namespace Renaming

@[simp] theorem coe_refl_decl : ⇑refl.decl = id := rfl

@[simp] theorem coe_refl_stmt : ⇑refl.stmt = id := rfl

@[simp] theorem coe_refl_comment : ⇑refl.comment = id := rfl

@[simp] theorem coe_refl_attr : ⇑refl.attr = id := rfl

@[simp] theorem coe_refl_temporary : ⇑refl.temporary = id := rfl

@[simp] theorem coe_refl_file : ⇑refl.file = id := rfl

end Renaming

/-! ### Locations and attributes -/

@[simp] theorem SourceLocation.rename_refl : SourceLocation.rename .refl = id := rfl

@[simp] theorem SourceRange.rename_refl : SourceRange.rename .refl = id := by
  funext r
  simp [rename]

@[simp] theorem Attr.rename_refl : Attr.rename .refl = id := by
  funext a
  simp [rename]

/-! ### Declarations -/

@[simp] theorem Redeclaration.rename_refl : Redeclaration.rename .refl = id := by
  funext r
  cases r <;> rfl

@[simp] theorem DeclContext.rename_refl : DeclContext.rename .refl = id := by
  funext c
  simp [rename]

@[simp] theorem InitializerSubject.rename_refl : InitializerSubject.rename .refl = id := by
  funext s
  cases s <;> rfl

@[simp] theorem CtorInitializer.rename_refl : CtorInitializer.rename .refl = id := by
  funext i
  simp [rename]

@[simp] theorem NestedNameSpecifier.rename_refl : NestedNameSpecifier.rename .refl = id := by
  funext s
  simp [rename]

@[simp] theorem PropertyAttribute.rename_refl : PropertyAttribute.rename .refl = id := by
  funext a
  cases a <;> rfl

@[simp] theorem BlockCapture.rename_refl : BlockCapture.rename .refl = id := by
  funext c
  simp [rename]

@[simp] theorem DeclPayload.rename_refl : DeclPayload.rename .refl = id := by
  funext p
  cases p <;>
    simp [rename, NamespaceInfo.rename, FunctionInfo.rename, FieldInfo.rename, VarInfo.rename,
      UsingDirectiveInfo.rename, NamespaceAliasInfo.rename, ObjCMethodInfo.rename,
      ObjCCategoryInfo.rename, ObjCCategoryImplInfo.rename, ObjCInterfaceInfo.rename,
      ObjCImplementationInfo.rename, ObjCPropertyInfo.rename, ObjCPropertyImplInfo.rename,
      BlockInfo.rename]

@[simp] theorem Decl.rename_refl : Decl.rename .refl = id := by
  funext d
  simp [rename]

/-! ### Statements and comments -/

@[simp] theorem OverloadInfo.rename_refl : OverloadInfo.rename .refl = id := by
  funext o
  simp [rename]

@[simp] theorem PropertyRef.rename_refl : PropertyRef.rename .refl = id := by
  have htarget : ∀ t : PropertyTarget, t.rename .refl = t := by
    intro t
    cases t <;> rfl
  funext p
  simp [rename, htarget]

@[simp] theorem StmtPayload.rename_refl : StmtPayload.rename .refl = id := by
  funext p
  cases p <;> simp [rename]

@[simp] theorem Stmt.rename_refl : Stmt.rename .refl = id := by
  funext s
  simp [rename]

@[simp] theorem Comment.rename_refl : Comment.rename .refl = id := by
  funext c
  simp [rename]

/-! ### Types and slots -/

@[simp] theorem TypeNode.rename_refl : TypeNode.rename .refl = id := by
  have hpayload : ∀ p : TypePayload, p.rename .refl = p := by
    intro p
    cases p <;> simp [TypePayload.rename]
  funext t
  simp [rename, hpayload]

@[simp] theorem NodeRef.rename_refl : NodeRef.rename .refl = id := by
  funext n
  cases n <;> rfl

@[simp] theorem Site.rename_refl : Site.rename .refl = id := by
  funext s
  cases s <;> simp

@[simp] theorem Token.rename_refl : Token.rename .refl = id := by
  have hitem : ∀ a : Item, a.rename .refl = a := by
    intro a
    cases a <;> simp [Item.rename]
  funext t
  cases t <;> simp [rename, hitem]

/-! ### Contexts -/

/-- What a context has of the nodes that are mentioned, a context with the same declarations, attributes
and types in the same places has as well. -/
theorem Context.mentionedIn_refl {ctx ctx' : Context}
    (hdecl : ∀ {id : DeclId} {d : Decl}, ctx.decl? id = some d → ctx'.decl? id = some d)
    (hattr : ∀ {id : AttrId} {a : Attr}, ctx.attr? id = some a → ctx'.attr? id = some a)
    (htypes : ctx'.types = ctx.types) : ctx.MentionedIn .refl ctx' where
  decl hd := by simpa using hdecl hd
  attr ha := by simpa using hattr ha
  types := by simpa using htypes

end SyntaxExport
