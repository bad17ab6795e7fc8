import SyntaxExport.Kind.Basic

/-!
# Declaration kinds

The kinds of declarations of C, C++ and Objective-C. Abstract kinds are levels of the hierarchy and
never the kind of a node.
-/

namespace SyntaxExport

/-- A declaration kind. The order of the constructors is the order of the table. -/
inductive DeclKind where
  | decl | accessSpec | block | captured | classScopeFunctionSpecialization | empty | fileScopeAsm
  | friend | friendTemplate | importDecl | linkageSpec | named | label | namespaceDecl
  | namespaceAlias | objCCompatibleAlias | objCContainer | objCCategory | objCImpl
  | objCCategoryImpl | objCImplementation | objCInterface | objCProtocol | objCMethod
  | objCProperty | template | classTemplate | functionTemplate | typeAliasTemplate | varTemplate
  | templateTemplateParm | type | tag | enum | record | cxxRecord | classTemplateSpecialization
  | classTemplatePartialSpecialization | templateTypeParm | typedefName | typeAlias | typedef
  | unresolvedUsingTypename | usingDecl | usingDirective | usingShadow | value | declarator
  | field | objCAtDefsField | objCIvar | function | cxxMethod | cxxConstructor | cxxConversion
  | cxxDestructor | msProperty | nonTypeTemplateParm | var | implicitParam | parmVar
  | varTemplateSpecialization | varTemplatePartialSpecialization | enumConstant | indirectField
  | unresolvedUsingValue | objCPropertyImpl | staticAssert | translationUnit
  deriving DecidableEq, Repr, Inhabited

namespace DeclKind

/-- Every declaration kind, in table order. -/
def all : List DeclKind :=
  [.decl, .accessSpec, .block, .captured, .classScopeFunctionSpecialization, .empty, .fileScopeAsm,
   .friend, .friendTemplate, .importDecl, .linkageSpec, .named, .label, .namespaceDecl,
   .namespaceAlias, .objCCompatibleAlias, .objCContainer, .objCCategory, .objCImpl,
   .objCCategoryImpl, .objCImplementation, .objCInterface, .objCProtocol, .objCMethod,
   .objCProperty, .template, .classTemplate, .functionTemplate, .typeAliasTemplate, .varTemplate,
   .templateTemplateParm, .type, .tag, .enum, .record, .cxxRecord, .classTemplateSpecialization,
   .classTemplatePartialSpecialization, .templateTypeParm, .typedefName, .typeAlias, .typedef,
   .unresolvedUsingTypename, .usingDecl, .usingDirective, .usingShadow, .value, .declarator,
   .field, .objCAtDefsField, .objCIvar, .function, .cxxMethod, .cxxConstructor, .cxxConversion,
   .cxxDestructor, .msProperty, .nonTypeTemplateParm, .var, .implicitParam, .parmVar,
   .varTemplateSpecialization, .varTemplatePartialSpecialization, .enumConstant, .indirectField,
   .unresolvedUsingValue, .objCPropertyImpl, .staticAssert, .translationUnit]

/-- The short name of a kind. -/
def name : DeclKind → String
  | .decl => "Decl"
  | .accessSpec => "AccessSpec"
  | .block => "Block"
  | .captured => "Captured"
  | .classScopeFunctionSpecialization => "ClassScopeFunctionSpecialization"
  | .empty => "Empty"
  | .fileScopeAsm => "FileScopeAsm"
  | .friend => "Friend"
  | .friendTemplate => "FriendTemplate"
  | .importDecl => "Import"
  | .linkageSpec => "LinkageSpec"
  | .named => "Named"
  | .label => "Label"
  | .namespaceDecl => "Namespace"
  | .namespaceAlias => "NamespaceAlias"
  | .objCCompatibleAlias => "ObjCCompatibleAlias"
  | .objCContainer => "ObjCContainer"
  | .objCCategory => "ObjCCategory"
  | .objCImpl => "ObjCImpl"
  | .objCCategoryImpl => "ObjCCategoryImpl"
  | .objCImplementation => "ObjCImplementation"
  | .objCInterface => "ObjCInterface"
  | .objCProtocol => "ObjCProtocol"
  | .objCMethod => "ObjCMethod"
  | .objCProperty => "ObjCProperty"
  | .template => "Template"
  | .classTemplate => "ClassTemplate"
  | .functionTemplate => "FunctionTemplate"
  | .typeAliasTemplate => "TypeAliasTemplate"
  | .varTemplate => "VarTemplate"
  | .templateTemplateParm => "TemplateTemplateParm"
  | .type => "Type"
  | .tag => "Tag"
  | .enum => "Enum"
  | .record => "Record"
  | .cxxRecord => "CXXRecord"
  | .classTemplateSpecialization => "ClassTemplateSpecialization"
  | .classTemplatePartialSpecialization => "ClassTemplatePartialSpecialization"
  | .templateTypeParm => "TemplateTypeParm"
  | .typedefName => "TypedefName"
  | .typeAlias => "TypeAlias"
  | .typedef => "Typedef"
  | .unresolvedUsingTypename => "UnresolvedUsingTypename"
  | .usingDecl => "Using"
  | .usingDirective => "UsingDirective"
  | .usingShadow => "UsingShadow"
  | .value => "Value"
  | .declarator => "Declarator"
  | .field => "Field"
  | .objCAtDefsField => "ObjCAtDefsField"
  | .objCIvar => "ObjCIvar"
  | .function => "Function"
  | .cxxMethod => "CXXMethod"
  | .cxxConstructor => "CXXConstructor"
  | .cxxConversion => "CXXConversion"
  | .cxxDestructor => "CXXDestructor"
  | .msProperty => "MSProperty"
  | .nonTypeTemplateParm => "NonTypeTemplateParm"
  | .var => "Var"
  | .implicitParam => "ImplicitParam"
  | .parmVar => "ParmVar"
  | .varTemplateSpecialization => "VarTemplateSpecialization"
  | .varTemplatePartialSpecialization => "VarTemplatePartialSpecialization"
  | .enumConstant => "EnumConstant"
  | .indirectField => "IndirectField"
  | .unresolvedUsingValue => "UnresolvedUsingValue"
  | .objCPropertyImpl => "ObjCPropertyImpl"
  | .staticAssert => "StaticAssert"
  | .translationUnit => "TranslationUnit"

/-- The kind one level up; only the root of the family has none. -/
def parent : DeclKind → Option DeclKind
  | .decl => none
  | .accessSpec | .block | .captured | .classScopeFunctionSpecialization | .empty | .fileScopeAsm
  | .friend | .friendTemplate | .importDecl | .linkageSpec | .named | .objCPropertyImpl
  | .staticAssert | .translationUnit => some .decl
  | .label | .namespaceDecl | .namespaceAlias | .objCCompatibleAlias | .objCContainer
  | .objCMethod | .objCProperty | .template | .type | .usingDecl | .usingDirective | .usingShadow
  | .value => some .named
  | .objCCategory | .objCImpl | .objCInterface | .objCProtocol => some .objCContainer
  | .objCCategoryImpl | .objCImplementation => some .objCImpl
  | .classTemplate | .functionTemplate | .typeAliasTemplate | .varTemplate | .templateTemplateParm
    => some .template
  | .tag | .templateTypeParm | .typedefName | .unresolvedUsingTypename => some .type
  | .enum | .record => some .tag
  | .cxxRecord => some .record
  | .classTemplateSpecialization => some .cxxRecord
  | .classTemplatePartialSpecialization => some .classTemplateSpecialization
  | .typeAlias | .typedef => some .typedefName
  | .declarator | .enumConstant | .indirectField | .unresolvedUsingValue => some .value
  | .field | .function | .msProperty | .nonTypeTemplateParm | .var => some .declarator
  | .objCAtDefsField | .objCIvar => some .field
  | .cxxMethod => some .function
  | .cxxConstructor | .cxxConversion | .cxxDestructor => some .cxxMethod
  | .implicitParam | .parmVar | .varTemplateSpecialization => some .var
  | .varTemplatePartialSpecialization => some .varTemplateSpecialization

/-- The kinds that only occur as levels of the hierarchy. -/
def isAbstract : DeclKind → Bool
  | .decl | .named | .objCContainer | .objCImpl | .template | .type | .tag | .typedefName | .value
  | .declarator => true
  | _ => false

/-- The number of fields a level adds to the tuple of the level above it. -/
def ownFieldCount : DeclKind → Nat
  | .block | .namespaceDecl | .translationUnit => 3
  | .captured | .linkageSpec | .objCContainer | .type | .tag => 2
  | .decl | .fileScopeAsm | .importDecl | .named | .namespaceAlias | .objCCompatibleAlias
  | .objCCategory | .objCCategoryImpl | .objCImplementation | .objCInterface | .objCProtocol
  | .objCMethod | .objCProperty | .enum | .record | .cxxRecord | .typedef | .usingDirective
  | .value | .field | .objCIvar | .function | .var | .enumConstant | .indirectField
  | .objCPropertyImpl => 1
  | .accessSpec | .classScopeFunctionSpecialization | .empty | .friend | .friendTemplate | .label
  | .objCImpl | .template | .classTemplate | .functionTemplate | .typeAliasTemplate | .varTemplate
  | .templateTemplateParm | .classTemplateSpecialization | .classTemplatePartialSpecialization
  | .templateTypeParm | .typedefName | .typeAlias | .unresolvedUsingTypename | .usingDecl
  | .usingShadow | .declarator | .objCAtDefsField | .cxxMethod | .cxxConstructor | .cxxConversion
  | .cxxDestructor | .msProperty | .nonTypeTemplateParm | .implicitParam | .parmVar
  | .varTemplateSpecialization | .varTemplatePartialSpecialization | .unresolvedUsingValue
  | .staticAssert => 0

instance : NodeKind DeclKind where
  family := .decl
  all := all
  name := name
  parent := parent
  isAbstract := isAbstract
  ownFieldCount := ownFieldCount
  rank k := k.ctorIdx
  rank_parent_lt k := by cases k <;> decide

/-- The kinds whose nodes own a list of child declarations. -/
def isDeclContext (k : DeclKind) : Bool :=
  k matches .block | .captured | .linkageSpec | .namespaceDecl | .translationUnit
    || NodeKind.inherits k .objCContainer || NodeKind.inherits k .tag

/-- The kinds whose nodes have a name. -/
def isNamed (k : DeclKind) : Bool :=
  NodeKind.inherits k .named

/-- The kinds whose nodes have a value type. -/
def isValue (k : DeclKind) : Bool :=
  NodeKind.inherits k .value

end DeclKind

end SyntaxExport
