import SyntaxExport.Ast.Vocabulary

/-!
# Vocabularies of payloads

The closed sets of words that declarations, statements and comments are described with. `name` is
the word a document holds.
-/

namespace SyntaxExport

/-- The keyword that makes an enumeration scoped. -/
inductive EnumScope where
  | enumClass | enumStruct
  deriving DecidableEq, Repr

namespace EnumScope

def all : List EnumScope :=
  [.enumClass, .enumStruct]

def name : EnumScope → String
  | .enumClass => "Class"
  | .enumStruct => "Struct"

instance : Vocabulary EnumScope where
  all := all
  word := name
  mem_all a := by cases a <;> simp [all]

end EnumScope

/-- The storage class specifiers. -/
inductive StorageClass where
  | external | static | privateExtern | auto | register
  deriving DecidableEq, Repr

namespace StorageClass

def all : List StorageClass :=
  [.external, .static, .privateExtern, .auto, .register]

/-- The source spelling of a specifier. -/
def spelling : StorageClass → String
  | .external => "extern"
  | .static => "static"
  | .privateExtern => "__private_extern__"
  | .auto => "auto"
  | .register => "register"

instance : Vocabulary StorageClass where
  all := all
  word := spelling
  mem_all a := by cases a <;> simp [all]

end StorageClass

/-- The access of an instance variable. -/
inductive AccessControl where
  | unspecified | privateAccess | protectedAccess | publicAccess | packageAccess
  deriving DecidableEq, Repr

namespace AccessControl

def all : List AccessControl :=
  [.unspecified, .privateAccess, .protectedAccess, .publicAccess, .packageAccess]

def name : AccessControl → String
  | .unspecified => "None"
  | .privateAccess => "Private"
  | .protectedAccess => "Protected"
  | .publicAccess => "Public"
  | .packageAccess => "Package"

instance : Vocabulary AccessControl where
  all := all
  word := name
  mem_all a := by cases a <;> simp [all]

end AccessControl

/-- How a variable lives in thread storage. -/
inductive TlsKind where
  | noTls | static | dynamic
  deriving DecidableEq, Repr

namespace TlsKind

def all : List TlsKind :=
  [.noTls, .static, .dynamic]

def name : TlsKind → String
  | .noTls => "Tls_none"
  | .static => "Tls_static"
  | .dynamic => "Tls_dynamic"

instance : Vocabulary TlsKind where
  all := all
  word := name
  mem_all a := by cases a <;> simp [all]

end TlsKind

/-- What a component of a qualifier names. -/
inductive SpecifierKind where
  | identifier | namespaceName | namespaceAlias | typeSpec | typeSpecWithTemplate | global | super
  deriving DecidableEq, Repr

namespace SpecifierKind

def all : List SpecifierKind :=
  [.identifier, .namespaceName, .namespaceAlias, .typeSpec, .typeSpecWithTemplate, .global, .super]

def name : SpecifierKind → String
  | .identifier => "Identifier"
  | .namespaceName => "Namespace"
  | .namespaceAlias => "NamespaceAlias"
  | .typeSpec => "TypeSpec"
  | .typeSpecWithTemplate => "TypeSpecWithTemplate"
  | .global => "Global"
  | .super => "Super"

instance : Vocabulary SpecifierKind where
  all := all
  word := name
  mem_all a := by cases a <;> simp [all]

end SpecifierKind

/-- Whether a property of a protocol must be implemented. -/
inductive PropertyControl where
  | unspecified | required | optional
  deriving DecidableEq, Repr

namespace PropertyControl

def all : List PropertyControl :=
  [.unspecified, .required, .optional]

def name : PropertyControl → String
  | .unspecified => "None"
  | .required => "Required"
  | .optional => "Optional"

instance : Vocabulary PropertyControl where
  all := all
  word := name
  mem_all a := by cases a <;> simp [all]

end PropertyControl

/-- How a property is implemented. -/
inductive PropertyImplementation where
  | synthesize | dynamic
  deriving DecidableEq, Repr

namespace PropertyImplementation

def all : List PropertyImplementation :=
  [.synthesize, .dynamic]

def name : PropertyImplementation → String
  | .synthesize => "Synthesize"
  | .dynamic => "Dynamic"

instance : Vocabulary PropertyImplementation where
  all := all
  word := name
  mem_all a := by cases a <;> simp [all]

end PropertyImplementation

/-- The value category of an expression. -/
inductive ValueKind where
  | rvalue | lvalue | xvalue
  deriving DecidableEq, Repr

namespace ValueKind

def all : List ValueKind :=
  [.rvalue, .lvalue, .xvalue]

def name : ValueKind → String
  | .rvalue => "RValue"
  | .lvalue => "LValue"
  | .xvalue => "XValue"

instance : Vocabulary ValueKind where
  all := all
  word := name
  mem_all a := by cases a <;> simp [all]

end ValueKind

/-- The kind of object an expression denotes. -/
inductive ObjectKind where
  | ordinary | bitField | objCProperty | objCSubscript | vectorComponent
  deriving DecidableEq, Repr

namespace ObjectKind

def all : List ObjectKind :=
  [.ordinary, .bitField, .objCProperty, .objCSubscript, .vectorComponent]

def name : ObjectKind → String
  | .ordinary => "Ordinary"
  | .bitField => "BitField"
  | .objCProperty => "ObjCProperty"
  | .objCSubscript => "ObjCSubscript"
  | .vectorComponent => "VectorComponent"

instance : Vocabulary ObjectKind where
  all := all
  word := name
  mem_all a := by cases a <;> simp [all]

end ObjectKind

/-- The kind of name an overload set is looked up by. -/
inductive DeclarationNameKind where
  | identifier | objCZeroArgSelector | objCOneArgSelector | objCMultiArgSelector
  | cxxConstructorName | cxxDestructorName | cxxConversionFunctionName | cxxOperatorName
  | cxxLiteralOperatorName | cxxUsingDirective
  deriving DecidableEq, Repr

namespace DeclarationNameKind

def all : List DeclarationNameKind :=
  [.identifier, .objCZeroArgSelector, .objCOneArgSelector, .objCMultiArgSelector,
   .cxxConstructorName, .cxxDestructorName, .cxxConversionFunctionName, .cxxOperatorName,
   .cxxLiteralOperatorName, .cxxUsingDirective]

def name : DeclarationNameKind → String
  | .identifier => "Identifier"
  | .objCZeroArgSelector => "ObjCZeroArgSelector"
  | .objCOneArgSelector => "ObjCOneArgSelector"
  | .objCMultiArgSelector => "ObjCMultiArgSelector"
  | .cxxConstructorName => "CXXConstructorName"
  | .cxxDestructorName => "CXXDestructorName"
  | .cxxConversionFunctionName => "CXXConversionFunctionName"
  | .cxxOperatorName => "CXXOperatorName"
  | .cxxLiteralOperatorName => "CXXLiteralOperatorName"
  | .cxxUsingDirective => "CXXUsingDirective"

instance : Vocabulary DeclarationNameKind where
  all := all
  word := name
  mem_all a := by cases a <;> simp [all]

end DeclarationNameKind

/-- The predefined identifiers. -/
inductive PredefinedIdent where
  | func | function | lfunction | funcDName | funcSig | prettyFunction | prettyFunctionNoVirtual
  deriving DecidableEq, Repr

namespace PredefinedIdent

def all : List PredefinedIdent :=
  [.func, .function, .lfunction, .funcDName, .funcSig, .prettyFunction, .prettyFunctionNoVirtual]

def name : PredefinedIdent → String
  | .func => "Func"
  | .function => "Function"
  | .lfunction => "LFunction"
  | .funcDName => "FuncDName"
  | .funcSig => "FuncSig"
  | .prettyFunction => "PrettyFunction"
  | .prettyFunctionNoVirtual => "PrettyFunctionNoVirtual"

instance : Vocabulary PredefinedIdent where
  all := all
  word := name
  mem_all a := by cases a <;> simp [all]

end PredefinedIdent

/-- The traits of a type or expression. -/
inductive TraitKind where
  | sizeOf | alignOf | vecStep
  deriving DecidableEq, Repr

namespace TraitKind

def all : List TraitKind :=
  [.sizeOf, .alignOf, .vecStep]

def name : TraitKind → String
  | .sizeOf => "SizeOf"
  | .alignOf => "AlignOf"
  | .vecStep => "VecStep"

instance : Vocabulary TraitKind where
  all := all
  word := name
  mem_all a := by cases a <;> simp [all]

end TraitKind

/-- What a subscript selects from. -/
inductive SubscriptKind where
  | array | dictionary
  deriving DecidableEq, Repr

namespace SubscriptKind

def all : List SubscriptKind :=
  [.array, .dictionary]

def name : SubscriptKind → String
  | .array => "ArraySubscript"
  | .dictionary => "DictionarySubscript"

instance : Vocabulary SubscriptKind where
  all := all
  word := name
  mem_all a := by cases a <;> simp [all]

end SubscriptKind

/-- How the arguments of an inline command are rendered. -/
inductive RenderKind where
  | normal | bold | monospaced | emphasized
  deriving DecidableEq, Repr

namespace RenderKind

def all : List RenderKind :=
  [.normal, .bold, .monospaced, .emphasized]

def name : RenderKind → String
  | .normal => "Normal"
  | .bold => "Bold"
  | .monospaced => "Monospaced"
  | .emphasized => "Emphasized"

instance : Vocabulary RenderKind where
  all := all
  word := name
  mem_all a := by cases a <;> simp [all]

end RenderKind

/-- The direction in which a parameter passes its value. -/
inductive ParamDirection where
  | input | output | both
  deriving DecidableEq, Repr

namespace ParamDirection

def all : List ParamDirection :=
  [.input, .output, .both]

def name : ParamDirection → String
  | .input => "In"
  | .output => "Out"
  | .both => "InOut"

instance : Vocabulary ParamDirection where
  all := all
  word := name
  mem_all a := by cases a <;> simp [all]

end ParamDirection

end SyntaxExport
