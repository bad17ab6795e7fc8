import SyntaxExport.Kind.Basic

/-!
# Type kinds

The kinds of types of C, C++ and Objective-C. `TypeKind.noType` closes the type list of a document
and stands for the absent type.
-/

namespace SyntaxExport

/-- A type kind. The order of the constructors is the order of the table. -/
inductive TypeKind where
  | type | noType | builtin | complex | pointer | blockPointer | reference | lvalueReference
  | rvalueReference | memberPointer | array | constantArray | incompleteArray | variableArray
  | dependentSizedArray | dependentSizedExtVector | vector | extVector | function | functionProto
  | functionNoProto | unresolvedUsing | paren | typedef | adjusted | decayed | typeOfExpr | typeOf
  | decltype | unaryTransform | tag | record | enum | elaborated | attributed | templateTypeParm
  | substTemplateTypeParm | substTemplateTypeParmPack | templateSpecialization | auto
  | injectedClassName | dependentName | dependentTemplateSpecialization | packExpansion
  | objCObject | objCInterface | objCObjectPointer | atomic
  deriving DecidableEq, Repr, Inhabited

namespace TypeKind

/-- Every type kind, in table order. -/
def all : List TypeKind :=
  [.type, .noType, .builtin, .complex, .pointer, .blockPointer, .reference, .lvalueReference,
   .rvalueReference, .memberPointer, .array, .constantArray, .incompleteArray, .variableArray,
   .dependentSizedArray, .dependentSizedExtVector, .vector, .extVector, .function, .functionProto,
   .functionNoProto, .unresolvedUsing, .paren, .typedef, .adjusted, .decayed, .typeOfExpr, .typeOf,
   .decltype, .unaryTransform, .tag, .record, .enum, .elaborated, .attributed, .templateTypeParm,
   .substTemplateTypeParm, .substTemplateTypeParmPack, .templateSpecialization, .auto,
   .injectedClassName, .dependentName, .dependentTemplateSpecialization, .packExpansion,
   .objCObject, .objCInterface, .objCObjectPointer, .atomic]

/-- The short name of a kind. -/
def name : TypeKind → String
  | .type => "Type"
  | .noType => "None"
  | .builtin => "Builtin"
  | .complex => "Complex"
  | .pointer => "Pointer"
  | .blockPointer => "BlockPointer"
  | .reference => "Reference"
  | .lvalueReference => "LValueReference"
  | .rvalueReference => "RValueReference"
  | .memberPointer => "MemberPointer"
  | .array => "Array"
  | .constantArray => "ConstantArray"
  | .incompleteArray => "IncompleteArray"
  | .variableArray => "VariableArray"
  | .dependentSizedArray => "DependentSizedArray"
  | .dependentSizedExtVector => "DependentSizedExtVector"
  | .vector => "Vector"
  | .extVector => "ExtVector"
  | .function => "Function"
  | .functionProto => "FunctionProto"
  | .functionNoProto => "FunctionNoProto"
  | .unresolvedUsing => "UnresolvedUsing"
  | .paren => "Paren"
  | .typedef => "Typedef"
  | .adjusted => "Adjusted"
  | .decayed => "Decayed"
  | .typeOfExpr => "TypeOfExpr"
  | .typeOf => "TypeOf"
  | .decltype => "Decltype"
  | .unaryTransform => "UnaryTransform"
  | .tag => "Tag"
  | .record => "Record"
  | .enum => "Enum"
  | .elaborated => "Elaborated"
  | .attributed => "Attributed"
  | .templateTypeParm => "TemplateTypeParm"
  | .substTemplateTypeParm => "SubstTemplateTypeParm"
  | .substTemplateTypeParmPack => "SubstTemplateTypeParmPack"
  | .templateSpecialization => "TemplateSpecialization"
  | .auto => "Auto"
  | .injectedClassName => "InjectedClassName"
  | .dependentName => "DependentName"
  | .dependentTemplateSpecialization => "DependentTemplateSpecialization"
  | .packExpansion => "PackExpansion"
  | .objCObject => "ObjCObject"
  | .objCInterface => "ObjCInterface"
  | .objCObjectPointer => "ObjCObjectPointer"
  | .atomic => "Atomic"

/-- The kind one level up; only the root of the family has none. -/
def parent : TypeKind → Option TypeKind
  | .type => none
  | .noType | .builtin | .complex | .pointer | .blockPointer | .reference | .memberPointer
  | .array | .dependentSizedExtVector | .vector | .function | .unresolvedUsing | .paren | .typedef
  | .adjusted | .typeOfExpr | .typeOf | .decltype | .unaryTransform | .tag | .elaborated
  | .attributed | .templateTypeParm | .substTemplateTypeParm | .substTemplateTypeParmPack
  | .templateSpecialization | .auto | .injectedClassName | .dependentName
  | .dependentTemplateSpecialization | .packExpansion | .objCObject | .objCObjectPointer | .atomic
    => some .type
  | .lvalueReference | .rvalueReference => some .reference
  | .constantArray | .incompleteArray | .variableArray | .dependentSizedArray => some .array
  | .extVector => some .vector
  | .functionProto | .functionNoProto => some .function
  | .decayed => some .adjusted
  | .record | .enum => some .tag
  | .objCInterface => some .objCObject

/-- The kinds that only occur as levels of the hierarchy. -/
def isAbstract : TypeKind → Bool
  | .type | .reference | .array | .function | .tag => true
  | _ => false

/-- The number of fields a level adds to the tuple of the level above it. -/
def ownFieldCount : TypeKind → Nat
  | .type | .builtin | .pointer | .blockPointer | .reference | .memberPointer | .array
  | .constantArray | .function | .functionProto | .paren | .typedef | .adjusted | .decltype | .tag
  | .objCObject | .objCInterface | .objCObjectPointer | .atomic => 1
  | .noType | .complex | .lvalueReference | .rvalueReference | .incompleteArray | .variableArray
  | .dependentSizedArray | .dependentSizedExtVector | .vector | .extVector | .functionNoProto
  | .unresolvedUsing | .decayed | .typeOfExpr | .typeOf | .unaryTransform | .record | .enum
  | .elaborated | .attributed | .templateTypeParm | .substTemplateTypeParm
  | .substTemplateTypeParmPack | .templateSpecialization | .auto | .injectedClassName
  | .dependentName | .dependentTemplateSpecialization | .packExpansion => 0

instance : NodeKind TypeKind where
  family := .type
  all := all
  name := name
  parent := parent
  isAbstract := isAbstract
  ownFieldCount := ownFieldCount
  rank k := k.ctorIdx
  rank_parent_lt k := by cases k <;> decide

end TypeKind

end SyntaxExport
