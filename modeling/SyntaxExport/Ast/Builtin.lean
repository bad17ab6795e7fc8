import SyntaxExport.Ast.Vocabulary

/-!
# Builtin types
-/

namespace SyntaxExport

/-- The builtin types. -/
inductive BuiltinKind where
  | void | bool | charU | uChar | wCharU | char16 | char32 | uShort | uInt | uLong | uLongLong
  | uInt128 | charS | sChar | wCharS | short | int | long | longLong | int128 | half | float
  | double | longDouble | nullPtr | objCId | objCClass | objCSel | dependent | overload
  | boundMember | pseudoObject | unknownAny | builtinFn | arcUnbridgedCast
  deriving DecidableEq, Repr

namespace BuiltinKind

def all : List BuiltinKind :=
  [.void, .bool, .charU, .uChar, .wCharU, .char16, .char32, .uShort, .uInt, .uLong, .uLongLong,
   .uInt128, .charS, .sChar, .wCharS, .short, .int, .long, .longLong, .int128, .half, .float,
   .double, .longDouble, .nullPtr, .objCId, .objCClass, .objCSel, .dependent, .overload,
   .boundMember, .pseudoObject, .unknownAny, .builtinFn, .arcUnbridgedCast]

/-- The name of a builtin type in a document. -/
def name : BuiltinKind → String
  | .void => "Void"
  | .bool => "Bool"
  | .charU => "Char_U"
  | .uChar => "UChar"
  | .wCharU => "WChar_U"
  | .char16 => "Char16"
  | .char32 => "Char32"
  | .uShort => "UShort"
  | .uInt => "UInt"
  | .uLong => "ULong"
  | .uLongLong => "ULongLong"
  | .uInt128 => "UInt128"
  | .charS => "Char_S"
  | .sChar => "SChar"
  | .wCharS => "WChar_S"
  | .short => "Short"
  | .int => "Int"
  | .long => "Long"
  | .longLong => "LongLong"
  | .int128 => "Int128"
  | .half => "Half"
  | .float => "Float"
  | .double => "Double"
  | .longDouble => "LongDouble"
  | .nullPtr => "NullPtr"
  | .objCId => "ObjCId"
  | .objCClass => "ObjCClass"
  | .objCSel => "ObjCSel"
  | .dependent => "Dependent"
  | .overload => "Overload"
  | .boundMember => "BoundMember"
  | .pseudoObject => "PseudoObject"
  | .unknownAny => "UnknownAny"
  | .builtinFn => "BuiltinFn"
  | .arcUnbridgedCast => "ARCUnbridgedCast"

/-- The source spelling of a builtin type. -/
def spelling : BuiltinKind → String
  | .void => "void"
  | .bool => "_Bool"
  | .charU | .charS => "char"
  | .uChar => "unsigned char"
  | .wCharU | .wCharS => "wchar_t"
  | .char16 => "char16_t"
  | .char32 => "char32_t"
  | .uShort => "unsigned short"
  | .uInt => "unsigned int"
  | .uLong => "unsigned long"
  | .uLongLong => "unsigned long long"
  | .uInt128 => "unsigned __int128"
  | .sChar => "signed char"
  | .short => "short"
  | .int => "int"
  | .long => "long"
  | .longLong => "long long"
  | .int128 => "__int128"
  | .half => "half"
  | .float => "float"
  | .double => "double"
  | .longDouble => "long double"
  | .nullPtr => "nullptr_t"
  | .objCId => "id"
  | .objCClass => "Class"
  | .objCSel => "SEL"
  | .dependent => "<dependent type>"
  | .overload => "<overloaded function type>"
  | .boundMember => "<bound member function type>"
  | .pseudoObject => "<pseudo-object type>"
  | .unknownAny => "<unknown type>"
  | .builtinFn => "<builtin fn type>"
  | .arcUnbridgedCast => "<ARC unbridged cast type>"

instance : Vocabulary BuiltinKind where
  all := all
  word := name
  mem_all a := by cases a <;> simp [all]

end BuiltinKind

end SyntaxExport
