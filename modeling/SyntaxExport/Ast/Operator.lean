import SyntaxExport.Ast.Vocabulary

/-!
# Operators and conversions
-/

namespace SyntaxExport

/-- The conversions of values. -/
inductive CastKind where
  | dependent | bitCast | lvalueBitCast | lvalueToRValue | noOp | baseToDerived | derivedToBase
  | uncheckedDerivedToBase | dynamic | toUnion | arrayToPointerDecay | functionToPointerDecay
  | nullToPointer | nullToMemberPointer | baseToDerivedMemberPointer | derivedToBaseMemberPointer
  | memberPointerToBoolean | reinterpretMemberPointer | userDefinedConversion
  | constructorConversion | integralToPointer | pointerToIntegral | pointerToBoolean | toVoid
  | vectorSplat | integralCast | integralToBoolean | integralToFloating | floatingToIntegral
  | floatingToBoolean | floatingCast | cPointerToObjCPointerCast | blockPointerToObjCPointerCast
  | anyPointerToBlockPointerCast | objCObjectLValueCast | floatingRealToComplex
  | floatingComplexToReal | floatingComplexToBoolean | floatingComplexCast
  | floatingComplexToIntegralComplex | integralRealToComplex | integralComplexToReal
  | integralComplexToBoolean | integralComplexCast | integralComplexToFloatingComplex
  | arcProduceObject | arcConsumeObject | arcReclaimReturnedObject | arcExtendBlockObject
  | atomicToNonAtomic | nonAtomicToAtomic | copyAndAutoreleaseBlockObject | builtinFnToFnPtr
  | zeroToOCLEvent
  deriving DecidableEq, Repr

namespace CastKind

def all : List CastKind :=
  [.dependent, .bitCast, .lvalueBitCast, .lvalueToRValue, .noOp, .baseToDerived, .derivedToBase,
   .uncheckedDerivedToBase, .dynamic, .toUnion, .arrayToPointerDecay, .functionToPointerDecay,
   .nullToPointer, .nullToMemberPointer, .baseToDerivedMemberPointer, .derivedToBaseMemberPointer,
   .memberPointerToBoolean, .reinterpretMemberPointer, .userDefinedConversion,
   .constructorConversion, .integralToPointer, .pointerToIntegral, .pointerToBoolean, .toVoid,
   .vectorSplat, .integralCast, .integralToBoolean, .integralToFloating, .floatingToIntegral,
   .floatingToBoolean, .floatingCast, .cPointerToObjCPointerCast, .blockPointerToObjCPointerCast,
   .anyPointerToBlockPointerCast, .objCObjectLValueCast, .floatingRealToComplex,
   .floatingComplexToReal, .floatingComplexToBoolean, .floatingComplexCast,
   .floatingComplexToIntegralComplex, .integralRealToComplex, .integralComplexToReal,
   .integralComplexToBoolean, .integralComplexCast, .integralComplexToFloatingComplex,
   .arcProduceObject, .arcConsumeObject, .arcReclaimReturnedObject, .arcExtendBlockObject,
   .atomicToNonAtomic, .nonAtomicToAtomic, .copyAndAutoreleaseBlockObject, .builtinFnToFnPtr,
   .zeroToOCLEvent]

def name : CastKind → String
  | .dependent => "Dependent"
  | .bitCast => "BitCast"
  | .lvalueBitCast => "LValueBitCast"
  | .lvalueToRValue => "LValueToRValue"
  | .noOp => "NoOp"
  | .baseToDerived => "BaseToDerived"
  | .derivedToBase => "DerivedToBase"
  | .uncheckedDerivedToBase => "UncheckedDerivedToBase"
  | .dynamic => "Dynamic"
  | .toUnion => "ToUnion"
  | .arrayToPointerDecay => "ArrayToPointerDecay"
  | .functionToPointerDecay => "FunctionToPointerDecay"
  | .nullToPointer => "NullToPointer"
  | .nullToMemberPointer => "NullToMemberPointer"
  | .baseToDerivedMemberPointer => "BaseToDerivedMemberPointer"
  | .derivedToBaseMemberPointer => "DerivedToBaseMemberPointer"
  | .memberPointerToBoolean => "MemberPointerToBoolean"
  | .reinterpretMemberPointer => "ReinterpretMemberPointer"
  | .userDefinedConversion => "UserDefinedConversion"
  | .constructorConversion => "ConstructorConversion"
  | .integralToPointer => "IntegralToPointer"
  | .pointerToIntegral => "PointerToIntegral"
  | .pointerToBoolean => "PointerToBoolean"
  | .toVoid => "ToVoid"
  | .vectorSplat => "VectorSplat"
  | .integralCast => "IntegralCast"
  | .integralToBoolean => "IntegralToBoolean"
  | .integralToFloating => "IntegralToFloating"
  | .floatingToIntegral => "FloatingToIntegral"
  | .floatingToBoolean => "FloatingToBoolean"
  | .floatingCast => "FloatingCast"
  | .cPointerToObjCPointerCast => "CPointerToObjCPointerCast"
  | .blockPointerToObjCPointerCast => "BlockPointerToObjCPointerCast"
  | .anyPointerToBlockPointerCast => "AnyPointerToBlockPointerCast"
  | .objCObjectLValueCast => "ObjCObjectLValueCast"
  | .floatingRealToComplex => "FloatingRealToComplex"
  | .floatingComplexToReal => "FloatingComplexToReal"
  | .floatingComplexToBoolean => "FloatingComplexToBoolean"
  | .floatingComplexCast => "FloatingComplexCast"
  | .floatingComplexToIntegralComplex => "FloatingComplexToIntegralComplex"
  | .integralRealToComplex => "IntegralRealToComplex"
  | .integralComplexToReal => "IntegralComplexToReal"
  | .integralComplexToBoolean => "IntegralComplexToBoolean"
  | .integralComplexCast => "IntegralComplexCast"
  | .integralComplexToFloatingComplex => "IntegralComplexToFloatingComplex"
  | .arcProduceObject => "ARCProduceObject"
  | .arcConsumeObject => "ARCConsumeObject"
  | .arcReclaimReturnedObject => "ARCReclaimReturnedObject"
  | .arcExtendBlockObject => "ARCExtendBlockObject"
  | .atomicToNonAtomic => "AtomicToNonAtomic"
  | .nonAtomicToAtomic => "NonAtomicToAtomic"
  | .copyAndAutoreleaseBlockObject => "CopyAndAutoreleaseBlockObject"
  | .builtinFnToFnPtr => "BuiltinFnToFnPtr"
  | .zeroToOCLEvent => "ZeroToOCLEvent"

instance : Vocabulary CastKind where
  all := all
  word := name
  mem_all a := by cases a <;> simp [all]

end CastKind

/-- The unary operators. -/
inductive UnaryOpcode where
  | postInc | postDec | preInc | preDec | addrOf | deref | plus | minus | not | lnot | real | imag
  | extension
  deriving DecidableEq, Repr

namespace UnaryOpcode

def all : List UnaryOpcode :=
  [.postInc, .postDec, .preInc, .preDec, .addrOf, .deref, .plus, .minus, .not, .lnot, .real, .imag,
   .extension]

def name : UnaryOpcode → String
  | .postInc => "PostInc"
  | .postDec => "PostDec"
  | .preInc => "PreInc"
  | .preDec => "PreDec"
  | .addrOf => "AddrOf"
  | .deref => "Deref"
  | .plus => "Plus"
  | .minus => "Minus"
  | .not => "Not"
  | .lnot => "LNot"
  | .real => "Real"
  | .imag => "Imag"
  | .extension => "Extension"

/-- Whether the operator follows its operand. -/
def isPostfix : UnaryOpcode → Bool
  | .postInc | .postDec => true
  | _ => false

instance : Vocabulary UnaryOpcode where
  all := all
  word := name
  mem_all a := by cases a <;> simp [all]

end UnaryOpcode

/-- The binary operators. -/
inductive BinaryOpcode where
  | ptrMemD | ptrMemI | mul | div | rem | add | sub | shl | shr | lt | gt | le | ge | eq | ne
  | and | xor | or | land | lor | assign | mulAssign | divAssign | remAssign | addAssign
  | subAssign | shlAssign | shrAssign | andAssign | xorAssign | orAssign | comma
  deriving DecidableEq, Repr

namespace BinaryOpcode

def all : List BinaryOpcode :=
  [.ptrMemD, .ptrMemI, .mul, .div, .rem, .add, .sub, .shl, .shr, .lt, .gt, .le, .ge, .eq, .ne,
   .and, .xor, .or, .land, .lor, .assign, .mulAssign, .divAssign, .remAssign, .addAssign,
   .subAssign, .shlAssign, .shrAssign, .andAssign, .xorAssign, .orAssign, .comma]

def name : BinaryOpcode → String
  | .ptrMemD => "PtrMemD"
  | .ptrMemI => "PtrMemI"
  | .mul => "Mul"
  | .div => "Div"
  | .rem => "Rem"
  | .add => "Add"
  | .sub => "Sub"
  | .shl => "Shl"
  | .shr => "Shr"
  | .lt => "LT"
  | .gt => "GT"
  | .le => "LE"
  | .ge => "GE"
  | .eq => "EQ"
  | .ne => "NE"
  | .and => "And"
  | .xor => "Xor"
  | .or => "Or"
  | .land => "LAnd"
  | .lor => "LOr"
  | .assign => "Assign"
  | .mulAssign => "MulAssign"
  | .divAssign => "DivAssign"
  | .remAssign => "RemAssign"
  | .addAssign => "AddAssign"
  | .subAssign => "SubAssign"
  | .shlAssign => "ShlAssign"
  | .shrAssign => "ShrAssign"
  | .andAssign => "AndAssign"
  | .xorAssign => "XorAssign"
  | .orAssign => "OrAssign"
  | .comma => "Comma"

instance : Vocabulary BinaryOpcode where
  all := all
  word := name
  mem_all a := by cases a <;> simp [all]

end BinaryOpcode

end SyntaxExport
