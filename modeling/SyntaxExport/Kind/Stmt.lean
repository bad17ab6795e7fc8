import SyntaxExport.Kind.Basic

/-!
# Statement kinds

The kinds of statements and expressions of C, C++ and Objective-C. Expressions are the kinds below
`StmtKind.expr`.
-/

namespace SyntaxExport

/-- A statement or expression kind. The order of the constructors is the order of the table. -/
inductive StmtKind where
  | stmt | nullStmt | compoundStmt | labelStmt | attributedStmt | ifStmt | switchStmt | whileStmt
  | doStmt | forStmt | gotoStmt | indirectGotoStmt | continueStmt | breakStmt | returnStmt
  | declStmt | switchCase | caseStmt | defaultStmt | capturedStmt | asmStmt | gccAsmStmt
  | msAsmStmt | objCAtTryStmt | objCAtCatchStmt | objCAtFinallyStmt | objCAtThrowStmt
  | objCAtSynchronizedStmt | objCForCollectionStmt | objCAutoreleasePoolStmt | cxxCatchStmt
  | cxxTryStmt | cxxForRangeStmt | sehTryStmt | sehExceptStmt | sehFinallyStmt | sehLeaveStmt
  | msDependentExistsStmt | expr | predefinedExpr | declRefExpr | integerLiteral | floatingLiteral
  | imaginaryLiteral | stringLiteral | characterLiteral | parenExpr | unaryOperator | offsetOfExpr
  | unaryExprOrTypeTraitExpr | arraySubscriptExpr | callExpr | cxxMemberCallExpr
  | cxxOperatorCallExpr | userDefinedLiteral | cudaKernelCallExpr | memberExpr | castExpr
  | implicitCastExpr | explicitCastExpr | cStyleCastExpr | cxxFunctionalCastExpr
  | cxxNamedCastExpr | cxxStaticCastExpr | cxxDynamicCastExpr | cxxReinterpretCastExpr
  | cxxConstCastExpr | objCBridgedCastExpr | binaryOperator | compoundAssignOperator
  | abstractConditionalOperator | conditionalOperator | binaryConditionalOperator
  | compoundLiteralExpr | extVectorElementExpr | initListExpr | designatedInitExpr
  | implicitValueInitExpr | parenListExpr | vaArgExpr | genericSelectionExpr | pseudoObjectExpr
  | atomicExpr | addrLabelExpr | stmtExpr | chooseExpr | gnuNullExpr | cxxBoolLiteralExpr
  | cxxNullPtrLiteralExpr | cxxThisExpr | cxxThrowExpr | cxxDefaultArgExpr | cxxDefaultInitExpr
  | cxxScalarValueInitExpr | cxxStdInitializerListExpr | cxxNewExpr | cxxDeleteExpr
  | cxxPseudoDestructorExpr | typeTraitExpr | arrayTypeTraitExpr | expressionTraitExpr
  | dependentScopeDeclRefExpr | cxxConstructExpr | cxxTemporaryObjectExpr | cxxBindTemporaryExpr
  | exprWithCleanups | cxxUnresolvedConstructExpr | cxxDependentScopeMemberExpr | overloadExpr
  | unresolvedLookupExpr | unresolvedMemberExpr | cxxNoexceptExpr | packExpansionExpr
  | sizeOfPackExpr | substNonTypeTemplateParmExpr | substNonTypeTemplateParmPackExpr
  | functionParmPackExpr | materializeTemporaryExpr | lambdaExpr | cxxFoldExpr | cxxUuidofExpr
  | cxxTypeidExpr | objCStringLiteral | objCBoxedExpr | objCArrayLiteral | objCDictionaryLiteral
  | objCEncodeExpr | objCMessageExpr | objCSelectorExpr | objCProtocolExpr | objCIvarRefExpr
  | objCPropertyRefExpr | objCIsaExpr | objCIndirectCopyRestoreExpr | objCBoolLiteralExpr
  | objCSubscriptRefExpr | shuffleVectorExpr | convertVectorExpr | blockExpr | opaqueValueExpr
  | typoExpr | asTypeExpr
  deriving DecidableEq, Repr, Inhabited

namespace StmtKind

/-- Every statement kind, in table order. -/
def all : List StmtKind :=
  [.stmt, .nullStmt, .compoundStmt, .labelStmt, .attributedStmt, .ifStmt, .switchStmt, .whileStmt,
   .doStmt, .forStmt, .gotoStmt, .indirectGotoStmt, .continueStmt, .breakStmt, .returnStmt,
   .declStmt, .switchCase, .caseStmt, .defaultStmt, .capturedStmt, .asmStmt, .gccAsmStmt,
   .msAsmStmt, .objCAtTryStmt, .objCAtCatchStmt, .objCAtFinallyStmt, .objCAtThrowStmt,
   .objCAtSynchronizedStmt, .objCForCollectionStmt, .objCAutoreleasePoolStmt, .cxxCatchStmt,
   .cxxTryStmt, .cxxForRangeStmt, .sehTryStmt, .sehExceptStmt, .sehFinallyStmt, .sehLeaveStmt,
   .msDependentExistsStmt, .expr, .predefinedExpr, .declRefExpr, .integerLiteral, .floatingLiteral,
   .imaginaryLiteral, .stringLiteral, .characterLiteral, .parenExpr, .unaryOperator, .offsetOfExpr,
   .unaryExprOrTypeTraitExpr, .arraySubscriptExpr, .callExpr, .cxxMemberCallExpr,
   .cxxOperatorCallExpr, .userDefinedLiteral, .cudaKernelCallExpr, .memberExpr, .castExpr,
   .implicitCastExpr, .explicitCastExpr, .cStyleCastExpr, .cxxFunctionalCastExpr,
   .cxxNamedCastExpr, .cxxStaticCastExpr, .cxxDynamicCastExpr, .cxxReinterpretCastExpr,
   .cxxConstCastExpr, .objCBridgedCastExpr, .binaryOperator, .compoundAssignOperator,
   .abstractConditionalOperator, .conditionalOperator, .binaryConditionalOperator,
   .compoundLiteralExpr, .extVectorElementExpr, .initListExpr, .designatedInitExpr,
   .implicitValueInitExpr, .parenListExpr, .vaArgExpr, .genericSelectionExpr, .pseudoObjectExpr,
   .atomicExpr, .addrLabelExpr, .stmtExpr, .chooseExpr, .gnuNullExpr, .cxxBoolLiteralExpr,
   .cxxNullPtrLiteralExpr, .cxxThisExpr, .cxxThrowExpr, .cxxDefaultArgExpr, .cxxDefaultInitExpr,
   .cxxScalarValueInitExpr, .cxxStdInitializerListExpr, .cxxNewExpr, .cxxDeleteExpr,
   .cxxPseudoDestructorExpr, .typeTraitExpr, .arrayTypeTraitExpr, .expressionTraitExpr,
   .dependentScopeDeclRefExpr, .cxxConstructExpr, .cxxTemporaryObjectExpr, .cxxBindTemporaryExpr,
   .exprWithCleanups, .cxxUnresolvedConstructExpr, .cxxDependentScopeMemberExpr, .overloadExpr,
   .unresolvedLookupExpr, .unresolvedMemberExpr, .cxxNoexceptExpr, .packExpansionExpr,
   .sizeOfPackExpr, .substNonTypeTemplateParmExpr, .substNonTypeTemplateParmPackExpr,
   .functionParmPackExpr, .materializeTemporaryExpr, .lambdaExpr, .cxxFoldExpr, .cxxUuidofExpr,
   .cxxTypeidExpr, .objCStringLiteral, .objCBoxedExpr, .objCArrayLiteral, .objCDictionaryLiteral,
   .objCEncodeExpr, .objCMessageExpr, .objCSelectorExpr, .objCProtocolExpr, .objCIvarRefExpr,
   .objCPropertyRefExpr, .objCIsaExpr, .objCIndirectCopyRestoreExpr, .objCBoolLiteralExpr,
   .objCSubscriptRefExpr, .shuffleVectorExpr, .convertVectorExpr, .blockExpr, .opaqueValueExpr,
   .typoExpr, .asTypeExpr]

/-- The short name of a kind. -/
def name : StmtKind → String
  | .stmt => "Stmt"
  | .nullStmt => "NullStmt"
  | .compoundStmt => "CompoundStmt"
  | .labelStmt => "LabelStmt"
  | .attributedStmt => "AttributedStmt"
  | .ifStmt => "IfStmt"
  | .switchStmt => "SwitchStmt"
  | .whileStmt => "WhileStmt"
  | .doStmt => "DoStmt"
  | .forStmt => "ForStmt"
  | .gotoStmt => "GotoStmt"
  | .indirectGotoStmt => "IndirectGotoStmt"
  | .continueStmt => "ContinueStmt"
  | .breakStmt => "BreakStmt"
  | .returnStmt => "ReturnStmt"
  | .declStmt => "DeclStmt"
  | .switchCase => "SwitchCase"
  | .caseStmt => "CaseStmt"
  | .defaultStmt => "DefaultStmt"
  | .capturedStmt => "CapturedStmt"
  | .asmStmt => "AsmStmt"
  | .gccAsmStmt => "GCCAsmStmt"
  | .msAsmStmt => "MSAsmStmt"
  | .objCAtTryStmt => "ObjCAtTryStmt"
  | .objCAtCatchStmt => "ObjCAtCatchStmt"
  | .objCAtFinallyStmt => "ObjCAtFinallyStmt"
  | .objCAtThrowStmt => "ObjCAtThrowStmt"
  | .objCAtSynchronizedStmt => "ObjCAtSynchronizedStmt"
  | .objCForCollectionStmt => "ObjCForCollectionStmt"
  | .objCAutoreleasePoolStmt => "ObjCAutoreleasePoolStmt"
  | .cxxCatchStmt => "CXXCatchStmt"
  | .cxxTryStmt => "CXXTryStmt"
  | .cxxForRangeStmt => "CXXForRangeStmt"
  | .sehTryStmt => "SEHTryStmt"
  | .sehExceptStmt => "SEHExceptStmt"
  | .sehFinallyStmt => "SEHFinallyStmt"
  | .sehLeaveStmt => "SEHLeaveStmt"
  | .msDependentExistsStmt => "MSDependentExistsStmt"
  | .expr => "Expr"
  | .predefinedExpr => "PredefinedExpr"
  | .declRefExpr => "DeclRefExpr"
  | .integerLiteral => "IntegerLiteral"
  | .floatingLiteral => "FloatingLiteral"
  | .imaginaryLiteral => "ImaginaryLiteral"
  | .stringLiteral => "StringLiteral"
  | .characterLiteral => "CharacterLiteral"
  | .parenExpr => "ParenExpr"
  | .unaryOperator => "UnaryOperator"
  | .offsetOfExpr => "OffsetOfExpr"
  | .unaryExprOrTypeTraitExpr => "UnaryExprOrTypeTraitExpr"
  | .arraySubscriptExpr => "ArraySubscriptExpr"
  | .callExpr => "CallExpr"
  | .cxxMemberCallExpr => "CXXMemberCallExpr"
  | .cxxOperatorCallExpr => "CXXOperatorCallExpr"
  | .userDefinedLiteral => "UserDefinedLiteral"
  | .cudaKernelCallExpr => "CUDAKernelCallExpr"
  | .memberExpr => "MemberExpr"
  | .castExpr => "CastExpr"
  | .implicitCastExpr => "ImplicitCastExpr"
  | .explicitCastExpr => "ExplicitCastExpr"
  | .cStyleCastExpr => "CStyleCastExpr"
  | .cxxFunctionalCastExpr => "CXXFunctionalCastExpr"
  | .cxxNamedCastExpr => "CXXNamedCastExpr"
  | .cxxStaticCastExpr => "CXXStaticCastExpr"
  | .cxxDynamicCastExpr => "CXXDynamicCastExpr"
  | .cxxReinterpretCastExpr => "CXXReinterpretCastExpr"
  | .cxxConstCastExpr => "CXXConstCastExpr"
  | .objCBridgedCastExpr => "ObjCBridgedCastExpr"
  | .binaryOperator => "BinaryOperator"
  | .compoundAssignOperator => "CompoundAssignOperator"
  | .abstractConditionalOperator => "AbstractConditionalOperator"
  | .conditionalOperator => "ConditionalOperator"
  | .binaryConditionalOperator => "BinaryConditionalOperator"
  | .compoundLiteralExpr => "CompoundLiteralExpr"
  | .extVectorElementExpr => "ExtVectorElementExpr"
  | .initListExpr => "InitListExpr"
  | .designatedInitExpr => "DesignatedInitExpr"
  | .implicitValueInitExpr => "ImplicitValueInitExpr"
  | .parenListExpr => "ParenListExpr"
  | .vaArgExpr => "VAArgExpr"
  | .genericSelectionExpr => "GenericSelectionExpr"
  | .pseudoObjectExpr => "PseudoObjectExpr"
  | .atomicExpr => "AtomicExpr"
  | .addrLabelExpr => "AddrLabelExpr"
  | .stmtExpr => "StmtExpr"
  | .chooseExpr => "ChooseExpr"
  | .gnuNullExpr => "GNUNullExpr"
  | .cxxBoolLiteralExpr => "CXXBoolLiteralExpr"
  | .cxxNullPtrLiteralExpr => "CXXNullPtrLiteralExpr"
  | .cxxThisExpr => "CXXThisExpr"
  | .cxxThrowExpr => "CXXThrowExpr"
  | .cxxDefaultArgExpr => "CXXDefaultArgExpr"
  | .cxxDefaultInitExpr => "CXXDefaultInitExpr"
  | .cxxScalarValueInitExpr => "CXXScalarValueInitExpr"
  | .cxxStdInitializerListExpr => "CXXStdInitializerListExpr"
  | .cxxNewExpr => "CXXNewExpr"
  | .cxxDeleteExpr => "CXXDeleteExpr"
  | .cxxPseudoDestructorExpr => "CXXPseudoDestructorExpr"
  | .typeTraitExpr => "TypeTraitExpr"
  | .arrayTypeTraitExpr => "ArrayTypeTraitExpr"
  | .expressionTraitExpr => "ExpressionTraitExpr"
  | .dependentScopeDeclRefExpr => "DependentScopeDeclRefExpr"
  | .cxxConstructExpr => "CXXConstructExpr"
  | .cxxTemporaryObjectExpr => "CXXTemporaryObjectExpr"
  | .cxxBindTemporaryExpr => "CXXBindTemporaryExpr"
  | .exprWithCleanups => "ExprWithCleanups"
  | .cxxUnresolvedConstructExpr => "CXXUnresolvedConstructExpr"
  | .cxxDependentScopeMemberExpr => "CXXDependentScopeMemberExpr"
  | .overloadExpr => "OverloadExpr"
  | .unresolvedLookupExpr => "UnresolvedLookupExpr"
  | .unresolvedMemberExpr => "UnresolvedMemberExpr"
  | .cxxNoexceptExpr => "CXXNoexceptExpr"
  | .packExpansionExpr => "PackExpansionExpr"
  | .sizeOfPackExpr => "SizeOfPackExpr"
  | .substNonTypeTemplateParmExpr => "SubstNonTypeTemplateParmExpr"
  | .substNonTypeTemplateParmPackExpr => "SubstNonTypeTemplateParmPackExpr"
  | .functionParmPackExpr => "FunctionParmPackExpr"
  | .materializeTemporaryExpr => "MaterializeTemporaryExpr"
  | .lambdaExpr => "LambdaExpr"
  | .cxxFoldExpr => "CXXFoldExpr"
  | .cxxUuidofExpr => "CXXUuidofExpr"
  | .cxxTypeidExpr => "CXXTypeidExpr"
  | .objCStringLiteral => "ObjCStringLiteral"
  | .objCBoxedExpr => "ObjCBoxedExpr"
  | .objCArrayLiteral => "ObjCArrayLiteral"
  | .objCDictionaryLiteral => "ObjCDictionaryLiteral"
  | .objCEncodeExpr => "ObjCEncodeExpr"
  | .objCMessageExpr => "ObjCMessageExpr"
  | .objCSelectorExpr => "ObjCSelectorExpr"
  | .objCProtocolExpr => "ObjCProtocolExpr"
  | .objCIvarRefExpr => "ObjCIvarRefExpr"
  | .objCPropertyRefExpr => "ObjCPropertyRefExpr"
  | .objCIsaExpr => "ObjCIsaExpr"
  | .objCIndirectCopyRestoreExpr => "ObjCIndirectCopyRestoreExpr"
  | .objCBoolLiteralExpr => "ObjCBoolLiteralExpr"
  | .objCSubscriptRefExpr => "ObjCSubscriptRefExpr"
  | .shuffleVectorExpr => "ShuffleVectorExpr"
  | .convertVectorExpr => "ConvertVectorExpr"
  | .blockExpr => "BlockExpr"
  | .opaqueValueExpr => "OpaqueValueExpr"
  | .typoExpr => "TypoExpr"
  | .asTypeExpr => "AsTypeExpr"

/-- The kind one level up; only the root of the family has none. -/
def parent : StmtKind → Option StmtKind
  | .stmt => none
  | .nullStmt | .compoundStmt | .labelStmt | .attributedStmt | .ifStmt | .switchStmt | .whileStmt
  | .doStmt | .forStmt | .gotoStmt | .indirectGotoStmt | .continueStmt | .breakStmt | .returnStmt
  | .declStmt | .switchCase | .capturedStmt | .asmStmt | .objCAtTryStmt | .objCAtCatchStmt
  | .objCAtFinallyStmt | .objCAtThrowStmt | .objCAtSynchronizedStmt | .objCForCollectionStmt
  | .objCAutoreleasePoolStmt | .cxxCatchStmt | .cxxTryStmt | .cxxForRangeStmt | .sehTryStmt
  | .sehExceptStmt | .sehFinallyStmt | .sehLeaveStmt | .msDependentExistsStmt | .expr
    => some .stmt
  | .caseStmt | .defaultStmt => some .switchCase
  | .gccAsmStmt | .msAsmStmt => some .asmStmt
  | .predefinedExpr | .declRefExpr | .integerLiteral | .floatingLiteral | .imaginaryLiteral
  | .stringLiteral | .characterLiteral | .parenExpr | .unaryOperator | .offsetOfExpr
  | .unaryExprOrTypeTraitExpr | .arraySubscriptExpr | .callExpr | .memberExpr | .castExpr
  | .binaryOperator | .abstractConditionalOperator | .compoundLiteralExpr | .extVectorElementExpr
  | .initListExpr | .designatedInitExpr | .implicitValueInitExpr | .parenListExpr | .vaArgExpr
  | .genericSelectionExpr | .pseudoObjectExpr | .atomicExpr | .addrLabelExpr | .stmtExpr
  | .chooseExpr | .gnuNullExpr | .cxxBoolLiteralExpr | .cxxNullPtrLiteralExpr | .cxxThisExpr
  | .cxxThrowExpr | .cxxDefaultArgExpr | .cxxDefaultInitExpr | .cxxScalarValueInitExpr
  | .cxxStdInitializerListExpr | .cxxNewExpr | .cxxDeleteExpr | .cxxPseudoDestructorExpr
  | .typeTraitExpr | .arrayTypeTraitExpr | .expressionTraitExpr | .dependentScopeDeclRefExpr
  | .cxxConstructExpr | .cxxBindTemporaryExpr | .exprWithCleanups | .cxxUnresolvedConstructExpr
  | .cxxDependentScopeMemberExpr | .overloadExpr | .cxxNoexceptExpr | .packExpansionExpr
  | .sizeOfPackExpr | .substNonTypeTemplateParmExpr | .substNonTypeTemplateParmPackExpr
  | .functionParmPackExpr | .materializeTemporaryExpr | .lambdaExpr | .cxxFoldExpr
  | .cxxUuidofExpr | .cxxTypeidExpr | .objCStringLiteral | .objCBoxedExpr | .objCArrayLiteral
  | .objCDictionaryLiteral | .objCEncodeExpr | .objCMessageExpr | .objCSelectorExpr
  | .objCProtocolExpr | .objCIvarRefExpr | .objCPropertyRefExpr | .objCIsaExpr
  | .objCIndirectCopyRestoreExpr | .objCBoolLiteralExpr | .objCSubscriptRefExpr
  | .shuffleVectorExpr | .convertVectorExpr | .blockExpr | .opaqueValueExpr | .typoExpr
  | .asTypeExpr => some .expr
  | .cxxMemberCallExpr | .cxxOperatorCallExpr | .userDefinedLiteral | .cudaKernelCallExpr
    => some .callExpr
  | .implicitCastExpr | .explicitCastExpr => some .castExpr
  | .cStyleCastExpr | .cxxFunctionalCastExpr | .cxxNamedCastExpr | .objCBridgedCastExpr
    => some .explicitCastExpr
  | .cxxStaticCastExpr | .cxxDynamicCastExpr | .cxxReinterpretCastExpr | .cxxConstCastExpr
    => some .cxxNamedCastExpr
  | .compoundAssignOperator => some .binaryOperator
  | .conditionalOperator | .binaryConditionalOperator => some .abstractConditionalOperator
  | .cxxTemporaryObjectExpr => some .cxxConstructExpr
  | .unresolvedLookupExpr | .unresolvedMemberExpr => some .overloadExpr

/-- The kinds that only occur as levels of the hierarchy. -/
def isAbstract : StmtKind → Bool
  | .stmt | .switchCase | .asmStmt | .expr | .castExpr | .explicitCastExpr | .cxxNamedCastExpr
  | .abstractConditionalOperator | .overloadExpr => true
  | _ => false

/-- The number of fields a level adds to the tuple of the level above it. -/
def ownFieldCount : StmtKind → Nat
  | .stmt => 2
  | .labelStmt | .attributedStmt | .gotoStmt | .declStmt | .objCAtCatchStmt | .cxxCatchStmt
  | .expr | .predefinedExpr | .declRefExpr | .integerLiteral | .floatingLiteral | .stringLiteral
  | .characterLiteral | .unaryOperator | .unaryExprOrTypeTraitExpr | .memberExpr | .castExpr
  | .explicitCastExpr | .cxxNamedCastExpr | .binaryOperator | .compoundAssignOperator
  | .extVectorElementExpr | .addrLabelExpr | .cxxBoolLiteralExpr | .cxxNewExpr | .cxxDeleteExpr
  | .cxxConstructExpr | .cxxBindTemporaryExpr | .exprWithCleanups | .overloadExpr
  | .unresolvedLookupExpr | .materializeTemporaryExpr | .lambdaExpr | .objCBoxedExpr
  | .objCEncodeExpr | .objCMessageExpr | .objCSelectorExpr | .objCProtocolExpr | .objCIvarRefExpr
  | .objCPropertyRefExpr | .objCBoolLiteralExpr | .objCSubscriptRefExpr | .blockExpr
  | .opaqueValueExpr => 1
  | .nullStmt | .compoundStmt | .ifStmt | .switchStmt | .whileStmt | .doStmt | .forStmt
  | .indirectGotoStmt | .continueStmt | .breakStmt | .returnStmt | .switchCase | .caseStmt
  | .defaultStmt | .capturedStmt | .asmStmt | .gccAsmStmt | .msAsmStmt | .objCAtTryStmt
  | .objCAtFinallyStmt | .objCAtThrowStmt | .objCAtSynchronizedStmt | .objCForCollectionStmt
  | .objCAutoreleasePoolStmt | .cxxTryStmt | .cxxForRangeStmt | .sehTryStmt | .sehExceptStmt
  | .sehFinallyStmt | .sehLeaveStmt | .msDependentExistsStmt | .imaginaryLiteral | .parenExpr
  | .offsetOfExpr | .arraySubscriptExpr | .callExpr | .cxxMemberCallExpr | .cxxOperatorCallExpr
  | .userDefinedLiteral | .cudaKernelCallExpr | .implicitCastExpr | .cStyleCastExpr
  | .cxxFunctionalCastExpr | .cxxStaticCastExpr | .cxxDynamicCastExpr | .cxxReinterpretCastExpr
  | .cxxConstCastExpr | .objCBridgedCastExpr | .abstractConditionalOperator | .conditionalOperator
  | .binaryConditionalOperator | .compoundLiteralExpr | .initListExpr | .designatedInitExpr
  | .implicitValueInitExpr | .parenListExpr | .vaArgExpr | .genericSelectionExpr
  | .pseudoObjectExpr | .atomicExpr | .stmtExpr | .chooseExpr | .gnuNullExpr
  | .cxxNullPtrLiteralExpr | .cxxThisExpr | .cxxThrowExpr | .cxxDefaultArgExpr
  | .cxxDefaultInitExpr | .cxxScalarValueInitExpr | .cxxStdInitializerListExpr
  | .cxxPseudoDestructorExpr | .typeTraitExpr | .arrayTypeTraitExpr | .expressionTraitExpr
  | .dependentScopeDeclRefExpr | .cxxTemporaryObjectExpr | .cxxUnresolvedConstructExpr
  | .cxxDependentScopeMemberExpr | .unresolvedMemberExpr | .cxxNoexceptExpr | .packExpansionExpr
  | .sizeOfPackExpr | .substNonTypeTemplateParmExpr | .substNonTypeTemplateParmPackExpr
  | .functionParmPackExpr | .cxxFoldExpr | .cxxUuidofExpr | .cxxTypeidExpr | .objCStringLiteral
  | .objCArrayLiteral | .objCDictionaryLiteral | .objCIsaExpr | .objCIndirectCopyRestoreExpr
  | .shuffleVectorExpr | .convertVectorExpr | .typoExpr | .asTypeExpr => 0

instance : NodeKind StmtKind where
  family := .stmt
  all := all
  name := name
  parent := parent
  isAbstract := isAbstract
  ownFieldCount := ownFieldCount
  rank k := k.ctorIdx
  rank_parent_lt k := by cases k <;> decide

/-- The expression kinds, whose nodes carry a type and a value category. -/
def isExpr (k : StmtKind) : Bool :=
  NodeKind.inherits k .expr

end StmtKind

end SyntaxExport
