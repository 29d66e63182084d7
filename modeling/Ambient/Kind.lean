namespace Ambient

/-- What a token or a node is. The order matters: a kind is written as its place among all kinds. -/
inductive Kind where
  | unknown | endOfFileToken
  | singleLineCommentTrivia | multiLineCommentTrivia | newLineTrivia | whitespaceTrivia
  | shebangTrivia | conflictMarkerTrivia | nonTextFileMarkerTrivia
  | numericLiteral | bigIntLiteral | stringLiteral | jsxText | jsxTextAllWhiteSpaces
  | regularExpressionLiteral | noSubstitutionTemplateLiteral
  | templateHead | templateMiddle | templateTail
  | openBraceToken | closeBraceToken | openParenToken | closeParenToken | openBracketToken
  | closeBracketToken | dotToken | dotDotDotToken | semicolonToken | commaToken
  | questionDotToken | lessThanToken | lessThanSlashToken | greaterThanToken
  | lessThanEqualsToken | greaterThanEqualsToken | equalsEqualsToken | exclamationEqualsToken
  | equalsEqualsEqualsToken | exclamationEqualsEqualsToken | equalsGreaterThanToken | plusToken
  | minusToken | asteriskToken | asteriskAsteriskToken | slashToken | percentToken
  | plusPlusToken | minusMinusToken | lessThanLessThanToken | greaterThanGreaterThanToken
  | greaterThanGreaterThanGreaterThanToken | ampersandToken | barToken | caretToken
  | exclamationToken | tildeToken | ampersandAmpersandToken | barBarToken | questionToken
  | colonToken | atToken | questionQuestionToken | backtickToken | hashToken
  | equalsToken | plusEqualsToken | minusEqualsToken | asteriskEqualsToken
  | asteriskAsteriskEqualsToken | slashEqualsToken | percentEqualsToken
  | lessThanLessThanEqualsToken | greaterThanGreaterThanEqualsToken
  | greaterThanGreaterThanGreaterThanEqualsToken | ampersandEqualsToken | barEqualsToken
  | barBarEqualsToken | ampersandAmpersandEqualsToken | questionQuestionEqualsToken
  | caretEqualsToken
  | identifier | privateIdentifier | jsDocCommentTextToken
  | breakKeyword | caseKeyword | catchKeyword | classKeyword | constKeyword | continueKeyword
  | debuggerKeyword | defaultKeyword | deleteKeyword | doKeyword | elseKeyword | enumKeyword
  | exportKeyword | extendsKeyword | falseKeyword | finallyKeyword | forKeyword | functionKeyword
  | ifKeyword | importKeyword | inKeyword | instanceOfKeyword | newKeyword | nullKeyword
  | returnKeyword | superKeyword | switchKeyword | thisKeyword | throwKeyword | trueKeyword
  | tryKeyword | typeOfKeyword | varKeyword | voidKeyword | whileKeyword | withKeyword
  | implementsKeyword | interfaceKeyword | letKeyword | packageKeyword | privateKeyword
  | protectedKeyword | publicKeyword | staticKeyword | yieldKeyword
  | abstractKeyword | accessorKeyword | asKeyword | assertsKeyword | assertKeyword | anyKeyword
  | asyncKeyword | awaitKeyword | booleanKeyword | constructorKeyword | declareKeyword
  | getKeyword | inferKeyword | intrinsicKeyword | isKeyword | keyOfKeyword | moduleKeyword
  | namespaceKeyword | neverKeyword | outKeyword | readonlyKeyword | requireKeyword
  | numberKeyword | objectKeyword | satisfiesKeyword | setKeyword | stringKeyword | symbolKeyword
  | typeKeyword | undefinedKeyword | uniqueKeyword | unknownKeyword | usingKeyword | fromKeyword
  | globalKeyword | bigIntKeyword | overrideKeyword | ofKeyword
  | qualifiedName | computedPropertyName
  | typeParameter | parameter | decorator
  | propertySignature | propertyDeclaration | methodSignature | methodDeclaration
  | classStaticBlockDeclaration | constructor | getAccessor | setAccessor | callSignature
  | constructSignature | indexSignature
  | typePredicate | typeReference | functionType | constructorType | typeQuery | typeLiteral
  | arrayType | tupleType | optionalType | restType | unionType | intersectionType
  | conditionalType | inferType | parenthesizedType | thisType | typeOperator | indexedAccessType
  | mappedType | literalType | namedTupleMember | templateLiteralType | templateLiteralTypeSpan
  | importType
  | objectBindingPattern | arrayBindingPattern | bindingElement
  | arrayLiteralExpression | objectLiteralExpression | propertyAccessExpression
  | elementAccessExpression | callExpression | newExpression | taggedTemplateExpression
  | typeAssertionExpression | parenthesizedExpression | functionExpression | arrowFunction
  | deleteExpression | typeOfExpression | voidExpression | awaitExpression
  | prefixUnaryExpression | postfixUnaryExpression | binaryExpression | conditionalExpression
  | templateExpression | yieldExpression | spreadElement | classExpression | omittedExpression
  | expressionWithTypeArguments | asExpression | nonNullExpression | metaProperty
  | syntheticExpression | satisfiesExpression
  | templateSpan | semicolonClassElement
  | block | emptyStatement | variableStatement | expressionStatement | ifStatement | doStatement
  | whileStatement | forStatement | forInStatement | forOfStatement | continueStatement
  | breakStatement | returnStatement | withStatement | switchStatement | labeledStatement
  | throwStatement | tryStatement | debuggerStatement
  | variableDeclaration | variableDeclarationList | functionDeclaration | classDeclaration
  | interfaceDeclaration | typeAliasDeclaration | enumDeclaration | moduleDeclaration
  | moduleBlock | caseBlock | namespaceExportDeclaration | importEqualsDeclaration
  | importDeclaration | importClause | namespaceImport | namedImports | importSpecifier
  | exportAssignment | exportDeclaration | namedExports | namespaceExport | exportSpecifier
  | missingDeclaration
  | externalModuleReference
  | jsxElement | jsxSelfClosingElement | jsxOpeningElement | jsxClosingElement | jsxFragment
  | jsxOpeningFragment | jsxClosingFragment | jsxAttribute | jsxAttributes | jsxSpreadAttribute
  | jsxExpression | jsxNamespacedName
  | caseClause | defaultClause | heritageClause | catchClause
  | importAttributes | importAttribute | importTypeAssertionContainer
  | propertyAssignment | shorthandPropertyAssignment | spreadAssignment
  | enumMember
  | unparsedPrologue | unparsedPrepend | unparsedText | unparsedInternalText
  | unparsedSyntheticReference
  | sourceFile
deriving DecidableEq, Inhabited

namespace Kind

/-- How many kinds there are. -/
def count : Nat := 313

/-- The number of a kind in the interchange format. -/
def code (k : Kind) : Nat := k.ctorIdx

/-- The kind with a given number. -/
def ofCode? (n : Nat) : Option Kind :=
  if n < count then some (Kind.ofNat n) else none

/-- The names of the kinds, in the order of their numbers. -/
def names : Array String := #[
  "Unknown", "EndOfFileToken", "SingleLineCommentTrivia", "MultiLineCommentTrivia",
  "NewLineTrivia", "WhitespaceTrivia", "ShebangTrivia", "ConflictMarkerTrivia",
  "NonTextFileMarkerTrivia", "NumericLiteral", "BigIntLiteral", "StringLiteral", "JsxText",
  "JsxTextAllWhiteSpaces", "RegularExpressionLiteral", "NoSubstitutionTemplateLiteral",
  "TemplateHead", "TemplateMiddle", "TemplateTail", "OpenBraceToken", "CloseBraceToken",
  "OpenParenToken", "CloseParenToken", "OpenBracketToken", "CloseBracketToken", "DotToken",
  "DotDotDotToken", "SemicolonToken", "CommaToken", "QuestionDotToken", "LessThanToken",
  "LessThanSlashToken", "GreaterThanToken", "LessThanEqualsToken", "GreaterThanEqualsToken",
  "EqualsEqualsToken", "ExclamationEqualsToken", "EqualsEqualsEqualsToken",
  "ExclamationEqualsEqualsToken", "EqualsGreaterThanToken", "PlusToken", "MinusToken",
  "AsteriskToken", "AsteriskAsteriskToken", "SlashToken", "PercentToken", "PlusPlusToken",
  "MinusMinusToken", "LessThanLessThanToken", "GreaterThanGreaterThanToken",
  "GreaterThanGreaterThanGreaterThanToken", "AmpersandToken", "BarToken", "CaretToken",
  "ExclamationToken", "TildeToken", "AmpersandAmpersandToken", "BarBarToken", "QuestionToken",
  "ColonToken", "AtToken", "QuestionQuestionToken", "BacktickToken", "HashToken", "EqualsToken",
  "PlusEqualsToken", "MinusEqualsToken", "AsteriskEqualsToken", "AsteriskAsteriskEqualsToken",
  "SlashEqualsToken", "PercentEqualsToken", "LessThanLessThanEqualsToken",
  "GreaterThanGreaterThanEqualsToken", "GreaterThanGreaterThanGreaterThanEqualsToken",
  "AmpersandEqualsToken", "BarEqualsToken", "BarBarEqualsToken", "AmpersandAmpersandEqualsToken",
  "QuestionQuestionEqualsToken", "CaretEqualsToken", "Identifier", "PrivateIdentifier",
  "JSDocCommentTextToken", "BreakKeyword", "CaseKeyword", "CatchKeyword", "ClassKeyword",
  "ConstKeyword", "ContinueKeyword", "DebuggerKeyword", "DefaultKeyword", "DeleteKeyword",
  "DoKeyword", "ElseKeyword", "EnumKeyword", "ExportKeyword", "ExtendsKeyword", "FalseKeyword",
  "FinallyKeyword", "ForKeyword", "FunctionKeyword", "IfKeyword", "ImportKeyword", "InKeyword",
  "InstanceOfKeyword", "NewKeyword", "NullKeyword", "ReturnKeyword", "SuperKeyword",
  "SwitchKeyword", "ThisKeyword", "ThrowKeyword", "TrueKeyword", "TryKeyword", "TypeOfKeyword",
  "VarKeyword", "VoidKeyword", "WhileKeyword", "WithKeyword", "ImplementsKeyword",
  "InterfaceKeyword", "LetKeyword", "PackageKeyword", "PrivateKeyword", "ProtectedKeyword",
  "PublicKeyword", "StaticKeyword", "YieldKeyword", "AbstractKeyword", "AccessorKeyword",
  "AsKeyword", "AssertsKeyword", "AssertKeyword", "AnyKeyword", "AsyncKeyword", "AwaitKeyword",
  "BooleanKeyword", "ConstructorKeyword", "DeclareKeyword", "GetKeyword", "InferKeyword",
  "IntrinsicKeyword", "IsKeyword", "KeyOfKeyword", "ModuleKeyword", "NamespaceKeyword",
  "NeverKeyword", "OutKeyword", "ReadonlyKeyword", "RequireKeyword", "NumberKeyword",
  "ObjectKeyword", "SatisfiesKeyword", "SetKeyword", "StringKeyword", "SymbolKeyword",
  "TypeKeyword", "UndefinedKeyword", "UniqueKeyword", "UnknownKeyword", "UsingKeyword",
  "FromKeyword", "GlobalKeyword", "BigIntKeyword", "OverrideKeyword", "OfKeyword",
  "QualifiedName", "ComputedPropertyName", "TypeParameter", "Parameter", "Decorator",
  "PropertySignature", "PropertyDeclaration", "MethodSignature", "MethodDeclaration",
  "ClassStaticBlockDeclaration", "Constructor", "GetAccessor", "SetAccessor", "CallSignature",
  "ConstructSignature", "IndexSignature", "TypePredicate", "TypeReference", "FunctionType",
  "ConstructorType", "TypeQuery", "TypeLiteral", "ArrayType", "TupleType", "OptionalType",
  "RestType", "UnionType", "IntersectionType", "ConditionalType", "InferType",
  "ParenthesizedType", "ThisType", "TypeOperator", "IndexedAccessType", "MappedType",
  "LiteralType", "NamedTupleMember", "TemplateLiteralType", "TemplateLiteralTypeSpan",
  "ImportType", "ObjectBindingPattern", "ArrayBindingPattern", "BindingElement",
  "ArrayLiteralExpression", "ObjectLiteralExpression", "PropertyAccessExpression",
  "ElementAccessExpression", "CallExpression", "NewExpression", "TaggedTemplateExpression",
  "TypeAssertionExpression", "ParenthesizedExpression", "FunctionExpression", "ArrowFunction",
  "DeleteExpression", "TypeOfExpression", "VoidExpression", "AwaitExpression",
  "PrefixUnaryExpression", "PostfixUnaryExpression", "BinaryExpression", "ConditionalExpression",
  "TemplateExpression", "YieldExpression", "SpreadElement", "ClassExpression",
  "OmittedExpression", "ExpressionWithTypeArguments", "AsExpression", "NonNullExpression",
  "MetaProperty", "SyntheticExpression", "SatisfiesExpression", "TemplateSpan",
  "SemicolonClassElement", "Block", "EmptyStatement", "VariableStatement", "ExpressionStatement",
  "IfStatement", "DoStatement", "WhileStatement", "ForStatement", "ForInStatement",
  "ForOfStatement", "ContinueStatement", "BreakStatement", "ReturnStatement", "WithStatement",
  "SwitchStatement", "LabeledStatement", "ThrowStatement", "TryStatement", "DebuggerStatement",
  "VariableDeclaration", "VariableDeclarationList", "FunctionDeclaration", "ClassDeclaration",
  "InterfaceDeclaration", "TypeAliasDeclaration", "EnumDeclaration", "ModuleDeclaration",
  "ModuleBlock", "CaseBlock", "NamespaceExportDeclaration", "ImportEqualsDeclaration",
  "ImportDeclaration", "ImportClause", "NamespaceImport", "NamedImports", "ImportSpecifier",
  "ExportAssignment", "ExportDeclaration", "NamedExports", "NamespaceExport", "ExportSpecifier",
  "MissingDeclaration", "ExternalModuleReference", "JsxElement", "JsxSelfClosingElement",
  "JsxOpeningElement", "JsxClosingElement", "JsxFragment", "JsxOpeningFragment",
  "JsxClosingFragment", "JsxAttribute", "JsxAttributes", "JsxSpreadAttribute", "JsxExpression",
  "JsxNamespacedName", "CaseClause", "DefaultClause", "HeritageClause", "CatchClause",
  "ImportAttributes", "ImportAttribute", "ImportTypeAssertionContainer", "PropertyAssignment",
  "ShorthandPropertyAssignment", "SpreadAssignment", "EnumMember", "UnparsedPrologue",
  "UnparsedPrepend", "UnparsedText", "UnparsedInternalText", "UnparsedSyntheticReference",
  "SourceFile"]

/-- The name of a kind, as error messages show it. -/
def name (k : Kind) : String := names.getD k.code ""

end Kind

end Ambient
