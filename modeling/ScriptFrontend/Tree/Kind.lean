/-!
# Kinds of tokens and nodes

The tokens come first, in groups that are told apart by the order of the constructors: trivia,
literals, template pieces, punctuation, assignment operators, names, reserved words, words reserved
in strict code, and contextual words. The kinds of tree nodes follow, then those of documentation
comments, and last those that only the lowering of a tree makes.
-/

namespace ScriptFrontend

set_option maxRecDepth 4000

inductive Kind where
  | unknown
  | endOfFileToken
  | singleLineCommentTrivia
  | multiLineCommentTrivia
  | newLineTrivia
  | whitespaceTrivia
  | shebangTrivia
  | conflictMarkerTrivia
  | numericLiteral
  | bigIntLiteral
  | stringLiteral
  | jsxText
  | jsxTextAllWhiteSpaces
  | regularExpressionLiteral
  | noSubstitutionTemplateLiteral
  | templateHead
  | templateMiddle
  | templateTail
  | openBraceToken
  | closeBraceToken
  | openParenToken
  | closeParenToken
  | openBracketToken
  | closeBracketToken
  | dotToken
  | dotDotDotToken
  | semicolonToken
  | commaToken
  | questionDotToken
  | lessThanToken
  | lessThanSlashToken
  | greaterThanToken
  | lessThanEqualsToken
  | greaterThanEqualsToken
  | equalsEqualsToken
  | exclamationEqualsToken
  | equalsEqualsEqualsToken
  | exclamationEqualsEqualsToken
  | equalsGreaterThanToken
  | plusToken
  | minusToken
  | asteriskToken
  | asteriskAsteriskToken
  | slashToken
  | percentToken
  | plusPlusToken
  | minusMinusToken
  | lessThanLessThanToken
  | greaterThanGreaterThanToken
  | greaterThanGreaterThanGreaterThanToken
  | ampersandToken
  | barToken
  | caretToken
  | exclamationToken
  | tildeToken
  | ampersandAmpersandToken
  | barBarToken
  | questionToken
  | colonToken
  | atToken
  | questionQuestionToken
  | backtickToken
  | hashToken
  | equalsToken
  | plusEqualsToken
  | minusEqualsToken
  | asteriskEqualsToken
  | asteriskAsteriskEqualsToken
  | slashEqualsToken
  | percentEqualsToken
  | lessThanLessThanEqualsToken
  | greaterThanGreaterThanEqualsToken
  | greaterThanGreaterThanGreaterThanEqualsToken
  | ampersandEqualsToken
  | barEqualsToken
  | caretEqualsToken
  | barBarEqualsToken
  | ampersandAmpersandEqualsToken
  | questionQuestionEqualsToken
  | identifier
  | privateIdentifier
  | breakKeyword
  | caseKeyword
  | catchKeyword
  | classKeyword
  | constKeyword
  | continueKeyword
  | debuggerKeyword
  | defaultKeyword
  | deleteKeyword
  | doKeyword
  | elseKeyword
  | enumKeyword
  | exportKeyword
  | extendsKeyword
  | falseKeyword
  | finallyKeyword
  | forKeyword
  | functionKeyword
  | ifKeyword
  | importKeyword
  | inKeyword
  | instanceOfKeyword
  | newKeyword
  | nullKeyword
  | returnKeyword
  | superKeyword
  | switchKeyword
  | thisKeyword
  | throwKeyword
  | trueKeyword
  | tryKeyword
  | typeOfKeyword
  | varKeyword
  | voidKeyword
  | whileKeyword
  | withKeyword
  | implementsKeyword
  | interfaceKeyword
  | letKeyword
  | packageKeyword
  | privateKeyword
  | protectedKeyword
  | publicKeyword
  | staticKeyword
  | yieldKeyword
  | abstractKeyword
  | accessorKeyword
  | asKeyword
  | assertsKeyword
  | assertKeyword
  | anyKeyword
  | asyncKeyword
  | awaitKeyword
  | booleanKeyword
  | constructorKeyword
  | declareKeyword
  | getKeyword
  | inferKeyword
  | intrinsicKeyword
  | isKeyword
  | keyOfKeyword
  | moduleKeyword
  | namespaceKeyword
  | neverKeyword
  | outKeyword
  | readonlyKeyword
  | requireKeyword
  | numberKeyword
  | objectKeyword
  | satisfiesKeyword
  | setKeyword
  | stringKeyword
  | symbolKeyword
  | typeKeyword
  | undefinedKeyword
  | uniqueKeyword
  | unknownKeyword
  | usingKeyword
  | fromKeyword
  | globalKeyword
  | bigIntKeyword
  | overrideKeyword
  | ofKeyword
  | qualifiedName
  | computedPropertyName
  | typeParameter
  | parameter
  | decorator
  | propertySignature
  | propertyDeclaration
  | methodSignature
  | methodDeclaration
  | classStaticBlockDeclaration
  | constructor
  | getAccessor
  | setAccessor
  | callSignature
  | constructSignature
  | indexSignature
  | typePredicate
  | typeReference
  | functionType
  | constructorType
  | typeQuery
  | typeLiteral
  | arrayType
  | tupleType
  | optionalType
  | restType
  | unionType
  | intersectionType
  | conditionalType
  | inferType
  | parenthesizedType
  | thisType
  | typeOperator
  | indexedAccessType
  | mappedType
  | literalType
  | namedTupleMember
  | templateLiteralType
  | templateLiteralTypeSpan
  | importType
  | objectBindingPattern
  | arrayBindingPattern
  | bindingElement
  | arrayLiteralExpression
  | objectLiteralExpression
  | propertyAccessExpression
  | elementAccessExpression
  | callExpression
  | newExpression
  | taggedTemplateExpression
  | typeAssertionExpression
  | parenthesizedExpression
  | functionExpression
  | arrowFunction
  | deleteExpression
  | typeOfExpression
  | voidExpression
  | awaitExpression
  | prefixUnaryExpression
  | postfixUnaryExpression
  | binaryExpression
  | conditionalExpression
  | templateExpression
  | yieldExpression
  | spreadElement
  | classExpression
  | omittedExpression
  | expressionWithTypeArguments
  | asExpression
  | nonNullExpression
  | metaProperty
  | satisfiesExpression
  | templateSpan
  | semicolonClassElement
  | block
  | emptyStatement
  | variableStatement
  | expressionStatement
  | ifStatement
  | doStatement
  | whileStatement
  | forStatement
  | forInStatement
  | forOfStatement
  | continueStatement
  | breakStatement
  | returnStatement
  | withStatement
  | switchStatement
  | labeledStatement
  | throwStatement
  | tryStatement
  | debuggerStatement
  | variableDeclaration
  | variableDeclarationList
  | functionDeclaration
  | classDeclaration
  | interfaceDeclaration
  | typeAliasDeclaration
  | enumDeclaration
  | moduleDeclaration
  | moduleBlock
  | caseBlock
  | namespaceExportDeclaration
  | importEqualsDeclaration
  | importDeclaration
  | importClause
  | namespaceImport
  | namedImports
  | importSpecifier
  | exportAssignment
  | exportDeclaration
  | namedExports
  | namespaceExport
  | exportSpecifier
  | missingDeclaration
  | externalModuleReference
  | jsxElement
  | jsxSelfClosingElement
  | jsxOpeningElement
  | jsxClosingElement
  | jsxFragment
  | jsxOpeningFragment
  | jsxClosingFragment
  | jsxAttribute
  | jsxAttributes
  | jsxSpreadAttribute
  | jsxExpression
  | jsxNamespacedName
  | caseClause
  | defaultClause
  | heritageClause
  | catchClause
  | importAttributes
  | importAttribute
  | propertyAssignment
  | shorthandPropertyAssignment
  | spreadAssignment
  | enumMember
  | sourceFile
  | docTypeExpression
  | docNameReference
  | docMemberName
  | docAllType
  | docUnknownType
  | docNullableType
  | docNonNullableType
  | docOptionalType
  | docFunctionType
  | docVariadicType
  | docNamepathType
  | doc
  | docText
  | docTypeLiteral
  | docSignature
  | docLink
  | docLinkCode
  | docLinkPlain
  | docTag
  | docAugmentsTag
  | docImplementsTag
  | docAuthorTag
  | docDeprecatedTag
  | docClassTag
  | docPublicTag
  | docPrivateTag
  | docProtectedTag
  | docReadonlyTag
  | docOverrideTag
  | docCallbackTag
  | docOverloadTag
  | docEnumTag
  | docParameterTag
  | docReturnTag
  | docThisTag
  | docTypeTag
  | docTemplateTag
  | docTypedefTag
  | docSeeTag
  | docPropertyTag
  | docThrowsTag
  | docSatisfiesTag
  | docImportTag
  | syntaxList
  | notEmittedStatement
  | partiallyEmittedExpression
  | commaListExpression
  | mergeDeclarationMarker
  | endOfDeclarationMarker
  | countMarker
deriving DecidableEq, Inhabited

namespace Kind

def value (k : Kind) : Nat := k.ctorIdx

def name : Kind → String
  | .unknown => "Unknown"
  | .endOfFileToken => "EndOfFileToken"
  | .singleLineCommentTrivia => "SingleLineCommentTrivia"
  | .multiLineCommentTrivia => "MultiLineCommentTrivia"
  | .newLineTrivia => "NewLineTrivia"
  | .whitespaceTrivia => "WhitespaceTrivia"
  | .shebangTrivia => "ShebangTrivia"
  | .conflictMarkerTrivia => "ConflictMarkerTrivia"
  | .numericLiteral => "NumericLiteral"
  | .bigIntLiteral => "BigIntLiteral"
  | .stringLiteral => "StringLiteral"
  | .jsxText => "JsxText"
  | .jsxTextAllWhiteSpaces => "JsxTextAllWhiteSpaces"
  | .regularExpressionLiteral => "RegularExpressionLiteral"
  | .noSubstitutionTemplateLiteral => "NoSubstitutionTemplateLiteral"
  | .templateHead => "TemplateHead"
  | .templateMiddle => "TemplateMiddle"
  | .templateTail => "TemplateTail"
  | .openBraceToken => "OpenBraceToken"
  | .closeBraceToken => "CloseBraceToken"
  | .openParenToken => "OpenParenToken"
  | .closeParenToken => "CloseParenToken"
  | .openBracketToken => "OpenBracketToken"
  | .closeBracketToken => "CloseBracketToken"
  | .dotToken => "DotToken"
  | .dotDotDotToken => "DotDotDotToken"
  | .semicolonToken => "SemicolonToken"
  | .commaToken => "CommaToken"
  | .questionDotToken => "QuestionDotToken"
  | .lessThanToken => "LessThanToken"
  | .lessThanSlashToken => "LessThanSlashToken"
  | .greaterThanToken => "GreaterThanToken"
  | .lessThanEqualsToken => "LessThanEqualsToken"
  | .greaterThanEqualsToken => "GreaterThanEqualsToken"
  | .equalsEqualsToken => "EqualsEqualsToken"
  | .exclamationEqualsToken => "ExclamationEqualsToken"
  | .equalsEqualsEqualsToken => "EqualsEqualsEqualsToken"
  | .exclamationEqualsEqualsToken => "ExclamationEqualsEqualsToken"
  | .equalsGreaterThanToken => "EqualsGreaterThanToken"
  | .plusToken => "PlusToken"
  | .minusToken => "MinusToken"
  | .asteriskToken => "AsteriskToken"
  | .asteriskAsteriskToken => "AsteriskAsteriskToken"
  | .slashToken => "SlashToken"
  | .percentToken => "PercentToken"
  | .plusPlusToken => "PlusPlusToken"
  | .minusMinusToken => "MinusMinusToken"
  | .lessThanLessThanToken => "LessThanLessThanToken"
  | .greaterThanGreaterThanToken => "GreaterThanGreaterThanToken"
  | .greaterThanGreaterThanGreaterThanToken => "GreaterThanGreaterThanGreaterThanToken"
  | .ampersandToken => "AmpersandToken"
  | .barToken => "BarToken"
  | .caretToken => "CaretToken"
  | .exclamationToken => "ExclamationToken"
  | .tildeToken => "TildeToken"
  | .ampersandAmpersandToken => "AmpersandAmpersandToken"
  | .barBarToken => "BarBarToken"
  | .questionToken => "QuestionToken"
  | .colonToken => "ColonToken"
  | .atToken => "AtToken"
  | .questionQuestionToken => "QuestionQuestionToken"
  | .backtickToken => "BacktickToken"
  | .hashToken => "HashToken"
  | .equalsToken => "EqualsToken"
  | .plusEqualsToken => "PlusEqualsToken"
  | .minusEqualsToken => "MinusEqualsToken"
  | .asteriskEqualsToken => "AsteriskEqualsToken"
  | .asteriskAsteriskEqualsToken => "AsteriskAsteriskEqualsToken"
  | .slashEqualsToken => "SlashEqualsToken"
  | .percentEqualsToken => "PercentEqualsToken"
  | .lessThanLessThanEqualsToken => "LessThanLessThanEqualsToken"
  | .greaterThanGreaterThanEqualsToken => "GreaterThanGreaterThanEqualsToken"
  | .greaterThanGreaterThanGreaterThanEqualsToken => "GreaterThanGreaterThanGreaterThanEqualsToken"
  | .ampersandEqualsToken => "AmpersandEqualsToken"
  | .barEqualsToken => "BarEqualsToken"
  | .caretEqualsToken => "CaretEqualsToken"
  | .barBarEqualsToken => "BarBarEqualsToken"
  | .ampersandAmpersandEqualsToken => "AmpersandAmpersandEqualsToken"
  | .questionQuestionEqualsToken => "QuestionQuestionEqualsToken"
  | .identifier => "Identifier"
  | .privateIdentifier => "PrivateIdentifier"
  | .breakKeyword => "BreakKeyword"
  | .caseKeyword => "CaseKeyword"
  | .catchKeyword => "CatchKeyword"
  | .classKeyword => "ClassKeyword"
  | .constKeyword => "ConstKeyword"
  | .continueKeyword => "ContinueKeyword"
  | .debuggerKeyword => "DebuggerKeyword"
  | .defaultKeyword => "DefaultKeyword"
  | .deleteKeyword => "DeleteKeyword"
  | .doKeyword => "DoKeyword"
  | .elseKeyword => "ElseKeyword"
  | .enumKeyword => "EnumKeyword"
  | .exportKeyword => "ExportKeyword"
  | .extendsKeyword => "ExtendsKeyword"
  | .falseKeyword => "FalseKeyword"
  | .finallyKeyword => "FinallyKeyword"
  | .forKeyword => "ForKeyword"
  | .functionKeyword => "FunctionKeyword"
  | .ifKeyword => "IfKeyword"
  | .importKeyword => "ImportKeyword"
  | .inKeyword => "InKeyword"
  | .instanceOfKeyword => "InstanceOfKeyword"
  | .newKeyword => "NewKeyword"
  | .nullKeyword => "NullKeyword"
  | .returnKeyword => "ReturnKeyword"
  | .superKeyword => "SuperKeyword"
  | .switchKeyword => "SwitchKeyword"
  | .thisKeyword => "ThisKeyword"
  | .throwKeyword => "ThrowKeyword"
  | .trueKeyword => "TrueKeyword"
  | .tryKeyword => "TryKeyword"
  | .typeOfKeyword => "TypeOfKeyword"
  | .varKeyword => "VarKeyword"
  | .voidKeyword => "VoidKeyword"
  | .whileKeyword => "WhileKeyword"
  | .withKeyword => "WithKeyword"
  | .implementsKeyword => "ImplementsKeyword"
  | .interfaceKeyword => "InterfaceKeyword"
  | .letKeyword => "LetKeyword"
  | .packageKeyword => "PackageKeyword"
  | .privateKeyword => "PrivateKeyword"
  | .protectedKeyword => "ProtectedKeyword"
  | .publicKeyword => "PublicKeyword"
  | .staticKeyword => "StaticKeyword"
  | .yieldKeyword => "YieldKeyword"
  | .abstractKeyword => "AbstractKeyword"
  | .accessorKeyword => "AccessorKeyword"
  | .asKeyword => "AsKeyword"
  | .assertsKeyword => "AssertsKeyword"
  | .assertKeyword => "AssertKeyword"
  | .anyKeyword => "AnyKeyword"
  | .asyncKeyword => "AsyncKeyword"
  | .awaitKeyword => "AwaitKeyword"
  | .booleanKeyword => "BooleanKeyword"
  | .constructorKeyword => "ConstructorKeyword"
  | .declareKeyword => "DeclareKeyword"
  | .getKeyword => "GetKeyword"
  | .inferKeyword => "InferKeyword"
  | .intrinsicKeyword => "IntrinsicKeyword"
  | .isKeyword => "IsKeyword"
  | .keyOfKeyword => "KeyOfKeyword"
  | .moduleKeyword => "ModuleKeyword"
  | .namespaceKeyword => "NamespaceKeyword"
  | .neverKeyword => "NeverKeyword"
  | .outKeyword => "OutKeyword"
  | .readonlyKeyword => "ReadonlyKeyword"
  | .requireKeyword => "RequireKeyword"
  | .numberKeyword => "NumberKeyword"
  | .objectKeyword => "ObjectKeyword"
  | .satisfiesKeyword => "SatisfiesKeyword"
  | .setKeyword => "SetKeyword"
  | .stringKeyword => "StringKeyword"
  | .symbolKeyword => "SymbolKeyword"
  | .typeKeyword => "TypeKeyword"
  | .undefinedKeyword => "UndefinedKeyword"
  | .uniqueKeyword => "UniqueKeyword"
  | .unknownKeyword => "UnknownKeyword"
  | .usingKeyword => "UsingKeyword"
  | .fromKeyword => "FromKeyword"
  | .globalKeyword => "GlobalKeyword"
  | .bigIntKeyword => "BigIntKeyword"
  | .overrideKeyword => "OverrideKeyword"
  | .ofKeyword => "OfKeyword"
  | .qualifiedName => "QualifiedName"
  | .computedPropertyName => "ComputedPropertyName"
  | .typeParameter => "TypeParameter"
  | .parameter => "Parameter"
  | .decorator => "Decorator"
  | .propertySignature => "PropertySignature"
  | .propertyDeclaration => "PropertyDeclaration"
  | .methodSignature => "MethodSignature"
  | .methodDeclaration => "MethodDeclaration"
  | .classStaticBlockDeclaration => "ClassStaticBlockDeclaration"
  | .constructor => "Constructor"
  | .getAccessor => "GetAccessor"
  | .setAccessor => "SetAccessor"
  | .callSignature => "CallSignature"
  | .constructSignature => "ConstructSignature"
  | .indexSignature => "IndexSignature"
  | .typePredicate => "TypePredicate"
  | .typeReference => "TypeReference"
  | .functionType => "FunctionType"
  | .constructorType => "ConstructorType"
  | .typeQuery => "TypeQuery"
  | .typeLiteral => "TypeLiteral"
  | .arrayType => "ArrayType"
  | .tupleType => "TupleType"
  | .optionalType => "OptionalType"
  | .restType => "RestType"
  | .unionType => "UnionType"
  | .intersectionType => "IntersectionType"
  | .conditionalType => "ConditionalType"
  | .inferType => "InferType"
  | .parenthesizedType => "ParenthesizedType"
  | .thisType => "ThisType"
  | .typeOperator => "TypeOperator"
  | .indexedAccessType => "IndexedAccessType"
  | .mappedType => "MappedType"
  | .literalType => "LiteralType"
  | .namedTupleMember => "NamedTupleMember"
  | .templateLiteralType => "TemplateLiteralType"
  | .templateLiteralTypeSpan => "TemplateLiteralTypeSpan"
  | .importType => "ImportType"
  | .objectBindingPattern => "ObjectBindingPattern"
  | .arrayBindingPattern => "ArrayBindingPattern"
  | .bindingElement => "BindingElement"
  | .arrayLiteralExpression => "ArrayLiteralExpression"
  | .objectLiteralExpression => "ObjectLiteralExpression"
  | .propertyAccessExpression => "PropertyAccessExpression"
  | .elementAccessExpression => "ElementAccessExpression"
  | .callExpression => "CallExpression"
  | .newExpression => "NewExpression"
  | .taggedTemplateExpression => "TaggedTemplateExpression"
  | .typeAssertionExpression => "TypeAssertionExpression"
  | .parenthesizedExpression => "ParenthesizedExpression"
  | .functionExpression => "FunctionExpression"
  | .arrowFunction => "ArrowFunction"
  | .deleteExpression => "DeleteExpression"
  | .typeOfExpression => "TypeOfExpression"
  | .voidExpression => "VoidExpression"
  | .awaitExpression => "AwaitExpression"
  | .prefixUnaryExpression => "PrefixUnaryExpression"
  | .postfixUnaryExpression => "PostfixUnaryExpression"
  | .binaryExpression => "BinaryExpression"
  | .conditionalExpression => "ConditionalExpression"
  | .templateExpression => "TemplateExpression"
  | .yieldExpression => "YieldExpression"
  | .spreadElement => "SpreadElement"
  | .classExpression => "ClassExpression"
  | .omittedExpression => "OmittedExpression"
  | .expressionWithTypeArguments => "ExpressionWithTypeArguments"
  | .asExpression => "AsExpression"
  | .nonNullExpression => "NonNullExpression"
  | .metaProperty => "MetaProperty"
  | .satisfiesExpression => "SatisfiesExpression"
  | .templateSpan => "TemplateSpan"
  | .semicolonClassElement => "SemicolonClassElement"
  | .block => "Block"
  | .emptyStatement => "EmptyStatement"
  | .variableStatement => "VariableStatement"
  | .expressionStatement => "ExpressionStatement"
  | .ifStatement => "IfStatement"
  | .doStatement => "DoStatement"
  | .whileStatement => "WhileStatement"
  | .forStatement => "ForStatement"
  | .forInStatement => "ForInStatement"
  | .forOfStatement => "ForOfStatement"
  | .continueStatement => "ContinueStatement"
  | .breakStatement => "BreakStatement"
  | .returnStatement => "ReturnStatement"
  | .withStatement => "WithStatement"
  | .switchStatement => "SwitchStatement"
  | .labeledStatement => "LabeledStatement"
  | .throwStatement => "ThrowStatement"
  | .tryStatement => "TryStatement"
  | .debuggerStatement => "DebuggerStatement"
  | .variableDeclaration => "VariableDeclaration"
  | .variableDeclarationList => "VariableDeclarationList"
  | .functionDeclaration => "FunctionDeclaration"
  | .classDeclaration => "ClassDeclaration"
  | .interfaceDeclaration => "InterfaceDeclaration"
  | .typeAliasDeclaration => "TypeAliasDeclaration"
  | .enumDeclaration => "EnumDeclaration"
  | .moduleDeclaration => "ModuleDeclaration"
  | .moduleBlock => "ModuleBlock"
  | .caseBlock => "CaseBlock"
  | .namespaceExportDeclaration => "NamespaceExportDeclaration"
  | .importEqualsDeclaration => "ImportEqualsDeclaration"
  | .importDeclaration => "ImportDeclaration"
  | .importClause => "ImportClause"
  | .namespaceImport => "NamespaceImport"
  | .namedImports => "NamedImports"
  | .importSpecifier => "ImportSpecifier"
  | .exportAssignment => "ExportAssignment"
  | .exportDeclaration => "ExportDeclaration"
  | .namedExports => "NamedExports"
  | .namespaceExport => "NamespaceExport"
  | .exportSpecifier => "ExportSpecifier"
  | .missingDeclaration => "MissingDeclaration"
  | .externalModuleReference => "ExternalModuleReference"
  | .jsxElement => "JsxElement"
  | .jsxSelfClosingElement => "JsxSelfClosingElement"
  | .jsxOpeningElement => "JsxOpeningElement"
  | .jsxClosingElement => "JsxClosingElement"
  | .jsxFragment => "JsxFragment"
  | .jsxOpeningFragment => "JsxOpeningFragment"
  | .jsxClosingFragment => "JsxClosingFragment"
  | .jsxAttribute => "JsxAttribute"
  | .jsxAttributes => "JsxAttributes"
  | .jsxSpreadAttribute => "JsxSpreadAttribute"
  | .jsxExpression => "JsxExpression"
  | .jsxNamespacedName => "JsxNamespacedName"
  | .caseClause => "CaseClause"
  | .defaultClause => "DefaultClause"
  | .heritageClause => "HeritageClause"
  | .catchClause => "CatchClause"
  | .importAttributes => "ImportAttributes"
  | .importAttribute => "ImportAttribute"
  | .propertyAssignment => "PropertyAssignment"
  | .shorthandPropertyAssignment => "ShorthandPropertyAssignment"
  | .spreadAssignment => "SpreadAssignment"
  | .enumMember => "EnumMember"
  | .sourceFile => "SourceFile"
  | .docTypeExpression => "JSDocTypeExpression"
  | .docNameReference => "JSDocNameReference"
  | .docMemberName => "JSDocMemberName"
  | .docAllType => "JSDocAllType"
  | .docUnknownType => "JSDocUnknownType"
  | .docNullableType => "JSDocNullableType"
  | .docNonNullableType => "JSDocNonNullableType"
  | .docOptionalType => "JSDocOptionalType"
  | .docFunctionType => "JSDocFunctionType"
  | .docVariadicType => "JSDocVariadicType"
  | .docNamepathType => "JSDocNamepathType"
  | .doc => "JSDocComment"
  | .docText => "JSDocText"
  | .docTypeLiteral => "JSDocTypeLiteral"
  | .docSignature => "JSDocSignature"
  | .docLink => "JSDocLink"
  | .docLinkCode => "JSDocLinkCode"
  | .docLinkPlain => "JSDocLinkPlain"
  | .docTag => "JSDocTag"
  | .docAugmentsTag => "JSDocAugmentsTag"
  | .docImplementsTag => "JSDocImplementsTag"
  | .docAuthorTag => "JSDocAuthorTag"
  | .docDeprecatedTag => "JSDocDeprecatedTag"
  | .docClassTag => "JSDocClassTag"
  | .docPublicTag => "JSDocPublicTag"
  | .docPrivateTag => "JSDocPrivateTag"
  | .docProtectedTag => "JSDocProtectedTag"
  | .docReadonlyTag => "JSDocReadonlyTag"
  | .docOverrideTag => "JSDocOverrideTag"
  | .docCallbackTag => "JSDocCallbackTag"
  | .docOverloadTag => "JSDocOverloadTag"
  | .docEnumTag => "JSDocEnumTag"
  | .docParameterTag => "JSDocParameterTag"
  | .docReturnTag => "JSDocReturnTag"
  | .docThisTag => "JSDocThisTag"
  | .docTypeTag => "JSDocTypeTag"
  | .docTemplateTag => "JSDocTemplateTag"
  | .docTypedefTag => "JSDocTypedefTag"
  | .docSeeTag => "JSDocSeeTag"
  | .docPropertyTag => "JSDocPropertyTag"
  | .docThrowsTag => "JSDocThrowsTag"
  | .docSatisfiesTag => "JSDocSatisfiesTag"
  | .docImportTag => "JSDocImportTag"
  | .syntaxList => "SyntaxList"
  | .notEmittedStatement => "NotEmittedStatement"
  | .partiallyEmittedExpression => "PartiallyEmittedExpression"
  | .commaListExpression => "CommaListExpression"
  | .mergeDeclarationMarker => "MergeDeclarationMarker"
  | .endOfDeclarationMarker => "EndOfDeclarationMarker"
  | .countMarker => "Count"

instance : Repr Kind := ⟨fun k _ => k.name⟩

def words : List (String × Kind) := [
  ("break", .breakKeyword), ("case", .caseKeyword), ("catch", .catchKeyword),
  ("class", .classKeyword), ("const", .constKeyword), ("continue", .continueKeyword),
  ("debugger", .debuggerKeyword), ("default", .defaultKeyword), ("delete", .deleteKeyword),
  ("do", .doKeyword), ("else", .elseKeyword), ("enum", .enumKeyword), ("export", .exportKeyword),
  ("extends", .extendsKeyword), ("false", .falseKeyword), ("finally", .finallyKeyword),
  ("for", .forKeyword), ("function", .functionKeyword), ("if", .ifKeyword),
  ("import", .importKeyword), ("in", .inKeyword), ("instanceof", .instanceOfKeyword),
  ("new", .newKeyword), ("null", .nullKeyword), ("return", .returnKeyword),
  ("super", .superKeyword), ("switch", .switchKeyword), ("this", .thisKeyword),
  ("throw", .throwKeyword), ("true", .trueKeyword), ("try", .tryKeyword),
  ("typeof", .typeOfKeyword), ("var", .varKeyword), ("void", .voidKeyword),
  ("while", .whileKeyword), ("with", .withKeyword), ("implements", .implementsKeyword),
  ("interface", .interfaceKeyword), ("let", .letKeyword), ("package", .packageKeyword),
  ("private", .privateKeyword), ("protected", .protectedKeyword), ("public", .publicKeyword),
  ("static", .staticKeyword), ("yield", .yieldKeyword), ("abstract", .abstractKeyword),
  ("accessor", .accessorKeyword), ("as", .asKeyword), ("asserts", .assertsKeyword),
  ("assert", .assertKeyword), ("any", .anyKeyword), ("async", .asyncKeyword),
  ("await", .awaitKeyword), ("boolean", .booleanKeyword), ("constructor", .constructorKeyword),
  ("declare", .declareKeyword), ("get", .getKeyword), ("infer", .inferKeyword),
  ("intrinsic", .intrinsicKeyword), ("is", .isKeyword), ("keyof", .keyOfKeyword),
  ("module", .moduleKeyword), ("namespace", .namespaceKeyword), ("never", .neverKeyword),
  ("out", .outKeyword), ("readonly", .readonlyKeyword), ("require", .requireKeyword),
  ("number", .numberKeyword), ("object", .objectKeyword), ("satisfies", .satisfiesKeyword),
  ("set", .setKeyword), ("string", .stringKeyword), ("symbol", .symbolKeyword),
  ("type", .typeKeyword), ("undefined", .undefinedKeyword), ("unique", .uniqueKeyword),
  ("unknown", .unknownKeyword), ("using", .usingKeyword), ("from", .fromKeyword),
  ("global", .globalKeyword), ("bigint", .bigIntKeyword), ("override", .overrideKeyword),
  ("of", .ofKeyword)]

def marks : List (String × Kind) := [
  ("\x7b", .openBraceToken), ("\x7d", .closeBraceToken), ("(", .openParenToken),
  (")", .closeParenToken), ("[", .openBracketToken), ("]", .closeBracketToken), (".", .dotToken),
  ("...", .dotDotDotToken), (";", .semicolonToken), (",", .commaToken),
  ("?.", .questionDotToken), ("<", .lessThanToken), ("</", .lessThanSlashToken),
  (">", .greaterThanToken), ("<=", .lessThanEqualsToken), (">=", .greaterThanEqualsToken),
  ("==", .equalsEqualsToken), ("!=", .exclamationEqualsToken), ("===", .equalsEqualsEqualsToken),
  ("!==", .exclamationEqualsEqualsToken), ("=>", .equalsGreaterThanToken), ("+", .plusToken),
  ("-", .minusToken), ("*", .asteriskToken), ("**", .asteriskAsteriskToken), ("/", .slashToken),
  ("%", .percentToken), ("++", .plusPlusToken), ("--", .minusMinusToken),
  ("<<", .lessThanLessThanToken), (">>", .greaterThanGreaterThanToken),
  (">>>", .greaterThanGreaterThanGreaterThanToken), ("&", .ampersandToken), ("|", .barToken),
  ("^", .caretToken), ("!", .exclamationToken), ("~", .tildeToken),
  ("&&", .ampersandAmpersandToken), ("||", .barBarToken), ("?", .questionToken),
  (":", .colonToken), ("@", .atToken), ("??", .questionQuestionToken), ("\x60", .backtickToken),
  ("#", .hashToken), ("=", .equalsToken), ("+=", .plusEqualsToken), ("-=", .minusEqualsToken),
  ("*=", .asteriskEqualsToken), ("**=", .asteriskAsteriskEqualsToken), ("/=", .slashEqualsToken),
  ("%=", .percentEqualsToken), ("<<=", .lessThanLessThanEqualsToken),
  (">>=", .greaterThanGreaterThanEqualsToken),
  (">>>=", .greaterThanGreaterThanGreaterThanEqualsToken), ("&=", .ampersandEqualsToken),
  ("|=", .barEqualsToken), ("^=", .caretEqualsToken), ("||=", .barBarEqualsToken),
  ("&&=", .ampersandAmpersandEqualsToken), ("??=", .questionQuestionEqualsToken)]

/-- The kind lies between two others, ends included. -/
def within (k first last : Kind) : Bool := first.value ≤ k.value && k.value ≤ last.value

def isWord (k : Kind) : Bool := k.within .breakKeyword .ofKeyword

def isPunctuation (k : Kind) : Bool := k.within .openBraceToken .questionQuestionEqualsToken

def isLiteral (k : Kind) : Bool := k.within .numericLiteral .noSubstitutionTemplateLiteral

def isTemplatePiece (k : Kind) : Bool := k.within .noSubstitutionTemplateLiteral .templateTail

def isTrivia (k : Kind) : Bool := k.within .singleLineCommentTrivia .conflictMarkerTrivia

def isAssignment (k : Kind) : Bool := k.within .equalsToken .questionQuestionEqualsToken

def isCompoundAssignment (k : Kind) : Bool :=
  k.within .plusEqualsToken .questionQuestionEqualsToken

def isTypeNode (k : Kind) : Bool := k.within .typePredicate .importType

def isReservedWord (k : Kind) : Bool := k.within .breakKeyword .withKeyword

def isFutureReservedWord (k : Kind) : Bool := k.within .implementsKeyword .yieldKeyword

def isContextualWord (k : Kind) : Bool := k.within .abstractKeyword .ofKeyword

def isIdentifierOrWord (k : Kind) : Bool := k.within .identifier .ofKeyword

def isToken (k : Kind) : Bool := k.value ≤ ofKeyword.value

def isDocKind (k : Kind) : Bool := k.within .docTypeExpression .docImportTag

def modifierKinds : List Kind := [
  .abstractKeyword, .accessorKeyword, .asyncKeyword, .constKeyword, .declareKeyword,
  .defaultKeyword, .exportKeyword, .inKeyword, .outKeyword, .overrideKeyword, .privateKeyword,
  .protectedKeyword, .publicKeyword, .readonlyKeyword, .staticKeyword]

def isModifier (k : Kind) : Bool := modifierKinds.contains k

def statementKinds : List Kind := [
  .variableStatement, .emptyStatement, .expressionStatement, .ifStatement, .doStatement,
  .whileStatement, .forStatement, .forInStatement, .forOfStatement, .continueStatement,
  .breakStatement, .returnStatement, .withStatement, .switchStatement, .labeledStatement,
  .throwStatement, .tryStatement, .debuggerStatement, .block, .functionDeclaration,
  .classDeclaration, .interfaceDeclaration, .typeAliasDeclaration, .enumDeclaration,
  .moduleDeclaration, .importDeclaration, .importEqualsDeclaration, .exportDeclaration,
  .exportAssignment, .namespaceExportDeclaration]

def isStatement (k : Kind) : Bool := statementKinds.contains k

def declarationKinds : List Kind := [
  .variableDeclaration, .parameter, .propertyDeclaration, .propertySignature, .bindingElement,
  .functionDeclaration, .functionExpression, .arrowFunction, .classDeclaration, .classExpression,
  .interfaceDeclaration, .typeAliasDeclaration, .enumDeclaration, .enumMember,
  .moduleDeclaration, .importEqualsDeclaration, .importClause, .namespaceImport,
  .importSpecifier, .exportSpecifier, .methodDeclaration, .methodSignature, .constructor,
  .getAccessor, .setAccessor, .typeParameter, .indexSignature]

def isDeclaration (k : Kind) : Bool := declarationKinds.contains k

def functionLikeKinds : List Kind := [
  .functionDeclaration, .functionExpression, .arrowFunction, .methodDeclaration,
  .methodSignature, .constructor, .getAccessor, .setAccessor, .callSignature,
  .constructSignature, .indexSignature, .functionType, .constructorType, .docFunctionType]

def isFunctionLike (k : Kind) : Bool := functionLikeKinds.contains k

def ofWord? (word : String) : Option Kind := words.lookup word

def textIn (table : List (String × Kind)) (k : Kind) : Option String :=
  (table.find? (·.2 == k)).map (·.1)

def wordText? (k : Kind) : Option String :=
  if k.isWord then textIn words k else none

def punctuationText? (k : Kind) : Option String :=
  if k.isPunctuation then textIn marks k else none

def tokenText? (k : Kind) : Option String := k.wordText? <|> k.punctuationText?

def tokenText (k : Kind) : String := k.tokenText?.getD ""

end Kind

end ScriptFrontend
