import ScriptFrontend.Diagnostic.Basic

/-!
# Faults of a source text

Every cause for which reading a source text reports an error, with its code and the template of
its message. All of them are errors.
-/

namespace ScriptFrontend.Diagnostic

/-- Why a source text is refused at a place. -/
inductive Fault where
  | unterminatedString
  | unterminatedComment
  | digitExpected
  | hexDigitExpected
  | unexpectedEnd
  | invalidCharacter
  | unterminatedTemplate
  | unterminatedRegex
  | binaryDigitExpected
  | octalDigitExpected
  | mergeConflict
  | escapeOutOfRange
  | unterminatedEscape
  | identifierAfterNumber
  | escapeNotAllowed
  | separatorNotAllowed
  | repeatedSeparator
  | identifierExpected
  | expected
  | matchingTokenExpected
  | expressionExpected
  | typeExpected
  | stringLiteralExpected
  | braceOrSemicolonExpected
  | declarationExpected
  | catchOrFinallyExpected
  | openBraceExpected
  | unexpectedToken
  | unexpectedWord
  | classMemberExpected
  | bareTypeParameterExpected
  | declarationOrStatementExpected
  | statementExpected
  | caseOrDefaultExpected
  | propertyOrSignatureExpected
  | enumMemberExpected
  | variableDeclarationExpected
  | argumentExpected
  | propertyAssignmentExpected
  | expressionOrCommaExpected
  | parameterExpected
  | typeParameterExpected
  | typeArgumentExpected
  | identifierOrStringExpected
  | trailingComma
  | elementAccessArgument
  | trailingCommaAfterRest
  | emptyList
  | emptyTypeParameters
  | emptyTypeArguments
  | lineBreakNotPermitted
  | commaInComputedName
  | lineBreakBeforeArrow
  | decoratorsNotValid
  | repeatedTag
  | enumMemberFollow
  | unnamedNamespace
  | unnamedInterface
  | unnamedTypeAlias
  | constraintIsExpression
  | restParameterProperty
  | docTypeOutsideDoc
  | repeatedTypeTag
  | typeArgumentsNotAllowed
  | reservedWord
  | escapedKeyword
  | privateOutsideClass
  | variableNameNotAllowed
  | parameterNameNotAllowed
  | propertyPatternExpected
  | elementPatternExpected
  | emptyDeclarationList
  | modifiersNotAllowed
  | memberKeywordNotAllowed
  | superAlone
  | taggedTemplateInChain
  | optionalChainFromNew
  | accessAfterInstantiation
  | unaryBeforePower
  | assertionBeforePower
  | nestedTooDeeply
  | functionTypeInUnion
  | constructorTypeInUnion
  | functionTypeInIntersection
  | constructorTypeInIntersection
  | modifiersOnThis
  | unknownWord
  | lateDecorators
  | moduleNameQuotes
  | predicateNotInReturn
  | variableDeclarationNotAllowed
  | callInType
  | equalsForInitializer
  | interfaceNameNotAllowed
  | typeAliasNameNotAllowed
  | equalsAfterBlock
  | namespaceNameNotAllowed
  | privateInVariable
  | privateParameter
  | invalidReference
  | repeatedModuleName
  | closingTagMismatch
  | elementNotClosed
  | fragmentNotClosed
  | fragmentClosingExpected
  | oneParentElement
  | emptyAttributeExpression
  | braceOrElementExpected
  | bareCloseBrace
  | bareGreaterThan
deriving DecidableEq, Repr, Inhabited

namespace Fault

def code : Fault → Nat
  | .unterminatedString => 1002
  | .unterminatedComment => 1010
  | .digitExpected => 1124
  | .hexDigitExpected => 1125
  | .unexpectedEnd => 1126
  | .invalidCharacter => 1127
  | .unterminatedTemplate => 1160
  | .unterminatedRegex => 1161
  | .binaryDigitExpected => 1177
  | .octalDigitExpected => 1178
  | .mergeConflict => 1185
  | .escapeOutOfRange => 1198
  | .unterminatedEscape => 1199
  | .identifierAfterNumber => 1351
  | .escapeNotAllowed => 1488
  | .separatorNotAllowed => 6188
  | .repeatedSeparator => 6189
  | .identifierExpected => 1003
  | .expected => 1005
  | .matchingTokenExpected => 1007
  | .expressionExpected => 1109
  | .typeExpected => 1110
  | .stringLiteralExpected => 1141
  | .braceOrSemicolonExpected => 1144
  | .declarationExpected => 1146
  | .catchOrFinallyExpected => 1472
  | .openBraceExpected => 1179
  | .unexpectedToken => 1012
  | .unexpectedWord => 1434
  | .classMemberExpected => 1068
  | .bareTypeParameterExpected => 1069
  | .declarationOrStatementExpected => 1128
  | .statementExpected => 1129
  | .caseOrDefaultExpected => 1130
  | .propertyOrSignatureExpected => 1131
  | .enumMemberExpected => 1132
  | .variableDeclarationExpected => 1134
  | .argumentExpected => 1135
  | .propertyAssignmentExpected => 1136
  | .expressionOrCommaExpected => 1137
  | .parameterExpected => 1138
  | .typeParameterExpected => 1139
  | .typeArgumentExpected => 1140
  | .identifierOrStringExpected => 1478
  | .trailingComma => 1009
  | .elementAccessArgument => 1011
  | .trailingCommaAfterRest => 1013
  | .emptyList => 1097
  | .emptyTypeParameters => 1098
  | .emptyTypeArguments => 1099
  | .lineBreakNotPermitted => 1142
  | .commaInComputedName => 1171
  | .lineBreakBeforeArrow => 1200
  | .decoratorsNotValid => 1206
  | .repeatedTag => 1223
  | .enumMemberFollow => 1357
  | .unnamedNamespace => 1437
  | .unnamedInterface => 1438
  | .unnamedTypeAlias => 1439
  | .constraintIsExpression => 1360
  | .restParameterProperty => 1317
  | .docTypeOutsideDoc => 8020
  | .repeatedTypeTag => 8033
  | .typeArgumentsNotAllowed => 8011
  | .reservedWord => 1359
  | .escapedKeyword => 1260
  | .privateOutsideClass => 18016
  | .variableNameNotAllowed => 1389
  | .parameterNameNotAllowed => 1390
  | .propertyPatternExpected => 1180
  | .elementPatternExpected => 1181
  | .emptyDeclarationList => 1123
  | .modifiersNotAllowed => 1184
  | .memberKeywordNotAllowed => 1248
  | .superAlone => 1034
  | .taggedTemplateInChain => 1358
  | .optionalChainFromNew => 1209
  | .accessAfterInstantiation => 1477
  | .unaryBeforePower => 17006
  | .assertionBeforePower => 17007
  | .nestedTooDeeply => 1800
  | .functionTypeInUnion => 1385
  | .constructorTypeInUnion => 1386
  | .functionTypeInIntersection => 1387
  | .constructorTypeInIntersection => 1388
  | .modifiersOnThis => 1433
  | .unknownWord => 1435
  | .lateDecorators => 1436
  | .moduleNameQuotes => 1443
  | .predicateNotInReturn => 1228
  | .variableDeclarationNotAllowed => 1440
  | .callInType => 1441
  | .equalsForInitializer => 1442
  | .interfaceNameNotAllowed => 2427
  | .typeAliasNameNotAllowed => 2457
  | .equalsAfterBlock => 2809
  | .namespaceNameNotAllowed => 2819
  | .privateInVariable => 18029
  | .privateParameter => 18009
  | .invalidReference => 1084
  | .repeatedModuleName => 2458
  | .closingTagMismatch => 17002
  | .elementNotClosed => 17008
  | .fragmentNotClosed => 17014
  | .fragmentClosingExpected => 17015
  | .oneParentElement => 2657
  | .emptyAttributeExpression => 17000
  | .braceOrElementExpected => 1145
  | .bareCloseBrace => 1381
  | .bareGreaterThan => 1382

def template : Fault → String
  | .unterminatedString => "Unterminated string literal."
  | .unterminatedComment => "'*/' expected."
  | .digitExpected => "Digit expected."
  | .hexDigitExpected => "Hexadecimal digit expected."
  | .unexpectedEnd => "Unexpected end of text."
  | .invalidCharacter => "Invalid character."
  | .unterminatedTemplate => "Unterminated template literal."
  | .unterminatedRegex => "Unterminated regular expression literal."
  | .binaryDigitExpected => "Binary digit expected."
  | .octalDigitExpected => "Octal digit expected."
  | .mergeConflict => "Merge conflict marker encountered."
  | .escapeOutOfRange =>
    "An extended Unicode escape value must be between 0x0 and 0x10FFFF inclusive."
  | .unterminatedEscape => "Unterminated Unicode escape sequence."
  | .identifierAfterNumber =>
    "An identifier or keyword cannot immediately follow a numeric literal."
  | .escapeNotAllowed => "Escape sequence '\x7b0\x7d' is not allowed."
  | .separatorNotAllowed => "Numeric separators are not allowed here."
  | .repeatedSeparator => "Multiple consecutive numeric separators are not permitted."
  | .identifierExpected => "Identifier expected."
  | .expected => "'\x7b0\x7d' expected."
  | .matchingTokenExpected =>
    "The parser expected to find a '\x7b0\x7d' to match the '\x7b1\x7d' token here."
  | .expressionExpected => "Expression expected."
  | .typeExpected => "Type expected."
  | .stringLiteralExpected => "String literal expected."
  | .braceOrSemicolonExpected => "'\x7b' or ';' expected."
  | .declarationExpected => "Declaration expected."
  | .catchOrFinallyExpected => "'catch' or 'finally' expected."
  | .openBraceExpected => "Unexpected token. '\x7b' expected."
  | .unexpectedToken => "Unexpected token."
  | .unexpectedWord => "Unexpected keyword or identifier."
  | .classMemberExpected =>
    "Unexpected token. A constructor, method, accessor, or property was expected."
  | .bareTypeParameterExpected =>
    "Unexpected token. A type parameter name was expected without curly braces."
  | .declarationOrStatementExpected => "Declaration or statement expected."
  | .statementExpected => "Statement expected."
  | .caseOrDefaultExpected => "'case' or 'default' expected."
  | .propertyOrSignatureExpected => "Property or signature expected."
  | .enumMemberExpected => "Enum member expected."
  | .variableDeclarationExpected => "Variable declaration expected."
  | .argumentExpected => "Argument expression expected."
  | .propertyAssignmentExpected => "Property assignment expected."
  | .expressionOrCommaExpected => "Expression or comma expected."
  | .parameterExpected => "Parameter declaration expected."
  | .typeParameterExpected => "Type parameter declaration expected."
  | .typeArgumentExpected => "Type argument expected."
  | .identifierOrStringExpected => "Identifier or string literal expected."
  | .trailingComma => "Trailing comma not allowed."
  | .elementAccessArgument => "An element access expression should take an argument."
  | .trailingCommaAfterRest =>
    "A rest parameter or binding pattern may not have a trailing comma."
  | .emptyList => "'\x7b0\x7d' list cannot be empty."
  | .emptyTypeParameters => "Type parameter list cannot be empty."
  | .emptyTypeArguments => "Type argument list cannot be empty."
  | .lineBreakNotPermitted => "Line break not permitted here."
  | .commaInComputedName => "A comma expression is not allowed in a computed property name."
  | .lineBreakBeforeArrow => "Line terminator not permitted before arrow."
  | .decoratorsNotValid => "Decorators are not valid here."
  | .repeatedTag => "'\x7b0\x7d' tag already specified."
  | .enumMemberFollow => "An enum member name must be followed by a ',', '=', or '\x7d'."
  | .unnamedNamespace => "Namespace must be given a name."
  | .unnamedInterface => "Interface must be given a name."
  | .unnamedTypeAlias => "Type alias must be given a name."
  | .constraintIsExpression => "A type parameter constraint must be a type, not an expression."
  | .restParameterProperty => "A parameter property cannot be declared using a rest parameter."
  | .docTypeOutsideDoc => "JSDoc types can only be used inside documentation comments."
  | .repeatedTypeTag => "A JSDoc '@typedef' comment may not contain multiple '@type' tags."
  | .typeArgumentsNotAllowed => "Type arguments can only be used in TypeScript files."
  | .reservedWord =>
    "Identifier expected. '\x7b0\x7d' is a reserved word that cannot be used here."
  | .escapedKeyword => "Keywords cannot contain escape characters."
  | .privateOutsideClass => "Private identifiers are not allowed outside class bodies."
  | .variableNameNotAllowed => "'\x7b0\x7d' is not allowed as a variable declaration name."
  | .parameterNameNotAllowed => "'\x7b0\x7d' is not allowed as a parameter name."
  | .propertyPatternExpected => "Property destructuring pattern expected."
  | .elementPatternExpected => "Array element destructuring pattern expected."
  | .emptyDeclarationList => "Variable declaration list cannot be empty."
  | .modifiersNotAllowed => "Modifiers cannot appear here."
  | .memberKeywordNotAllowed => "A class member cannot have the '\x7b0\x7d' keyword."
  | .superAlone => "'super' must be followed by an argument list or member access."
  | .taggedTemplateInChain =>
    "Tagged template expressions are not permitted in an optional chain."
  | .optionalChainFromNew =>
    "Invalid optional chain from new expression. Did you mean to call '\x7b0\x7d()'?"
  | .accessAfterInstantiation =>
    "An instantiation expression cannot be followed by a property access."
  | .unaryBeforePower =>
    "An unary expression with the '\x7b0\x7d' operator is not allowed in the left-hand side of an exponentiation expression. Consider enclosing the expression in parentheses."
  | .assertionBeforePower =>
    "A type assertion expression is not allowed in the left-hand side of an exponentiation expression. Consider enclosing the expression in parentheses."
  | .nestedTooDeeply => "Expression is nested too deeply."
  | .functionTypeInUnion =>
    "Function type notation must be parenthesized when used in a union type."
  | .constructorTypeInUnion =>
    "Constructor type notation must be parenthesized when used in a union type."
  | .functionTypeInIntersection =>
    "Function type notation must be parenthesized when used in an intersection type."
  | .constructorTypeInIntersection =>
    "Constructor type notation must be parenthesized when used in an intersection type."
  | .modifiersOnThis => "Neither decorators nor modifiers may be applied to 'this' parameters."
  | .unknownWord => "Unknown keyword or identifier. Did you mean '\x7b0\x7d'?"
  | .lateDecorators =>
    "Decorators must precede the name and all keywords of property declarations."
  | .moduleNameQuotes => "Module declaration names may only use ' or \" quoted strings."
  | .predicateNotInReturn =>
    "A type predicate is only allowed in return type position for functions and methods."
  | .variableDeclarationNotAllowed => "Variable declaration not allowed at this location."
  | .callInType => "Cannot start a function call in a type annotation."
  | .equalsForInitializer => "Expected '=' for property initializer."
  | .interfaceNameNotAllowed => "Interface name cannot be '\x7b0\x7d'."
  | .typeAliasNameNotAllowed => "Type alias name cannot be '\x7b0\x7d'."
  | .equalsAfterBlock =>
    "Declaration or statement expected. This '=' follows a block of statements, so if you intended to write a destructuring assignment, you might need to wrap the whole assignment in parentheses."
  | .namespaceNameNotAllowed => "Namespace name cannot be '\x7b0\x7d'."
  | .privateInVariable => "Private identifiers are not allowed in variable declarations."
  | .privateParameter => "Private identifiers cannot be used as parameters."
  | .invalidReference => "Invalid 'reference' directive syntax."
  | .repeatedModuleName => "An AMD module cannot have multiple name assignments."
  | .closingTagMismatch => "Expected corresponding JSX closing tag for '\x7b0\x7d'."
  | .elementNotClosed => "JSX element '\x7b0\x7d' has no corresponding closing tag."
  | .fragmentNotClosed => "JSX fragment has no corresponding closing tag."
  | .fragmentClosingExpected => "Expected corresponding closing tag for JSX fragment."
  | .oneParentElement => "JSX expressions must have one parent element."
  | .emptyAttributeExpression => "JSX attributes must only be assigned a non-empty 'expression'."
  | .braceOrElementExpected => "'\x7b' or JSX element expected."
  | .bareCloseBrace =>
    "Unexpected token. Did you mean \x60\x7b'\x7d'\x7d\x60 or \x60&rbrace;\x60?"
  | .bareGreaterThan => "Unexpected token. Did you mean \x60\x7b'>'\x7d\x60 or \x60&gt;\x60?"

def message (f : Fault) : Message := ⟨f.code, .error, f.template⟩

end Fault

end ScriptFrontend.Diagnostic
