import ScriptFrontend.Tree.Kind

/-!
# Precedence of binary operators

An operator binds its operands at a level; a greater level binds closer. A comma is no operator of
a level of its own here: it is the floor from which expressions are read.
-/

namespace ScriptFrontend

/-- How close an operator binds, the loosest first. -/
inductive Precedence where
  | comma
  | nullish
  | logicalOr
  | logicalAnd
  | bitwiseOr
  | bitwiseXor
  | bitwiseAnd
  | equality
  | relational
  | shift
  | additive
  | multiplicative
  | power
deriving DecidableEq, Repr, Inhabited

namespace Precedence

def closerThan (a b : Precedence) : Bool := b.ctorIdx < a.ctorIdx

def ofOperator? : Kind → Option Precedence
  | .questionQuestionToken => some nullish
  | .barBarToken => some logicalOr
  | .ampersandAmpersandToken => some logicalAnd
  | .barToken => some bitwiseOr
  | .caretToken => some bitwiseXor
  | .ampersandToken => some bitwiseAnd
  | .equalsEqualsToken | .exclamationEqualsToken | .equalsEqualsEqualsToken
  | .exclamationEqualsEqualsToken => some equality
  | .lessThanToken | .greaterThanToken | .lessThanEqualsToken | .greaterThanEqualsToken
  | .instanceOfKeyword | .inKeyword | .asKeyword | .satisfiesKeyword => some relational
  | .lessThanLessThanToken | .greaterThanGreaterThanToken
  | .greaterThanGreaterThanGreaterThanToken => some shift
  | .plusToken | .minusToken => some additive
  | .asteriskToken | .slashToken | .percentToken => some multiplicative
  | .asteriskAsteriskToken => some power
  | _ => none

/-- An operator at level `p` is read as part of an operand that begins above level `floor`. Powers
group to the right and all other operators to the left. -/
def continues (p floor : Precedence) : Bool :=
  p.closerThan floor || (p == power && floor == power)

end Precedence

end ScriptFrontend
