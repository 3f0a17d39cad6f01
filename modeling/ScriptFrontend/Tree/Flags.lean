import ScriptFrontend.Tree.Kind

/-!
# Flags

Sets of flags as bits of a word, one type per thing that carries flags: nodes, declarations by
their modifiers, tokens and symbols.
-/

namespace ScriptFrontend

inductive FlagOwner where
  | node
  | modifiers
  | token
  | symbol

structure FlagSet (owner : FlagOwner) where
  bits : UInt32
deriving DecidableEq, Repr, Inhabited

namespace FlagSet

variable {owner : FlagOwner}

def empty : FlagSet owner := ⟨0⟩

def full : FlagSet owner := ⟨0xffffffff⟩

def flag (n : UInt32) : FlagSet owner := ⟨1 <<< n⟩

instance : OrOp (FlagSet owner) := ⟨fun a b => ⟨a.bits ||| b.bits⟩⟩

instance : AndOp (FlagSet owner) := ⟨fun a b => ⟨a.bits &&& b.bits⟩⟩

def all (sets : List (FlagSet owner)) : FlagSet owner := sets.foldl (· ||| ·) empty

def isEmpty (s : FlagSet owner) : Bool := s.bits == 0

def has (s t : FlagSet owner) : Bool := s &&& t == t

def meets (s t : FlagSet owner) : Bool := !(s &&& t).isEmpty

def without (s t : FlagSet owner) : FlagSet owner := ⟨s.bits &&& ~~~t.bits⟩

def set (s t : FlagSet owner) (on : Bool) : FlagSet owner := if on then s ||| t else s.without t

def toNat (s : FlagSet owner) : Nat := s.bits.toNat

end FlagSet

abbrev NodeFlags := FlagSet .node

namespace NodeFlags

def letDeclaration : NodeFlags := .flag 0
def constDeclaration : NodeFlags := .flag 1
def usingDeclaration : NodeFlags := .flag 2
def awaitUsing : NodeFlags := .flag 3
def nestedNamespace : NodeFlags := .flag 4
def synthesized : NodeFlags := .flag 5
def namespaceWord : NodeFlags := .flag 6
def optionalChain : NodeFlags := .flag 7
def exportContext : NodeFlags := .flag 8
def globalAugmentation : NodeFlags := .flag 9
def dynamicImport : NodeFlags := .flag 10
def importMeta : NodeFlags := .flag 11
def multiLine : NodeFlags := .flag 12
def disallowIn : NodeFlags := .flag 14
def yieldContext : NodeFlags := .flag 15
def decoratorContext : NodeFlags := .flag 16
def awaitContext : NodeFlags := .flag 17
def disallowConditionalTypes : NodeFlags := .flag 18
def thisNodeHasError : NodeFlags := .flag 19
def javaScriptFile : NodeFlags := .flag 20
def subtreeHasError : NodeFlags := .flag 21
def subtreeChecked : NodeFlags := .flag 22
def jsxContext : NodeFlags := .flag 23
def inWithStatement : NodeFlags := .flag 24
def ambient : NodeFlags := .flag 25
def doc : NodeFlags := .flag 26
def jsonFile : NodeFlags := .flag 27

def blockScoped : NodeFlags :=
  .all [letDeclaration, constDeclaration, usingDeclaration, awaitUsing]

/-- The state of the parser that is stamped on every node it makes. -/
def context : NodeFlags :=
  .all [disallowIn, yieldContext, decoratorContext, awaitContext, disallowConditionalTypes,
    javaScriptFile, jsxContext, inWithStatement, ambient, doc]

def outsideTypes : NodeFlags := .all [yieldContext, awaitContext]

end NodeFlags

abbrev ModifierFlags := FlagSet .modifiers

namespace ModifierFlags

def isExported : ModifierFlags := .flag 0
def isAmbient : ModifierFlags := .flag 1
def isPublic : ModifierFlags := .flag 2
def isPrivate : ModifierFlags := .flag 3
def isProtected : ModifierFlags := .flag 4
def isStatic : ModifierFlags := .flag 5
def isReadonly : ModifierFlags := .flag 6
def isAccessor : ModifierFlags := .flag 7
def isAbstract : ModifierFlags := .flag 8
def isAsync : ModifierFlags := .flag 9
def isDefault : ModifierFlags := .flag 10
def isConst : ModifierFlags := .flag 11
def isOverride : ModifierFlags := .flag 13
def isIn : ModifierFlags := .flag 14
def isOut : ModifierFlags := .flag 15
def isDecorator : ModifierFlags := .flag 16

def parameterProperty : ModifierFlags := .all [isPublic, isPrivate, isProtected, isReadonly, isOverride]

/-- Modifiers without a meaning when the program runs. -/
def erased : ModifierFlags :=
  .all [isAmbient, isPublic, isPrivate, isProtected, isReadonly, isAbstract, isConst, isOverride, isIn, isOut]

def ofKind : Kind → ModifierFlags
  | .staticKeyword => isStatic
  | .publicKeyword => isPublic
  | .protectedKeyword => isProtected
  | .privateKeyword => isPrivate
  | .abstractKeyword => isAbstract
  | .accessorKeyword => isAccessor
  | .exportKeyword => isExported
  | .declareKeyword => isAmbient
  | .constKeyword => isConst
  | .defaultKeyword => isDefault
  | .asyncKeyword => isAsync
  | .readonlyKeyword => isReadonly
  | .overrideKeyword => isOverride
  | .inKeyword => isIn
  | .outKeyword => isOut
  | .decorator => isDecorator
  | _ => .empty

end ModifierFlags

abbrev TokenFlags := FlagSet .token

namespace TokenFlags

def precedingLineBreak : TokenFlags := .flag 0
def precedingDoc : TokenFlags := .flag 1
def unterminated : TokenFlags := .flag 2
def extendedUnicodeEscape : TokenFlags := .flag 3
def scientific : TokenFlags := .flag 4
def octal : TokenFlags := .flag 5
def hexSpecifier : TokenFlags := .flag 6
def binarySpecifier : TokenFlags := .flag 7
def octalSpecifier : TokenFlags := .flag 8
def containsSeparator : TokenFlags := .flag 9
def unicodeEscape : TokenFlags := .flag 10
def invalidEscape : TokenFlags := .flag 11

def binaryOrOctal : TokenFlags := .all [binarySpecifier, octalSpecifier]

def numeric : TokenFlags :=
  .all [scientific, octal, hexSpecifier, binarySpecifier, octalSpecifier, containsSeparator]

def templateLike : TokenFlags := invalidEscape

end TokenFlags

end ScriptFrontend
