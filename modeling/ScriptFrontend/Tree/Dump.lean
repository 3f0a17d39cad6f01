import ScriptFrontend.Json.Basic
import ScriptFrontend.Tree.Form

/-!
# Trees as JSON

A node becomes an object with its kind and range, its flags unless it has none, the text or operator
it carries, its children and its documentation comments.
-/

namespace ScriptFrontend.Node

def shapeMembers : Shape → List (String × Json)
  | .identifier text _ => [("text", .string text)]
  | .literal text _ _ => [("text", .string text)]
  | .unary operator => [("operator", .string operator.name)]
  | .typeOperator operator => [("operator", .string operator.name)]
  | .doc (some comment) => [("comment", .string comment)]
  | .docTag (some comment) _ _ => [("comment", .string comment)]
  | _ => []

def listMember (name : String) (items : List Json) : List (String × Json) :=
  if items.isEmpty then [] else [(name, .array items)]

mutual

def toJson : Node → Json
  | .mk h s slots docs _ =>
    let flags := if h.flags.isEmpty then [] else [("flags", Json.ofNat h.flags.toNat)]
    .object ([("kind", .string h.kind.name), ("pos", .ofNat h.pos), ("end", .ofNat h.stop)] ++
      flags ++ shapeMembers s ++ listMember "children" (jsonOfSlots slots) ++
      listMember "jsDoc" (jsonOfItems docs))

def jsonOfSlots : List Slot → List Json
  | [] => []
  | slot :: rest => jsonOfSlot slot ++ jsonOfSlots rest

def jsonOfSlot : Slot → List Json
  | .absent => []
  | .node n => [n.toJson]
  | .list head items =>
    let comma := if head.trailingComma then [("hasTrailingComma", Json.bool true)] else []
    [.object ([("kind", .string "NodeArray"), ("pos", .ofNat head.pos), ("end", .ofNat head.stop)]
      ++ comma ++ [("elements", .array (jsonOfItems items))])]

def jsonOfItems : List Node → List Json
  | [] => []
  | n :: rest => n.toJson :: jsonOfItems rest

end

end ScriptFrontend.Node
