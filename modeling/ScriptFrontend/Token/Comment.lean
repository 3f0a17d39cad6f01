import ScriptFrontend.Text.CharClass
import ScriptFrontend.Text.Trivia
import ScriptFrontend.Tree.Kind

/-!
# Comments around an offset

The comments that lead a token stand between it and the last line break before them; the comments
that trail one stand on the rest of its line. At the start of a text every comment leads.
-/

namespace ScriptFrontend

structure Comment where
  pos : Nat
  stop : Nat
  isBlock : Bool
  hasNewLine : Bool
deriving DecidableEq, Repr, Inhabited

namespace Comment

def kind (c : Comment) : Kind :=
  if c.isBlock then .multiLineCommentTrivia else .singleLineCommentTrivia

def text (c : Comment) (source : String) : String := Text.slice source c.pos c.stop

/-- Starts with two asterisks, and is more than its own opening and closing. -/
def isDoc (c : Comment) (source : String) : Bool :=
  let text := c.text source
  c.isBlock && Text.startsAt text 0 "/**" && !Text.startsAt text 0 "/**/"

def isTripleSlash (c : Comment) (source : String) : Bool :=
  let text := c.text source
  !c.isBlock && Text.startsAt text 0 "///" && !Text.startsAt text 0 "////"

def at? (source : String) (pos : Nat) : Option Comment :=
  if Text.startsAt source pos "//" then
    let stop := Text.lineEnd source (pos + 2)
    some ⟨pos, stop, false, stop < source.utf8ByteSize⟩
  else if Text.startsAt source pos "/*" then
    some ⟨pos, Text.blockCommentEnd source pos, true, false⟩
  else none

def breakAfterLast : List Comment → List Comment
  | [] => []
  | c :: found => { c with hasNewLine := true } :: found

/-- Comments from an offset on; `trailing` stops at the end of the line. Comments before the first
line break count only while `collecting`. -/
def collect (source : String) (trailing : Bool) (pos : Nat) (collecting : Bool) : List Comment :=
  (go (source.utf8ByteSize - pos) pos collecting []).reverse
where
  /-- The comments found so far stand last first. -/
  go : Nat → Nat → Bool → List Comment → List Comment
    | 0, _, _, found => found
    | fuel + 1, pos, collecting, found =>
      match Text.charAt? source pos with
      | none => found
      | some c =>
        if c == '\r' || c == '\n' then
          let next := if Text.startsAt source pos "\r\n" then pos + 2 else pos + 1
          if trailing then found else go fuel next true (breakAfterLast found)
        else
          match at? source pos with
          | some comment => go fuel comment.stop collecting (if collecting then comment :: found else found)
          | none =>
            if Text.isLineBreak c then go fuel (pos + c.utf8Size) collecting (breakAfterLast found)
            else if Text.isBlank c then go fuel (pos + c.utf8Size) collecting found
            else found

/-- Where comments may start: after a byte order mark and a first line that names an interpreter, at
the start of a text. -/
def startFrom (source : String) (pos : Nat) : Nat :=
  if pos == 0 then
    let pos := if Text.charAt? source 0 == some '\uFEFF' then 3 else 0
    if Text.startsAt source pos "#!" then Text.lineEnd source pos else pos
  else pos

def leading (source : String) (pos : Nat) : List Comment :=
  collect source false (startFrom source pos) (pos == 0)

def trailing (source : String) (pos : Nat) : List Comment :=
  collect source true (startFrom source pos) true

end Comment

end ScriptFrontend
