import Intake.Json.Token
import Intake.Json.Value

/-!
# Drafts

A draft is a document as far as it could be read: the tree of its tokens, members in the order of
the text, and where the text breaks off or goes wrong a `broken` draft or an array or object that
is not closed. Readers of values go through a draft from left to right, and so the first fault in
the text is the one that they meet, whether it is a fault of the form or of the content.

The draft is built from the tokens by a machine that keeps the arrays and objects that are still
open.
-/

namespace Intake.Json

/-- A document as far as it could be read. A string without text and a number without value are
those of the tokens; the key of a member may be such a string. -/
inductive Draft where
  | null
  | bool (value : Bool)
  | number (value : Option Number)
  | text (value : Option String)
  | array (items : List Draft) (closed : Bool)
  | object (members : List (Option String × Draft)) (closed : Bool)
  | broken

instance : Inhabited Draft := ⟨.broken⟩

namespace Draft

/-! ## Whole documents -/

mutual

/-- The draft of a document. -/
def ofTree : Tree → Draft
  | .null => .null
  | .bool b => .bool b
  | .number n => .number (some n)
  | .text s => .text (some s)
  | .array xs => .array (ofItems xs) true
  | .object ms => .object (ofMembers ms) true

/-- The drafts of items. -/
def ofItems : List Tree → List Draft
  | [] => []
  | x :: xs => ofTree x :: ofItems xs

/-- The drafts of members. -/
def ofMembers : List (String × Tree) → List (Option String × Draft)
  | [] => []
  | (k, x) :: ms => (some k, ofTree x) :: ofMembers ms

end

mutual

/-- Whether the form is that of a document. What the strings and numbers stand for does not
matter. -/
def isWhole : Draft → Bool
  | .array xs closed => itemsWhole xs && closed
  | .object ms closed => membersWhole ms && closed
  | .broken => false
  | _ => true

/-- Whether every item is whole. -/
def itemsWhole : List Draft → Bool
  | [] => true
  | x :: xs => x.isWhole && itemsWhole xs

/-- Whether the value of every member is whole. -/
def membersWhole : List (Option String × Draft) → Bool
  | [] => true
  | (_, x) :: ms => x.isWhole && membersWhole ms

end

mutual

/-- The document of a draft, if it is one, every string has a text and every number a value, and no
more arrays and objects than given stand inside each other. -/
def toTree? (room : Nat) : Draft → Option Tree
  | .null => some .null
  | .bool b => some (.bool b)
  | .number n => n.map .number
  | .text s => s.map .text
  | .array xs closed =>
    match room with
    | 0 => none
    | room + 1 => if closed then (itemsToTree? room xs).map .array else none
  | .object ms closed =>
    match room with
    | 0 => none
    | room + 1 => if closed then (membersToTree? room ms).map .object else none
  | .broken => none

/-- The documents of items. -/
def itemsToTree? (room : Nat) : List Draft → Option (List Tree)
  | [] => some []
  | x :: xs => do
    let t ← x.toTree? room
    let ts ← itemsToTree? room xs
    return t :: ts

/-- The documents of members. -/
def membersToTree? (room : Nat) : List (Option String × Draft) → Option (List (String × Tree))
  | [] => some []
  | (k, x) :: ms => do
    let key ← k
    let t ← x.toTree? room
    let ts ← membersToTree? room ms
    return (key, t) :: ts

end

/-! ## Building a draft -/

/-- An array or object that is still open: what it holds already, backwards, and for an object the
key whose value is being read. -/
inductive Frame where
  | array (items : List Draft)
  | object (members : List (Option String × Draft)) (key : Option String)

/-- What the machine waits for. -/
inductive Builder where
  | value (outer : List Frame)
  | itemOrClose (outer : List Frame)
  | keyOrClose (outer : List Frame)
  | key (members : List (Option String × Draft)) (outer : List Frame)
  | colon (members : List (Option String × Draft)) (key : Option String) (outer : List Frame)
  | afterItem (items : List Draft) (outer : List Frame)
  | afterMember (members : List (Option String × Draft)) (outer : List Frame)
  | complete (draft : Draft)
  | stopped (draft : Draft)

namespace Builder

/-- A value that was read, put where it belongs. -/
def place (d : Draft) : List Frame → Builder
  | [] => .complete d
  | .array items :: outer => .afterItem (d :: items) outer
  | .object members k :: outer => .afterMember ((k, d) :: members) outer

/-- The draft when the text goes wrong inside of open arrays and objects. -/
def abandon (d : Draft) : List Frame → Draft
  | [] => d
  | .array items :: outer => abandon (.array (d :: items).reverse false) outer
  | .object members k :: outer => abandon (.object ((k, d) :: members).reverse false) outer

/-- The draft when the text goes wrong here. -/
def stop : Builder → Draft
  | .value outer => abandon .broken outer
  | .itemOrClose outer => abandon (.array [] false) outer
  | .keyOrClose outer => abandon (.object [] false) outer
  | .key members outer => abandon (.object members.reverse false) outer
  | .colon members k outer => abandon (.object ((k, .broken) :: members).reverse false) outer
  | .afterItem items outer => abandon (.array items.reverse false) outer
  | .afterMember members outer => abandon (.object members.reverse false) outer
  | .complete d | .stopped d => d

/-- A token where a value must stand. -/
def stepValue (outer : List Frame) : Token → Builder
  | .null => place .null outer
  | .bool b => place (.bool b) outer
  | .number n => place (.number n) outer
  | .text s => place (.text s) outer
  | .arrayOpen => .itemOrClose outer
  | .objectOpen => .keyOrClose outer
  | _ => .stopped (stop (.value outer))

/-- One token more. -/
def step : Builder → Token → Builder
  | .value outer, t => stepValue outer t
  | .itemOrClose outer, .arrayClose => place (.array [] true) outer
  -- an item right away: from here on the array only closes after an item
  | .itemOrClose outer, t => stepValue (.array [] :: outer) t
  | .keyOrClose outer, .objectClose => place (.object [] true) outer
  | .keyOrClose outer, .text k => .colon [] k outer
  | .key members outer, .text k => .colon members k outer
  | .colon members k outer, .colon => .value (.object members k :: outer)
  | .afterItem items outer, .comma => .value (.array items :: outer)
  | .afterItem items outer, .arrayClose => place (.array items.reverse true) outer
  | .afterMember members outer, .comma => .key members outer
  | .afterMember members outer, .objectClose => place (.object members.reverse true) outer
  -- every other token is out of place, also one after the document
  | b, _ => .stopped b.stop

end Builder

/-- The draft that a text gives, and whether nothing follows it. -/
structure Reading where
  draft : Draft
  ended : Bool

/-- The draft of a sequence of tokens. -/
def ofTokens (tokens : List Token) : Reading :=
  match tokens.foldl Builder.step (.value []) with
  | .complete d => ⟨d, true⟩
  | b => ⟨b.stop, false⟩

/-- The draft of the octets of a text. -/
def read (bytes : ByteArray) : Reading :=
  ofTokens (tokens (Text.symbols bytes))

end Draft

/-- The value that the octets of a text give, if they are a document that does not nest deeper than
`room`. -/
def ofBytes? (room : Nat) (bytes : ByteArray) : Option Json :=
  let r := Draft.read bytes
  if r.ended then (r.draft.toTree? room).map ofTree else none

/-- How many arrays and objects a document may hold inside each other. -/
def maxDepth : Nat := 127

/-- The value that a text gives, if it is a document. -/
def ofText? (text : String) : Option Json := ofBytes? maxDepth text.toUTF8

end Intake.Json
