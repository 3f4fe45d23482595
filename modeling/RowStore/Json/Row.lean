import RowStore.Json.Document
import RowStore.Row

/-!
# Rows as JSON

A row is written as its list of entries, and a value as its form `t` and its content `v`.  A big integer is its sign and
its digits to the base `2 ^ 32`, the least significant first; a decimal is a string, which keeps its scale.  Reading
takes what is written and somewhat more: members in any order, unknown members, and lists in place of records.

The store is given its JSON and only says which forms it wants.  These functions stand for what is given, so that sessions
can be run with rows in JSON; no theorem rests on them.
-/
namespace RowStore
namespace Json

/-! ## Writing -/

def hex2 (n : Nat) : List Char := [Nat.digitChar (n / 16), Nat.digitChar (n % 16)]

def escaped (c : Char) : List Char :=
  match c with
  | '"' => ['\\', '"']
  | '\\' => ['\\', '\\']
  | '\n' => ['\\', 'n']
  | '\t' => ['\\', 't']
  | '\r' => ['\\', 'r']
  | '\x08' => ['\\', 'b']
  | '\x0c' => ['\\', 'f']
  | c => if c.toNat < 0x20 then ['\\', 'u', '0', '0'] ++ hex2 c.toNat else [c]

def stringText (s : String) : String := "\"" ++ String.ofList (s.toList.flatMap escaped) ++ "\""

def listText (items : List String) : String := "[" ++ String.intercalate "," items ++ "]"

def wordBase : Nat := 1 <<< 32

/-- The digits of a natural to this base, the least significant first; `fuel` bounds their number. -/
def words : Nat → Nat → List Nat
  | 0, _ => []
  | fuel + 1, n => if n = 0 then [] else n % wordBase :: words fuel (n / wordBase)

def ofWords (ws : List Nat) : Nat := ws.foldr (fun w n => w + wordBase * n) 0

def bigIntText (n : Int) : String :=
  listText [toString n.sign, listText ((words (n.natAbs.log2 + 1) n.natAbs).map toString)]

/-- Infinities and not-a-numbers have no JSON form. -/
def floatText (x : Binary64) : String := if x.isFinite then Binary64.json.render x else "null"

def tagged (tag content : String) : String := "\x7b\"t\":\"" ++ tag ++ "\",\"v\":" ++ content ++ "\x7d"

def valueText : Value → String
  | .null => "\x7b\"t\":\"Null\"\x7d"
  | .int n => tagged "Int" (toString n.toInt)
  | .uint n => tagged "UInt" (toString n.toNat)
  | .bigInt n => tagged "BigInt" (bigIntText n)
  | .float x => tagged "Float" (floatText x)
  | .decimal x => tagged "Decimal" (stringText x.toText)
  | .text s => tagged "Text" (stringText s)
  | .bytes b => tagged "Bytes" (listText (b.map fun x => toString x.toNat))

def rowText (row : Row) : String :=
  "\x7b\"entries\":" ++ listText (row.entries.map fun (k, v) => listText [stringText k, valueText v]) ++ "\x7d"

/-! ## Reading -/

/-- The members of a record whose names are all texts. -/
def membersOf (members : List (Option String × Node)) : Option (List (String × Node)) :=
  members.mapM fun (name, node) => name.map fun name => (name, node)

/-- The content of the only member of a name.  A name that is missing or repeated has none. -/
def member? (members : List (String × Node)) (name : String) : Option Node :=
  match members.filter fun m => m.1 == name with
  | [m] => some m.2
  | _ => none

def integerOf : Node → Option Int
  | .number n => n.integer?
  | _ => none

/-- A list of unsigned words of `bits` bits. -/
def naturalsOf (bits : Nat) : Node → Option (List Nat)
  | .array items => items.mapM fun item => do
    let n ← integerOf item
    if FitsUnsigned bits n then return n.toNat else none
  | _ => none

def bigIntOf : Node → Option Int
  | .array [sign, digits] => do
    let sign ← integerOf sign
    let digits ← naturalsOf 32 digits
    if sign.natAbs ≤ 1 then return sign * ofWords digits else none
  | _ => none

/-- A decimal from its text, or from a number through the double that is nearest to it. -/
def decimalOf : Node → Option Decimal
  | .string (some s) => Decimal.ofText? s.toList
  | .number n =>
    match n.integer? with
    | some i => Decimal.ofInt? i
    | none => n.float?.bind fun x => Decimal.ofText? (Binary64.plain.render x).toList
  | _ => none

def contentOf (tag : String) (content : Option Node) : Option Value :=
  match tag, content with
  | "Null", none => some .null
  | "Null", some .null => some .null
  | "Int", some node => ((integerOf node).bind Value.int64?).map .int
  | "UInt", some node => ((integerOf node).bind Value.uint64?).map .uint
  | "BigInt", some node => (bigIntOf node).map .bigInt
  | "Float", some (.number n) => n.double?.map .float
  | "Decimal", some node => (decimalOf node).map .decimal
  | "Text", some (.string (some s)) => some (.text s)
  | "Bytes", some node => (naturalsOf 8 node).map fun b => .bytes (b.map UInt8.ofNat)
  | _, _ => none

/-- The name of a form as a member of a record: a string, or a record of that one name. -/
def tagOf : Node → Option String
  | .string s => s
  | .object [(s, .null)] => s
  | _ => none

def valueOf : Node → Option Value
  | .object members => do
    let members ← membersOf members
    let tag ← tagOf (← member? members "t")
    match members.filter fun m => m.1 == "v" with
    | [] => contentOf tag none
    | [m] => contentOf tag (some m.2)
    | _ => none
  | .array [.string (some tag), content] => contentOf tag (some content)
  | _ => none

def entryOf : Node → Option (String × Value)
  | .array [.string (some name), value] => do return (name, ← valueOf value)
  | _ => none

def entriesOf : Node → Option Row
  | .array items => (items.mapM entryOf).map Row.mk
  | _ => none

/-- The row of a document.  Entries are kept as they are, repeated names too. -/
def rowOf : Node → Option Row
  | .object members => do entriesOf (← member? (← membersOf members) "entries")
  | .array [entries] => entriesOf entries
  | _ => none

def readRow? (text : String) : Option Row := (read? text.toList).bind rowOf

end Json
end RowStore
