import RowStore.Client
import RowStore.Memory.Cursor
import RowStore.Text.Printable

/-!
# Listings

The structure of the things a session works with, written out field by field.
-/
namespace RowStore
namespace Listing

def record (name : String) (fields : List (String × String)) : String :=
  name ++ " \x7b " ++ String.intercalate ", " (fields.map fun (k, v) => k ++ ": " ++ v) ++ " \x7d"

def hexDigits (n : Nat) : String := String.ofList (Nat.toDigits 16 n)

def quotedChar (c : Char) : String :=
  match c with
  | '"' => "\\\""
  | '\\' => "\\\\"
  | '\n' => "\\n"
  | '\r' => "\\r"
  | '\t' => "\\t"
  | '\x00' => "\\0"
  | c => if isPrintable c then String.singleton c else "\\u\x7b" ++ hexDigits c.toNat ++ "\x7d"

def quoted (s : String) : String := "\"" ++ String.join (s.toList.map quotedChar) ++ "\""

def optional {α : Type} (list : α → String) : Option α → String
  | some a => "Some(" ++ list a ++ ")"
  | none => "None"

def bool (b : Bool) : String := if b then "true" else "false"

def value : Value → String
  | .null => "Null"
  | .int n => s!"Int({n.toInt})"
  | .uint n => s!"UInt({n.toNat})"
  | .bigInt n => s!"BigInt({n})"
  | .float x => "Float(" ++ Binary64.structural.render x ++ ")"
  | .decimal x => "Decimal(" ++ x.toText ++ ")"
  | .text s => "Text(" ++ quoted s ++ ")"
  | .bytes b => "Bytes(" ++ bytesText b ++ ")"

def cell : Cell → String
  | .null => "Null"
  | .int n => s!"Int({n.toInt})"
  | .uint n => s!"UInt({n.toNat})"
  | .double x => "Double(" ++ Binary64.structural.render x ++ ")"
  | .decimal x => "Decimal(" ++ x.toText ++ ")"
  | .text s => "Text(" ++ quoted s ++ ")"
  | .bytes b => "Bytes(" ++ bytesText b ++ ")"

def row (r : Row) : String :=
  record "Row" [("entries", bracketed (r.entries.map fun (k, v) => "(" ++ quoted k ++ ", " ++ value v ++ ")"))]

def searchMode : SearchMode → String
  | .greater => "Greater"
  | .greaterOrEqual => "GreaterOrEqual"
  | .less => "Less"
  | .lessOrEqual => "LessOrEqual"

def direction : Direction → String
  | .asc => "Asc"
  | .desc => "Desc"

def lockMode : LockMode → String
  | .intentionShared => "IntentionShared"
  | .intentionExclusive => "IntentionExclusive"
  | .shared => "Shared"
  | .exclusive => "Exclusive"
  | .notUsed => "NotUsed"
  | .none => "None"

def isolation : IsolationLevel → String
  | .readUncommitted => "ReadUncommitted"
  | .readCommitted => "ReadCommitted"
  | .repeatableRead => "RepeatableRead"
  | .serializable => "Serializable"

def transactionState : TransactionState → String
  | .notStarted => "NotStarted"
  | .active => "Active"
  | .committed => "Committed"
  | .rolledBack => "RolledBack"

def scanState : ScanState → String
  | .iterating => "Iterating"
  | .closed => "Closed"

def layout : TupleLayout → String
  | .clustered => "Clustered"
  | .secondary => "Secondary"

def database (db : Memory.Database) : String := record "MemDatabase" [("tables", toString db.tables.size)]

def transaction (db : Memory.Database) (txn : Memory.Transaction) : String :=
  record "MemTransaction"
    [("id", toString txn.id), ("level", isolation txn.level), ("state", transactionState (db.workspace txn.id).state)]

def cursor (c : Memory.Cursor) : String :=
  record "MemCursor"
    [("id", toString c.id), ("table", quoted c.schema.name),
      ("index", optional (fun i : Index => quoted i.name) c.index),
      ("pos", optional (fun key : Key => bracketed (key.map cell)) c.position), ("closed", bool c.closed)]

def client (db : Memory.Database) (c : Client) : String :=
  let options := "TemplateOptions \x7b isolation: " ++ isolation c.options.isolation ++ ", default_search_mode: " ++
    searchMode c.options.defaultMode ++ ", .. \x7d"
  record "Template" [("db", database db), ("options", options)]

def plan (p : Plan) : String :=
  record "TraversalSpec"
    [("table", quoted p.target.schema.name), ("index", optional quoted p.target.index), ("key_prefix", row p.keyRow),
      ("direction", direction p.direction), ("search_mode", optional searchMode p.mode),
      ("continuation", bool p.continuation.isSome), ("selection", bool p.selection.isSome)]

end Listing
end RowStore
