import RowStore.Schema.Declaration

/-!
# Builders

A declaration may also be made call by call, columns and key columns in any order.  A builder gives every column its
place at once, and keeps what has been declared of each index so far: a key column goes to the index of its name, which
its first key column opens.  Columns and indexes meet only in the end (`SchemaBuilder.build`), so an index may name a
column that is declared after it.
-/
namespace RowStore

/-- One call on a builder. -/
inductive DeclarationCall
  | column (column : ColumnDeclaration)
  | key (key : KeyDeclaration)
  deriving DecidableEq, Inhabited

/-- What has been declared of an index so far. -/
structure PendingIndex where
  name : String
  columns : List String
  primary : Bool
  unique : Bool
  deriving DecidableEq, Inhabited

/-- What has been declared of a table so far. -/
structure SchemaBuilder where
  name : String
  columns : List Column := []
  indexes : List PendingIndex := []
  deriving DecidableEq, Inhabited

/-- Appends a key column to the index of its name, or opens that index. -/
def PendingIndex.merge (k : KeyDeclaration) : List PendingIndex → List PendingIndex
  | [] => [⟨k.index, [k.column], k.primary, k.unique⟩]
  | p :: rest =>
    if p.name = k.index then
      { p with columns := p.columns ++ [k.column], primary := p.primary || k.primary, unique := p.unique || k.unique } :: rest
    else p :: merge k rest

namespace SchemaBuilder

def call (b : SchemaBuilder) : DeclarationCall → SchemaBuilder
  | .column c => { b with columns := b.columns ++ [⟨c.name, c.type, c.length, c.attributes, b.columns.length⟩] }
  | .key k => { b with indexes := PendingIndex.merge k b.indexes }

/-- The builder of a table after some calls. -/
def run (name : String) (calls : List DeclarationCall) : SchemaBuilder := calls.foldl call { name }

/-- An index over the table's own columns. -/
def resolve (columns : List Column) (p : PendingIndex) : Except Error Index := do
  let keyColumns ← p.columns.mapM fun name =>
    match columns.find? fun c => c.name == name with
    | some c => .ok c
    | none => .error (.invalidArgument (.unknownColumn p.name name))
  return ⟨p.name, keyColumns, p.primary, p.unique || p.primary⟩

/-- The primary index among pending ones, if there is one, and the others. -/
def collect (b : SchemaBuilder) : List PendingIndex → Option Index → List Index → Except Error (Option Index × List Index)
  | [], primary, secondary => .ok (primary, secondary)
  | p :: rest, primary, secondary => do
    let index ← resolve b.columns p
    if index.primary then
      if primary.isSome then .error (.invalidArgument (.secondPrimary b.name))
      else b.collect rest (some index) secondary
    else b.collect rest primary (secondary ++ [index])

/-- Checks what has been declared and makes the schema of it. -/
def build (b : SchemaBuilder) : Except Error TableSchema := do
  if b.columns.isEmpty then .error (.invalidArgument (.noColumns b.name))
  if let some fault := Declaration.columnFault? b.name [] b.columns then .error (.invalidArgument fault)
  let (primary, secondary) ← b.collect b.indexes none []
  match primary with
  | none => .error (.invalidArgument (.noPrimary b.name))
  | some primary =>
    return ⟨b.name, b.columns, primary, secondary.mergeSort fun a b => (compare a.name b.name).isLE⟩

end SchemaBuilder
end RowStore
