import RowStore.Error

/-!
# Declarations

A table is declared column by column, and its indexes one key column at a time: entries of one index name make one
index, in their order.  `Declaration.build` accepts a declaration with columns of distinct names, integers of one, two,
four or eight bytes, indexes over declared columns, and exactly one primary index; it answers the first fault otherwise.
-/
namespace RowStore

/-- A column as declared; its ordinal will be its place. -/
structure ColumnDeclaration where
  name : String
  type : ColumnType
  length : Nat
  attributes : List Attribute
  deriving DecidableEq, Inhabited

/-- One key column of the index of a name. -/
structure KeyDeclaration where
  index : String
  column : String
  primary : Bool
  unique : Bool
  deriving DecidableEq, Inhabited

/-- What a table is declared to be. -/
structure Declaration where
  name : String
  columns : List ColumnDeclaration
  keys : List KeyDeclaration
  deriving DecidableEq, Inhabited

namespace Declaration

def placedColumns (d : Declaration) : List Column :=
  d.columns.zipIdx.map fun (c, i) => ⟨c.name, c.type, c.length, c.attributes, i⟩

/-- The first fault among the columns; `earlier` are the names before them. -/
def columnFault? (table : String) (earlier : List String) : List Column → Option DeclarationFault
  | [] => none
  | c :: rest =>
    if earlier.contains c.name then some (.repeatedColumn table c.name)
    else if c.type.isInteger && !([1, 2, 4, 8].contains c.length) then some (.integerWidth table c.name c.length)
    else columnFault? table (c.name :: earlier) rest

/-- The names of the indexes, in the order of their first entries. -/
def indexNames (d : Declaration) : List String :=
  d.keys.foldl (fun names k => if names.contains k.index then names else names ++ [k.index]) []

/-- The index of a name: all its entries, primary or unique if one of them says so. -/
def index (d : Declaration) (columns : List Column) (name : String) : Except Error Index := do
  let keys := d.keys.filter fun k => k.index == name
  let keyColumns ← keys.mapM fun k =>
    match columns.find? fun c => c.name == k.column with
    | some c => .ok c
    | none => .error (.invalidArgument (.unknownColumn name k.column))
  let primary := keys.any (·.primary)
  return ⟨name, keyColumns, primary, keys.any (·.unique) || primary⟩

/-- The indexes of the given names: the primary one, if there is one, and the others.  Faults show in the order of the
names, an unknown column before a second primary index. -/
def collect (d : Declaration) (columns : List Column) :
    List String → Option Index → List Index → Except Error (Option Index × List Index)
  | [], primary, secondary => .ok (primary, secondary)
  | name :: names, primary, secondary => do
    let index ← d.index columns name
    if index.primary then
      if primary.isSome then .error (.invalidArgument (.secondPrimary d.name))
      else d.collect columns names (some index) secondary
    else d.collect columns names primary (secondary ++ [index])

/-- Checks a declaration and makes the schema that it declares. -/
def build (d : Declaration) : Except Error TableSchema := do
  let columns := d.placedColumns
  if columns.isEmpty then .error (.invalidArgument (.noColumns d.name))
  if let some fault := columnFault? d.name [] columns then .error (.invalidArgument fault)
  let (primary, secondary) ← d.collect columns d.indexNames none []
  match primary with
  | none => .error (.invalidArgument (.noPrimary d.name))
  | some primary =>
    return ⟨d.name, columns, primary, secondary.mergeSort fun a b => (compare a.name b.name).isLE⟩

end Declaration
end RowStore
