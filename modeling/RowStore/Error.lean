import RowStore.Schema
import RowStore.Value

/-!
# Errors

Everything that can go wrong, by cause.  The wording is in one place, `Error.message`.
-/
namespace RowStore

/-- Why the storage engine refuses a call. -/
inductive Status
  | duplicateKey
  | recordNotFound
  | endOfIndex
  | tableNotFound
  | tableExists
  | indexNotFound
  | dataMismatch
  | lockWaitTimeout
  | deadlock
  | cursorClosed
  | transactionClosed
  deriving DecidableEq, Inhabited

namespace Status

def code : Status → Nat
  | duplicateKey => 18
  | recordNotFound => 1500
  | endOfIndex => 1501
  | tableNotFound => 31
  | tableExists => 42
  | indexNotFound => 43
  | dataMismatch => 2000
  | lockWaitTimeout => 35
  | deadlock => 16
  | cursorClosed => 2001
  | transactionClosed => 2002

def description : Status → String
  | duplicateKey => "duplicate key"
  | recordNotFound => "record not found"
  | endOfIndex => "end of index"
  | tableNotFound => "table not found"
  | tableExists => "table exists"
  | indexNotFound => "index not found"
  | dataMismatch => "data mismatch"
  | lockWaitTimeout => "lock wait timeout"
  | deadlock => "deadlock"
  | cursorClosed => "cursor closed"
  | transactionClosed => "transaction closed"

def message (status : Status) : String := s!"{status.description} (status {status.code})"

end Status

/-- A use of a tuple or cursor that its state does not allow. -/
inductive Misuse
  | tupleDisposed
  | writeThroughIndex
  | writeWithoutLock
  | lockWithoutIntention
  deriving DecidableEq, Inhabited

def Misuse.message : Misuse → String
  | tupleDisposed => "tuple already disposed"
  | writeThroughIndex => "write through a secondary index cursor"
  | writeWithoutLock => "write without an exclusive lock"
  | lockWithoutIntention => "exclusive lock requires intention-exclusive lock mode"

/-- Why a value does not go into a column. -/
inductive Rejection
  | notInteger (value : Value)
  | outOfRange (n : Int) (bits : Nat) (unsigned : Bool)
  | notUtf8
  | tooManyCharacters (count limit : Nat)
  | notBytes (value : Value)
  | tooManyBytes (count limit : Nat)
  | notNumeric (value : Value)
  | notDecimal (value : Value)
  deriving DecidableEq, Inhabited

def Rejection.message : Rejection → String
  | notInteger v => s!"'{v.toText}' is not an integer"
  | outOfRange n bits unsigned =>
    s!"{n} out of range for {bits}-bit " ++ (if unsigned then "unsigned" else "signed") ++ " column"
  | notUtf8 => "value is not valid UTF-8"
  | tooManyCharacters count limit => s!"{count} characters exceed declared length {limit}"
  | notBytes v => s!"'{v.toText}' is not a byte sequence"
  | tooManyBytes count limit => s!"{count} bytes exceed declared length {limit}"
  | notNumeric v => s!"'{v.toText}' is not numeric"
  | notDecimal v => s!"'{v.toText}' is not a decimal"

/-- Why a declaration makes no schema. -/
inductive DeclarationFault
  | noColumns (table : String)
  | repeatedColumn (table column : String)
  | integerWidth (table column : String) (width : Nat)
  | unknownColumn (index column : String)
  | secondPrimary (table : String)
  | noPrimary (table : String)
  deriving DecidableEq, Inhabited

def DeclarationFault.message : DeclarationFault → String
  | noColumns t => s!"table '{t}' has no columns"
  | repeatedColumn t c => s!"table '{t}' declares column '{c}' twice"
  | integerWidth t c w => s!"column '{c}' of table '{t}' has integer width {w}; expected 1, 2, 4, or 8"
  | unknownColumn i c => s!"index '{i}' references unknown column '{c}'"
  | secondPrimary t => s!"table '{t}' declares more than one primary index"
  | noPrimary t => s!"table '{t}' has no primary index"

/-- What a call of the library fails with. -/
inductive Error
  | engine (status : Status)
  | misuse (cause : Misuse)
  | unsupportedType (type : ColumnType)
  | coercion (column : String) (cause : Rejection)
  | unknownIndex (table index : String)
  | invalidArgument (cause : DeclarationFault)
  deriving DecidableEq, Inhabited

namespace Error

def message : Error → String
  | engine s => s!"engine: {s.message}"
  | misuse c => s!"resource misuse: {c.message}"
  | unsupportedType t => s!"unsupported column type: {t.name}"
  | coercion c r => s!"cannot coerce value for column '{c}': {r.message}"
  | unknownIndex t i => s!"table '{t}' has no secondary index '{i}'"
  | invalidArgument c => s!"invalid argument: {c.message}"

def status? : Error → Option Status
  | engine s => some s
  | _ => none

/-- Whether a primary or unique key was there already. -/
def isDuplicateKey (e : Error) : Bool := e.status? == some .duplicateKey

end Error
end RowStore
