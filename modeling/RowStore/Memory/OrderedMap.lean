/-!
# Ordered maps

A finite map as the list of its entries in strictly ascending order of their keys.  Keys that compare equal are one key;
the map keeps the one that came first.
-/
namespace RowStore

/-- A finite map with ordered keys. -/
structure OrderedMap (α β : Type) where
  entries : List (α × β) := []
  deriving Inhabited

namespace OrderedMap
variable {α β : Type}

def empty : OrderedMap α β := ⟨[]⟩

def size (m : OrderedMap α β) : Nat := m.entries.length

def keys (m : OrderedMap α β) : List α := m.entries.map (·.1)

def values (m : OrderedMap α β) : List β := m.entries.map (·.2)

variable [Ord α]

/-- The keys ascend strictly: what every map made by `insert` and `erase` satisfies. -/
def Ascending (m : OrderedMap α β) : Prop := m.entries.Pairwise fun a b => compare a.1 b.1 = .lt

def get? (m : OrderedMap α β) (k : α) : Option β :=
  (m.entries.find? fun e => compare e.1 k == .eq).map (·.2)

def contains (m : OrderedMap α β) (k : α) : Bool := (m.get? k).isSome

/-- Puts an entry in its place, or gives the key that is there a new value. -/
def insertEntry (k : α) (v : β) : List (α × β) → List (α × β)
  | [] => [(k, v)]
  | e :: rest =>
    match compare k e.1 with
    | .lt => (k, v) :: e :: rest
    | .eq => (e.1, v) :: rest
    | .gt => e :: insertEntry k v rest

def insert (m : OrderedMap α β) (k : α) (v : β) : OrderedMap α β := ⟨insertEntry k v m.entries⟩

def erase (m : OrderedMap α β) (k : α) : OrderedMap α β := ⟨m.entries.filter fun e => compare e.1 k != .eq⟩

def adjust (m : OrderedMap α β) (k : α) (f : β → β) : OrderedMap α β :=
  ⟨m.entries.map fun e => if compare e.1 k == .eq then (e.1, f e.2) else e⟩

def atOrAfter (m : OrderedMap α β) (k : α) : List (α × β) := m.entries.filter fun e => compare e.1 k != .lt

def before (m : OrderedMap α β) (k : α) : List (α × β) := m.entries.filter fun e => compare e.1 k == .lt

def after (m : OrderedMap α β) (k : α) : List (α × β) := m.entries.filter fun e => compare e.1 k == .gt

end OrderedMap
end RowStore
