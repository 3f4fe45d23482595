import RowStore.Engine
import RowStore.Memory.OrderedMap

/-!
# Seeking and stepping

How a cursor finds its place among the entries of an index.  A search key may be shorter than the entries; then only
their leading cells count, and the entries that agree with it stand together, right behind the key itself.  A step goes
to the nearest entry beyond a place, and the place need not be an entry any more.
-/
namespace RowStore
namespace OrderedMap
variable {β : Type}

/-- The entry that a search with a key and a comparison stops at. -/
def seek (m : OrderedMap Key β) (key : Key) : SearchMode → Option Key
  | .greaterOrEqual => (m.atOrAfter key).head?.map (·.1)
  | .greater => ((m.atOrAfter key).find? fun e => Key.orderLeading e.1 key == .gt).map (·.1)
  | .less => (m.before key).getLast?.map (·.1)
  | .lessOrEqual =>
    (((m.atOrAfter key).takeWhile fun e => Key.orderLeading e.1 key == .eq).getLast?.or (m.before key).getLast?).map (·.1)

/-- The nearest entry strictly beyond a place. -/
def step (m : OrderedMap Key β) (place : Key) : Direction → Option Key
  | .asc => (m.after place).head?.map (·.1)
  | .desc => (m.before place).getLast?.map (·.1)

end OrderedMap
end RowStore
