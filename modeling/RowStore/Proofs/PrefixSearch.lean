import RowStore.Proofs.CursorSteps
import RowStore.Proofs.SeekLaws

/-!
# What a search finds

A search stops at the nearest entry, from its end of the index, whose leading cells stand to the key as the mode wants
(`OrderedMap.Nearest`), and at none just if there is no such entry.  The entries that begin with a key stand together,
so two searches enclose them (`leading_eq_iff_between`), and the other two find the neighbours of what is enclosed.
-/
namespace RowStore

open Std (TransCmp OrientedCmp)

/-- **In a list that goes onward, the first item to satisfy something is the one that no other such item precedes.** -/
theorem find?_eq_some_iff_first {α : Type} {R : α → α → Prop} {p : α → Bool} {l : List α} {a : α} (hl : l.Pairwise R)
    (hR : ∀ a b, R a b → ¬R b a) : l.find? p = some a ↔ a ∈ l ∧ p a = true ∧ ∀ b ∈ l, p b = true → ¬R b a := by
  -- what satisfies `p` is the item found, or stands behind it
  have hbehind : ∀ {a b}, l.find? p = some a → b ∈ l → p b = true → b = a ∨ R a b := by
    intro a b ha hb hpb
    obtain ⟨-, before, after, rfl, hbefore⟩ := List.find?_eq_some_iff_append.1 ha
    rw [List.pairwise_append, List.pairwise_cons] at hl
    rcases List.mem_append.1 hb with hb | hb
    · have hnot := hbefore b hb
      rw [hpb] at hnot
      cases hnot
    · exact (List.mem_cons.1 hb).imp_right fun hb => hl.2.1.1 b hb
  constructor
  · intro ha
    refine ⟨List.mem_of_find?_eq_some ha, List.find?_some ha, fun b hb hpb hba => ?_⟩
    rcases hbehind ha hb hpb with rfl | hab
    · exact hR b b hba hba
    · exact hR a b hab hba
  · rintro ⟨ha, hpa, hfirst⟩
    cases hfind : l.find? p with
    | none => exact absurd hpa (List.find?_eq_none.1 hfind a ha)
    | some b =>
      rcases hbehind hfind ha hpa with rfl | hba
      · rfl
      · exact absurd hba (hfirst b (List.mem_of_find?_eq_some hfind) (List.find?_some hfind))

/-- How the leading cells of an entry compare with a key, as many as the key has. -/
def Key.leading (entry key : Key) : Ordering := Key.order (entry.take key.length) key

namespace SearchMode

/-- Whether an entry stands to a key as a search wants. -/
def Wants (mode : SearchMode) (key entry : Key) : Prop :=
  match mode with
  | greaterOrEqual => Key.leading entry key ≠ .lt
  | greater => Key.leading entry key = .gt
  | lessOrEqual => Key.leading entry key ≠ .gt
  | less => Key.leading entry key = .lt

/-- Whether a search comes to one entry no later than to another. -/
def NoLater (mode : SearchMode) (a b : Key) : Prop :=
  match mode with
  | greaterOrEqual | greater => Key.order a b ≠ .gt
  | lessOrEqual | less => Key.order b a ≠ .gt

end SearchMode

namespace OrderedMap

variable {β : Type} {m : OrderedMap Key β} {key : Key} {n : Nat}

/-- The entry that a search is to stop at: of those that the mode wants, the least or the greatest. -/
structure Nearest (m : OrderedMap Key β) (key : Key) (mode : SearchMode) (k : Key) : Prop where
  mem : k ∈ m.keys
  wanted : mode.Wants key k
  noLater : ∀ k' ∈ m.keys, mode.Wants key k' → mode.NoLater k k'

theorem wants_iff {mode : SearchMode} {k : Key} (hlong : key.length ≤ k.length) :
    mode.accepts (Key.orderLeading k key) = true ↔ mode.Wants key k := by
  rw [Key.orderLeading_eq hlong]
  cases mode <;> simp [SearchMode.accepts, SearchMode.Wants, Key.leading]

theorem pairwise_keys (hm : m.Ascending) : m.keys.Pairwise fun a b => Key.order a b = .lt := List.pairwise_map.2 hm

/-- **A search stops at the nearest entry that the mode wants.** -/
theorem seek_eq_some_iff (hm : m.Ascending) (hlong : ∀ k ∈ m.keys, key.length ≤ k.length) (mode : SearchMode)
    (k : Key) : m.seek key mode = some k ↔ m.Nearest key mode k := by
  have hentries : ∀ e ∈ m.entries, key.length ≤ e.1.length := fun e he => hlong e.1 (List.mem_map_of_mem he)
  have hnot : ∀ a b : Key, Key.order a b = .lt → ¬Key.order b a = .lt := fun a b hab hba => by
    rw [OrientedCmp.gt_of_lt hab] at hba
    cases hba
  -- the candidates come in the order in which the search tries them
  have hnearest : ∀ {R : Key → Key → Prop}, (mode.candidates m.keys).Pairwise R → (∀ a b, R a b → ¬R b a) →
      (∀ a b, ¬R b a ↔ mode.NoLater a b) → (∀ k, k ∈ mode.candidates m.keys ↔ k ∈ m.keys) →
        (m.seek key mode = some k ↔ m.Nearest key mode k) := by
    intro R hpair hR hlater hmem
    rw [seek_eq_find? hm hentries, find?_eq_some_iff_first hpair hR, hmem]
    constructor
    · rintro ⟨hk, hwanted, hfirst⟩
      refine ⟨hk, (wants_iff (hlong k hk)).1 hwanted, fun k' hk' hwants => ?_⟩
      exact (hlater k k').1 (hfirst k' ((hmem k').2 hk') ((wants_iff (hlong k' hk')).2 hwants))
    · rintro ⟨hk, hwanted, hfirst⟩
      refine ⟨hk, (wants_iff (hlong k hk)).2 hwanted, fun k' hk' hwants => ?_⟩
      have hk' := (hmem k').1 hk'
      exact (hlater k k').2 (hfirst k' hk' ((wants_iff (hlong k' hk')).1 hwants))
  have hpair := pairwise_keys hm
  have hrev : m.keys.reverse.Pairwise fun a b => Key.order b a = .lt := List.pairwise_reverse.2 hpair
  have hlt : ∀ a b : Key, ¬Key.order b a = .lt ↔ Key.order a b ≠ .gt := fun a b => by
    have hgt : Key.order a b = .gt ↔ Key.order b a = .lt := OrientedCmp.gt_iff_lt
    rw [← hgt]
  cases mode with
  | greaterOrEqual | greater => exact hnearest hpair hnot hlt fun _ => Iff.rfl
  | lessOrEqual | less => exact hnearest hrev (fun a b => hnot b a) (fun a b => hlt b a) fun _ => List.mem_reverse

/-- **A search finds nothing just if there is no entry that the mode wants.** -/
theorem seek_eq_none_iff (hm : m.Ascending) (hlong : ∀ k ∈ m.keys, key.length ≤ k.length) (mode : SearchMode) :
    m.seek key mode = none ↔ ∀ k ∈ m.keys, ¬mode.Wants key k := by
  have hmem : ∀ k, k ∈ mode.candidates m.keys ↔ k ∈ m.keys := fun k => by
    cases mode <;> simp [SearchMode.candidates]
  rw [seek_eq_find? hm fun e he => hlong e.1 (List.mem_map_of_mem he), List.find?_eq_none]
  constructor
  · exact fun h k hk hwants => h k ((hmem k).2 hk) ((wants_iff (hlong k hk)).2 hwants)
  · exact fun h k hk hwants => h k ((hmem k).1 hk) ((wants_iff (hlong k ((hmem k).1 hk))).1 hwants)

/-! ## Entries that begin with a key -/

/-- Beginnings of entries never go back along the entries. -/
theorem leading_mono {a b : Key} (hab : Key.order a b ≠ .gt) :
    (Key.order (a.take key.length) (b.take key.length)).isLE := by
  cases hc : Key.order (a.take key.length) (b.take key.length) with
  | gt => exact absurd (by rw [Key.order_take key.length a b (by rw [hc]; simp), hc]) hab
  | lt | eq => rfl

/-- **The entries that begin with a key are those from the first that is not before it to the last that is not after
it.** -/
theorem leading_eq_iff_between (hm : m.Ascending) (hlong : ∀ k ∈ m.keys, key.length ≤ k.length) {k : Key}
    (hk : k ∈ m.keys) : Key.leading k key = .eq ↔ ∃ first last, m.seek key .greaterOrEqual = some first ∧
      m.seek key .lessOrEqual = some last ∧ Key.order first k ≠ .gt ∧ Key.order k last ≠ .gt := by
  have hfound : ∀ mode : SearchMode, mode.Wants key k → ∃ hit, m.seek key mode = some hit ∧ mode.NoLater hit k := by
    intro mode hwants
    cases hseek : m.seek key mode with
    | none => exact absurd hwants ((seek_eq_none_iff hm hlong mode).1 hseek k hk)
    | some hit => exact ⟨hit, rfl, ((seek_eq_some_iff hm hlong mode hit).1 hseek).noLater k hk hwants⟩
  constructor
  · intro heq
    obtain ⟨first, hfirst, hle⟩ := hfound .greaterOrEqual (by simp [SearchMode.Wants, heq])
    obtain ⟨last, hlast, hge⟩ := hfound .lessOrEqual (by simp [SearchMode.Wants, heq])
    exact ⟨first, last, hfirst, hlast, hle, hge⟩
  · rintro ⟨first, last, hfirst, hlast, hle, hge⟩
    have hnlt : Key.leading first key ≠ .lt := ((seek_eq_some_iff hm hlong _ first).1 hfirst).wanted
    have hngt : Key.leading last key ≠ .gt := ((seek_eq_some_iff hm hlong _ last).1 hlast).wanted
    cases hc : Key.leading k key with
    | eq => rfl
    | lt =>
      have hlt : Key.order (k.take key.length) key = .lt := hc
      exact absurd (TransCmp.lt_of_isLE_of_lt (leading_mono hle) hlt) hnlt
    | gt =>
      have hlt : Key.order key (k.take key.length) = .lt := OrientedCmp.lt_of_gt hc
      exact absurd (OrientedCmp.gt_of_lt (TransCmp.lt_of_lt_of_isLE hlt (leading_mono hge))) hngt

/-- **The next entry behind those that are not after a key is the first after it.** -/
theorem seek_greater_eq_step (hm : m.Ascending) (hlong : ∀ k ∈ m.keys, key.length ≤ k.length) {last : Key}
    (hlast : m.seek key .lessOrEqual = some last) : m.seek key .greater = m.step last .asc := by
  obtain ⟨equal, after, hat, hall, htake, heq, hgt⟩ :=
    entries_split key hm fun e he => hlong e.1 (List.mem_map_of_mem he)
  have hgreater : m.seek key .greater = after.head?.map (·.1) := by
    show ((m.atOrAfter key).find? fun e => Key.orderLeading e.1 key == .gt).map (·.1) = _
    rw [hat, find?_append_of_not _ fun e he => by simp [heq e he], find?_eq_head? fun e he => by simp [hgt e he]]
  have hlessOrEqual : m.seek key .lessOrEqual = (m.before key ++ equal).getLast?.map (·.1) := by
    rw [List.getLast?_append, ← htake]
    rfl
  rw [hlessOrEqual] at hlast
  obtain ⟨e, he, rfl⟩ := Option.map_eq_some_iff.1 hlast
  obtain ⟨init, hinit⟩ := List.getLast?_eq_some_iff.1 he
  have hsplit : m.entries = init ++ e :: after := by
    rw [hall, ← List.append_assoc, hinit, List.append_assoc, List.singleton_append]
  rw [hgreater, step_eq, ahead_of_append hm hsplit]
  rfl

/-- **The entry in front of those that are not before a key is the last before it.** -/
theorem seek_less_eq_step (hm : m.Ascending) (hlong : ∀ k ∈ m.keys, key.length ≤ k.length) {first : Key}
    (hfirst : m.seek key .greaterOrEqual = some first) : m.seek key .less = m.step first .desc := by
  obtain ⟨equal, after, hat, hall, -, -, -⟩ := entries_split key hm fun e he => hlong e.1 (List.mem_map_of_mem he)
  obtain ⟨e, he, rfl⟩ := Option.map_eq_some_iff.1 hfirst
  obtain ⟨rest, hrest⟩ := List.head?_eq_some_iff.1 he
  have hsplit : m.entries = m.before key ++ e :: rest := by rw [hall, ← hat, hrest]
  rw [step_eq, ahead_of_append hm hsplit]
  show _ = (m.before key).reverse.head?.map (·.1)
  rw [List.head?_reverse]
  rfl

end OrderedMap

/-! ## Search tuples -/

/-- **A cursor takes no search key that is longer than its entries.** -/
theorem Memory.Cursor.searchTuple_apply (c : Cursor) (key : Key) (db : Database) : searchTuple key (c, db) =
    if c.closed then (.error (.engine .cursorClosed), (c, db))
    else if c.keyColumns.length < key.length then (.error (.engine .dataMismatch), (c, db))
    else (.ok (c.keyTuple key), (c, { db with ledger := db.ledger.tupleCreated })) := by
  have hcheck : searchTuple key (c, db) = (Attempt.ofExcept c.checkOpen >>= fun _ =>
      if c.keyColumns.length < key.length then
        Attempt.fail (.engine .dataMismatch) >>= fun (_ : PUnit) => makeTuple (c.keyTuple key)
      else makeTuple (c.keyTuple key)) (c, db) := rfl
  rw [hcheck, Attempt.bind_apply]
  unfold checkOpen
  cases c.closed with
  | true => rfl
  | false =>
    by_cases hlong : c.keyColumns.length < key.length
    · rw [if_pos hlong, if_pos hlong]
      rfl
    · rw [if_neg hlong, if_neg hlong]
      rfl

namespace OrderedMap

variable {β : Type} {m : OrderedMap Key β} {key : Key} {n : Nat}

/-- **A prefix search meets its specification.**  On entries of one width, and for a key that is no wider, as every key
is that a cursor takes, each search stops at the nearest entry that its mode wants, or at none if there is none.  So the
entries that begin with the key lie between two searches, and the other two find the entries next to those. -/
theorem seek_finds_nearest (hm : m.Ascending) (hwidth : ∀ k ∈ m.keys, k.length = n) (hkey : key.length ≤ n) :
    (∀ mode k, m.seek key mode = some k ↔ m.Nearest key mode k) ∧
    (∀ mode, m.seek key mode = none ↔ ∀ k ∈ m.keys, ¬mode.Wants key k) ∧
    (key = [] → ∀ k ∈ m.keys, Key.leading k key = .eq) ∧
    (∀ k ∈ m.keys, Key.leading k key = .eq ↔ ∃ first last, m.seek key .greaterOrEqual = some first ∧
      m.seek key .lessOrEqual = some last ∧ Key.order first k ≠ .gt ∧ Key.order k last ≠ .gt) ∧
    (∀ last, m.seek key .lessOrEqual = some last → m.seek key .greater = m.step last .asc) ∧
    (∀ first, m.seek key .greaterOrEqual = some first → m.seek key .less = m.step first .desc) ∧
    ∀ (c : Memory.Cursor) (db : Memory.Database) (tuple : Tuple) (there : Memory.Cursor × Memory.Database),
      Memory.Cursor.searchTuple key (c, db) = (.ok tuple, there) →
        tuple.cells = key ∧ key.length ≤ c.keyColumns.length := by
  have hlong : ∀ k ∈ m.keys, key.length ≤ k.length := fun k hk => (hwidth k hk).symm ▸ hkey
  refine ⟨seek_eq_some_iff hm hlong, seek_eq_none_iff hm hlong, ?_, fun _ => leading_eq_iff_between hm hlong,
    fun _ => seek_greater_eq_step hm hlong, fun _ => seek_less_eq_step hm hlong, fun c db tuple there htuple => ?_⟩
  · rintro rfl k -
    rfl
  · rw [Memory.Cursor.searchTuple_apply] at htuple
    split at htuple
    · cases htuple
    split at htuple
    · cases htuple
    · cases htuple
      exact ⟨rfl, by omega⟩

/-- Four entries of two cells, of which two begin with `1`. -/
def pairs : OrderedMap Key Nat :=
  ⟨[([.int 0, .int 2], 0), ([.int 1, .int 0], 1), ([.int 1, .int 2], 2), ([.int 2, .int 0], 3)]⟩

theorem seek_finds_nearest_pairs : pairs.Ascending ∧ (∀ k ∈ pairs.keys, k.length = 2) ∧ [Cell.int 1].length ≤ 2 ∧
    pairs.Nearest [.int 1] .greaterOrEqual [.int 1, .int 0] ∧ pairs.Nearest [.int 1] .greater [.int 2, .int 0] ∧
    pairs.Nearest [.int 1] .lessOrEqual [.int 1, .int 2] ∧ pairs.Nearest [.int 1] .less [.int 0, .int 2] ∧
    pairs.seek [.int 3] .greaterOrEqual = none := by
  have hm : pairs.Ascending := by unfold Ascending; decide
  have hwidth : ∀ k ∈ pairs.keys, k.length = 2 := by decide
  have hbefore : ∀ k ∈ pairs.keys, Key.leading k [.int 3] = .lt := by decide
  have hone : ([.int 1] : Key).length ≤ 2 := by decide
  have hthree : ([.int 3] : Key).length ≤ 2 := by decide
  obtain ⟨hsome, -⟩ := seek_finds_nearest hm hwidth hone
  obtain ⟨-, hnone, -⟩ := seek_finds_nearest hm hwidth hthree
  refine ⟨hm, hwidth, hone, (hsome .greaterOrEqual _).1 (by decide), (hsome .greater _).1 (by decide),
    (hsome .lessOrEqual _).1 (by decide), (hsome .less _).1 (by decide),
    (hnone .greaterOrEqual).2 fun k hk hwants => hwants (hbefore k hk)⟩

end OrderedMap
end RowStore
