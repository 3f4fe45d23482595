import RowStore.Proofs.IndexView
import RowStore.Proofs.StoredRows
import RowStore.Scan.Plan

/-!
# The rows that a scan is to meet

The reference for scans.  The rows of a table are sorted by the columns of an index and those of the primary key
(`ordered`); a scan starts at the least or the greatest row whose leading cells compare with the key as the mode wants
(`start?`), goes on from there in its direction (`met`), stops before the first row that fails the continuation, and hands
out those that pass the selection (`Plan.handedOut`).  In memory a search stops at the entry of the first row that is met,
and the walk then has the entries of the others before it (`remaining_walk`).
-/
namespace RowStore

open Memory (project entryColumns indexColumns)

/-! ## The reference -/

/-- Rows in the order of some columns. -/
def ordered (columns : List Column) (rows : List (List Cell)) : List (List Cell) :=
  rows.mergeSort fun a b => (Key.order (project columns a) (project columns b)).isLE

/-- The row at which a search with a key starts: the first one, from the end of the order that the mode searches from,
whose leading cells compare with the key as the mode wants. -/
def start? (columns : List Column) (key : Key) (mode : SearchMode) (rows : List (List Cell)) : Option (List Cell) :=
  (mode.candidates rows).find? fun row => mode.accepts (Key.order ((project columns row).take key.length) key)

/-- The rows from a certain one on. -/
def onward (start : List Cell) (rows : List (List Cell)) : Direction → List (List Cell)
  | .asc => rows.dropWhile fun row => row != start
  | .desc => rows.reverse.dropWhile fun row => row != start

theorem onward_of_append {start : List Cell} {before after : List (List Cell)}
    (h : (before ++ start :: after).Nodup) (direction : Direction) :
    onward start (before ++ start :: after) direction = start :: direction.beyond before after := by
  rw [List.nodup_middle, List.nodup_cons] at h
  have hother : ∀ row ∈ before ++ after, (row != start) = true := fun row hrow => by
    rw [bne_iff_ne]
    rintro rfl
    exact h.1 hrow
  unfold onward
  cases direction with
  | asc =>
    dsimp only
    rw [List.dropWhile_append_of_pos fun row hrow => hother row (List.mem_append_left _ hrow),
      List.dropWhile_cons_of_neg (by simp)]
    rfl
  | desc =>
    dsimp only
    rw [List.reverse_append, List.reverse_cons, List.append_assoc,
      List.dropWhile_append_of_pos fun row hrow => hother row (List.mem_append_right _ (List.mem_reverse.1 hrow)),
      List.singleton_append, List.dropWhile_cons_of_neg (by simp)]
    rfl

/-- The rows that a walk meets. -/
def met (columns : List Column) (key : Key) (mode : SearchMode) (direction : Direction) (rows : List (List Cell)) :
    List (List Cell) :=
  match start? columns key mode (ordered columns rows) with
  | none => []
  | some start => onward start (ordered columns rows) direction

theorem exists_perm_met (columns : List Column) (key : Key) (mode : SearchMode) (direction : Direction)
    (rows : List (List Cell)) : ∃ l, l.Perm rows ∧ (met columns key mode direction rows).Sublist l := by
  have hperm : (ordered columns rows).Perm rows := List.mergeSort_perm _ _
  unfold met
  cases start? columns key mode (ordered columns rows) with
  | none => exact ⟨rows, List.Perm.refl _, List.nil_sublist _⟩
  | some start =>
    cases direction with
    | asc => exact ⟨_, hperm, List.dropWhile_sublist _⟩
    | desc => exact ⟨_, (List.reverse_perm _).trans hperm, List.dropWhile_sublist _⟩

namespace Plan

/-- Of the rows met, those before the first that fails the continuation; all, if there is none. -/
def cut (plan : Plan) (rows : List (List Cell)) : List (List Cell) :=
  match plan.continuation with
  | none => rows
  | some holds => rows.takeWhile fun cells => holds (plan.target.schema.rowOf cells)

/-- Of the rows met, those that are handed out: all before the first that fails the continuation, if they pass the
selection. -/
def keep (plan : Plan) (rows : List (List Cell)) : List (List Cell) :=
  match plan.selection with
  | none => plan.cut rows
  | some passes => (plan.cut rows).filter fun cells => passes (plan.target.schema.rowOf cells)

/-- The stored rows that a scan visits, of those that are in a table. -/
def visited (plan : Plan) (index : Option Index) (key : Key) (rows : List (List Cell)) : List (List Cell) :=
  let mode := match plan.mode with
    | none => .greaterOrEqual
    | some mode => mode
  plan.keep (met (entryColumns plan.target.schema index) key mode plan.direction rows)

theorem cut_eq_takeWhile (plan : Plan) (rows : List (List Cell)) :
    plan.cut rows = rows.takeWhile fun cells => plan.continues (plan.target.schema.rowOf cells) := by
  unfold cut
  cases hcontinuation : plan.continuation with
  | none => exact (List.takeWhile_eq_self_iff.2 fun cells _ => continues_of_none hcontinuation _).symm
  | some holds => simp only [continues_of_some hcontinuation]

/-- **The filters of the reference are those that the scan asks.** -/
theorem keep_eq_filter (plan : Plan) (rows : List (List Cell)) : plan.keep rows =
    (rows.takeWhile fun cells => plan.continues (plan.target.schema.rowOf cells)).filter fun cells =>
      plan.selects (plan.target.schema.rowOf cells) := by
  unfold keep
  rw [← cut_eq_takeWhile]
  cases hselection : plan.selection with
  | none => exact (List.filter_eq_self.2 fun cells _ => selects_of_none hselection _).symm
  | some passes => simp only [selects_of_some hselection]

theorem visited_eq (plan : Plan) (index : Option Index) (key : Key) (rows : List (List Cell)) :
    plan.visited index key rows =
      plan.keep (met (entryColumns plan.target.schema index) key plan.searchMode plan.direction rows) := by
  unfold visited
  cases hmode : plan.mode with
  | none => rw [searchMode_of_none hmode]
  | some mode => rw [searchMode_of_some hmode]

theorem keep_sublist (plan : Plan) (rows : List (List Cell)) : (plan.keep rows).Sublist rows := by
  rw [keep_eq_filter]
  exact List.filter_sublist.trans (List.takeWhile_sublist _)

theorem exists_perm_visited (plan : Plan) (index : Option Index) (key : Key) (rows : List (List Cell)) :
    ∃ l, l.Perm rows ∧ (plan.visited index key rows).Sublist l := by
  rw [visited_eq]
  obtain ⟨l, hperm, hmet⟩ := exists_perm_met (entryColumns plan.target.schema index) key plan.searchMode plan.direction
    rows
  exact ⟨l, hperm, (plan.keep_sublist _).trans hmet⟩

/-- **The rows that a scan is to hand out.** -/
def handedOut (plan : Plan) (index : Option Index) (key : Key) (rows : List (List Cell)) : List Row :=
  (plan.visited index key rows).map plan.target.schema.rowOf

end Plan

/-! ## What is left of a walk -/

namespace OrderedMap

/-- A list is what a walk still has before it: its first entry is in the map, and the others are ahead of it. -/
def Remaining {β : Type} (m : OrderedMap Key β) (direction : Direction) (l : List (Key × β)) : Prop :=
  ∀ e rest, l = e :: rest → e ∈ m.entries ∧ m.ahead e.1 direction = rest

variable {β : Type} {m : OrderedMap Key β} {direction : Direction}

/-- What is ahead of a place is left of a walk, also where the place itself is no entry. -/
theorem remaining_ahead (hm : m.Ascending) {place : Key} {l : List (Key × β)} (h : m.ahead place direction = l) :
    m.Remaining direction l := by
  rintro e rest rfl
  exact ⟨(mem_ahead.1 (h ▸ List.mem_cons_self)).1, ahead_of_ahead_eq_cons hm h⟩

theorem Remaining.tail (hm : m.Ascending) {e : Key × β} {rest : List (Key × β)} (h : m.Remaining direction (e :: rest)) :
    m.Remaining direction rest := by
  exact remaining_ahead hm (h e rest rfl).2

theorem Remaining.step {e : Key × β} {rest : List (Key × β)} (h : m.Remaining direction (e :: rest)) :
    m.step e.1 direction = rest.head?.map (·.1) := by
  rw [step_eq, (h e rest rfl).2]

theorem Remaining.length_le (hm : m.Ascending) {l : List (Key × β)} (h : m.Remaining direction l) :
    l.length ≤ m.size := by
  cases l with
  | nil => exact Nat.zero_le _
  | cons e rest =>
    obtain ⟨he, hrest⟩ := h e rest rfl
    obtain ⟨before, after, hsplit⟩ := List.append_of_mem he
    have hsize : m.size = before.length + (after.length + 1) := by
      unfold size
      rw [hsplit, List.length_append, List.length_cons]
    have hbeyond : (direction.beyond before after).length ≤ before.length + after.length := by
      cases direction <;> simp [Direction.beyond]
    rw [ahead_of_append hm hsplit] at hrest
    rw [← hrest, List.length_cons]
    omega

end OrderedMap

namespace Memory
namespace Table

open Std (TransCmp OrientedCmp)

variable {t : Table} {index : Option Index}

theorem pairwise_values (h : t.Consistent) (index : Option Index) : t.rows.values.Pairwise fun a b =>
    Key.order (project (entryColumns t.schema index) a) (project (entryColumns t.schema index) b) ≠ .eq := by
  unfold OrderedMap.values
  have hkeyed : t.rows.entries.Pairwise fun a b => a ∈ t.rows.entries ∧ b ∈ t.rows.entries :=
    List.pairwise_of_forall_mem_list fun a ha b hb => ⟨ha, hb⟩
  have hascending : t.rows.entries.Pairwise fun a b => compare a.1 b.1 = .lt := h.ascending
  refine List.pairwise_map.2 ((hascending.and hkeyed).imp fun {a b} hab heq => ?_)
  obtain ⟨hlt, ha, hb⟩ := hab
  unfold entryColumns at heq
  rw [project_append, project_append, order_entry, Ordering.then_eq_eq] at heq
  rw [h.keyed a ha, h.keyed b hb, Key.compare_eq, heq.2] at hlt
  cases hlt

/-- **A view is the rows in order**, each under its entry. -/
theorem entries_view (h : t.Consistent) (hindex : ∀ i ∈ index, i ∈ t.schema.secondary) :
    (t.view index).entries = (ordered (entryColumns t.schema index) t.rows.values).map fun row =>
      (project (entryColumns t.schema index) row, row) := by
  have hperm : (ordered (entryColumns t.schema index) t.rows.values).Perm t.rows.values := List.mergeSort_perm _ _
  have hdistinct := (hperm.pairwise_iff fun hne heq => hne (OrientedCmp.eq_symm heq)).2 (pairwise_values h index)
  have htotal : ∀ a b : List Cell, ((Key.order (project (entryColumns t.schema index) a)
      (project (entryColumns t.schema index) b)).isLE || (Key.order (project (entryColumns t.schema index) b)
      (project (entryColumns t.schema index) a)).isLE) = true := by
    intro a b
    rw [show Key.order (project (entryColumns t.schema index) b) (project (entryColumns t.schema index) a) = _ from
      OrientedCmp.eq_swap]
    cases Key.order (project (entryColumns t.schema index) a) (project (entryColumns t.schema index) b) <;> rfl
  have hsorted : (ordered (entryColumns t.schema index) t.rows.values).Pairwise fun a b =>
      (Key.order (project (entryColumns t.schema index) a) (project (entryColumns t.schema index) b)).isLE = true :=
    List.pairwise_mergeSort (fun _ _ _ => TransCmp.isLE_trans) htotal _
  have hascending : OrderedMap.Ascending (⟨(ordered (entryColumns t.schema index) t.rows.values).map fun row =>
      (project (entryColumns t.schema index) row, row)⟩ : OrderedMap Key (List Cell)) := by
    refine List.pairwise_map.2 ((hsorted.and hdistinct).imp fun {a b} hab => ?_)
    rcases Ordering.isLE_iff_eq_lt_or_eq_eq.1 hab.1 with hlt | heq
    · exact hlt
    · exact absurd heq hab.2
  refine congrArg OrderedMap.entries (OrderedMap.ext_of_mem (ascending_view h hindex) hascending fun e => ?_)
  rw [mem_view h hindex, List.mem_map]
  constructor
  · rintro ⟨hkey, r, hr, hre⟩
    refine ⟨e.2, hperm.mem_iff.2 (List.mem_map.2 ⟨r, hr, hre⟩), ?_⟩
    rw [← hkey]
  · rintro ⟨row, hrow, rfl⟩
    obtain ⟨r, hr, hre⟩ := List.mem_map.1 (hperm.mem_iff.1 hrow)
    exact ⟨rfl, r, hr, hre⟩

theorem candidates_map {α β : Type} (f : α → β) (mode : SearchMode) (l : List α) :
    mode.candidates (l.map f) = (mode.candidates l).map f := by
  cases mode <;> simp [SearchMode.candidates, List.map_reverse]

/-- The entries of the rows that a walk is to meet. -/
def walk (t : Table) (index : Option Index) (key : Key) (mode : SearchMode) (direction : Direction) :
    List (Key × List Cell) :=
  (met (entryColumns t.schema index) key mode direction t.rows.values).map fun row =>
    (project (entryColumns t.schema index) row, row)

theorem seek_eq_start? (h : t.Consistent) (hindex : ∀ i ∈ index, i ∈ t.schema.secondary) {key : Key}
    (hkey : key.length ≤ (entryColumns t.schema index).length) (mode : SearchMode) :
    (t.view index).seek key mode = (start? (entryColumns t.schema index) key mode
      (ordered (entryColumns t.schema index) t.rows.values)).map (project (entryColumns t.schema index)) := by
  have hkeys : (t.view index).keys =
      (ordered (entryColumns t.schema index) t.rows.values).map (project (entryColumns t.schema index)) := by
    unfold OrderedMap.keys
    rw [entries_view h hindex, List.map_map]
    rfl
  have hlong : ∀ e ∈ (t.view index).entries, key.length ≤ e.1.length := by
    intro e he
    rw [((mem_view h hindex).1 he).1, length_project]
    exact hkey
  rw [OrderedMap.seek_eq_find? (ascending_view h hindex) hlong, hkeys, candidates_map, List.find?_map]
  unfold start?
  congr 2
  funext row
  rw [Function.comp_apply, Key.orderLeading_eq (by rw [length_project]; exact hkey)]

theorem start?_mem {columns : List Column} {key : Key} {mode : SearchMode} {rows : List (List Cell)} {start : List Cell}
    (h : start? columns key mode rows = some start) : start ∈ rows := by
  have hfound := List.mem_of_find?_eq_some h
  cases mode with
  | greater | greaterOrEqual => exact hfound
  | less | lessOrEqual => exact List.mem_reverse.1 hfound

theorem nodup_ordered (h : t.Consistent) (index : Option Index) :
    (ordered (entryColumns t.schema index) t.rows.values).Nodup := by
  have hperm : (ordered (entryColumns t.schema index) t.rows.values).Perm t.rows.values := List.mergeSort_perm _ _
  refine hperm.nodup_iff.2 ((pairwise_values h index).imp fun hne heq => hne ?_)
  rw [heq]
  exact Std.ReflCmp.compare_self

/-- **What a walk meets is what it has before it.** -/
theorem remaining_walk (key : Key) (h : t.Consistent) (hindex : ∀ i ∈ index, i ∈ t.schema.secondary)
    (hkey : key.length ≤ (entryColumns t.schema index).length) (mode : SearchMode) (direction : Direction) :
    (t.view index).seek key mode = (t.walk index key mode direction).head?.map (·.1) ∧
      (t.view index).Remaining direction (t.walk index key mode direction) := by
  rw [seek_eq_start? h hindex hkey]
  unfold walk met
  cases hstart : start? (entryColumns t.schema index) key mode (ordered (entryColumns t.schema index) t.rows.values) with
  | none => exact ⟨rfl, fun e rest heq => by cases heq⟩
  | some start =>
    obtain ⟨before, after, hsplit⟩ := List.append_of_mem (start?_mem hstart)
    have hentries := entries_view h hindex
    have hnodup := nodup_ordered h index
    rw [hsplit] at hentries hnodup
    rw [List.map_append, List.map_cons] at hentries
    dsimp only
    rw [hsplit, onward_of_append hnodup]
    refine ⟨rfl, fun e rest heq => ?_⟩
    cases heq
    refine ⟨hentries ▸ List.mem_append_right _ List.mem_cons_self, ?_⟩
    rw [OrderedMap.ahead_of_append (ascending_view h hindex) hentries]
    cases direction with
    | asc => rfl
    | desc => exact List.map_reverse.symm

end Table
end Memory
end RowStore
