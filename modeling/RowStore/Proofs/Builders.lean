import RowStore.Proofs.BuiltSchema
import RowStore.Schema.Builder

/-!
# What a builder accepts and keeps

A builder that has taken some calls holds the columns in their places, and for each index name what all its calls say
together (`SchemaBuilder.run_eq`), by one step for each call.  So it builds what the whole declaration builds
(`build_run`), and that is a schema just if the calls are sound (`DeclarationCall.Sound`); the schema then keeps all
that the calls say (`DeclarationCall.Kept`).
-/
namespace RowStore

/-! ## Calls and declarations -/

namespace DeclarationCall

def column? : DeclarationCall → Option ColumnDeclaration
  | .column c => some c
  | .key _ => none

def key? : DeclarationCall → Option KeyDeclaration
  | .column _ => none
  | .key k => some k

/-- The columns that are declared by some calls, in their order. -/
def columns (calls : List DeclarationCall) : List ColumnDeclaration := calls.filterMap column?

/-- The key columns that are declared by some calls, in their order. -/
def keys (calls : List DeclarationCall) : List KeyDeclaration := calls.filterMap key?

theorem columns_append_column (calls : List DeclarationCall) (c : ColumnDeclaration) :
    columns (calls ++ [.column c]) = columns calls ++ [c] := by
  unfold columns
  rw [List.filterMap_append]
  rfl

theorem columns_append_key (calls : List DeclarationCall) (k : KeyDeclaration) :
    columns (calls ++ [.key k]) = columns calls := by
  unfold columns
  rw [List.filterMap_append]
  exact List.append_nil _

theorem keys_append_column (calls : List DeclarationCall) (c : ColumnDeclaration) :
    keys (calls ++ [.column c]) = keys calls := by
  unfold keys
  rw [List.filterMap_append]
  exact List.append_nil _

theorem keys_append_key (calls : List DeclarationCall) (k : KeyDeclaration) :
    keys (calls ++ [.key k]) = keys calls ++ [k] := by
  unfold keys
  rw [List.filterMap_append]
  rfl

/-- All that is declared by some calls. -/
def declaration (name : String) (calls : List DeclarationCall) : Declaration := ⟨name, columns calls, keys calls⟩

end DeclarationCall

/-- What some key declarations say of the index of a name. -/
def PendingIndex.of (keys : List KeyDeclaration) (name : String) : PendingIndex :=
  let own := keys.filter fun k => k.index == name
  ⟨name, own.map (·.column), own.any (·.primary), own.any (·.unique)⟩

namespace PendingIndex

variable {keys : List KeyDeclaration} {k : KeyDeclaration}

/-- A key declaration adds to the index of its name. -/
theorem of_append_self (keys : List KeyDeclaration) (k : KeyDeclaration) : of (keys ++ [k]) k.index =
    ⟨k.index, (of keys k.index).columns ++ [k.column], (of keys k.index).primary || k.primary,
      (of keys k.index).unique || k.unique⟩ := by
  simp [of]

theorem of_append_of_ne {name : String} (h : name ≠ k.index) : of (keys ++ [k]) name = of keys name := by
  have hne : (k.index == name) = false := beq_eq_false_iff_ne.2 (Ne.symm h)
  simp [of, hne]

/-- An index of which nothing has been declared is opened. -/
theorem of_append_new (h : ∀ other ∈ keys, other.index ≠ k.index) :
    of (keys ++ [k]) k.index = ⟨k.index, [k.column], k.primary, k.unique⟩ := by
  have hnone : keys.filter (fun other => other.index == k.index) = [] :=
    List.filter_eq_nil_iff.2 fun other hother => by simpa using h other hother
  simp [of, hnone]

/-- **Merging a key column keeps for each index what has been declared of it.** -/
theorem merge_map_of : ∀ {names : List String}, names.Nodup →
    (k.index ∈ names ∨ ∀ other ∈ keys, other.index ≠ k.index) →
      merge k (names.map (of keys)) =
        (if k.index ∈ names then names else names ++ [k.index]).map (of (keys ++ [k]))
  | [], _, h => by
    have hnew := of_append_new (h.resolve_left List.not_mem_nil)
    simp [merge, hnew]
  | name :: names, hnodup, h => by
    obtain ⟨hname, hnodup⟩ := List.nodup_cons.1 hnodup
    rw [List.map_cons]
    unfold merge
    by_cases heq : name = k.index
    · -- the other names are of other indexes
      have hrest : names.map (of (keys ++ [k])) = names.map (of keys) :=
        List.map_congr_left fun other hother => of_append_of_ne fun h => hname (by rwa [heq, ← h])
      have hself : (of keys name).name = k.index := heq
      rw [if_pos hself, if_pos (heq ▸ List.mem_cons_self), List.map_cons, hrest, heq, of_append_self]
      rfl
    · have hself : ¬(of keys name).name = k.index := heq
      have hih := merge_map_of hnodup (h.imp_left fun h => (List.mem_cons.1 h).resolve_left (Ne.symm heq))
      have hmem : k.index ∈ name :: names ↔ k.index ∈ names := by simp [Ne.symm heq]
      have hother : of (keys ++ [k]) name = of keys name := of_append_of_ne heq
      rw [if_neg hself, hih, ← hother]
      by_cases hin : k.index ∈ names
      · rw [if_pos hin, if_pos (hmem.2 hin), List.map_cons]
      · rw [if_neg hin, if_neg fun h => hin (hmem.1 h), List.cons_append, List.map_cons]

end PendingIndex

namespace Declaration

/-- A column that is declared last has the last place. -/
theorem placedColumns_append (name : String) (columns : List ColumnDeclaration) (c : ColumnDeclaration)
    (keys : List KeyDeclaration) : (Declaration.mk name (columns ++ [c]) keys).placedColumns =
      (Declaration.mk name columns keys).placedColumns ++ [⟨c.name, c.type, c.length, c.attributes,
        (Declaration.mk name columns keys).placedColumns.length⟩] := by
  simp [placedColumns, List.zipIdx_append]

theorem indexNames_append (name : String) (columns : List ColumnDeclaration) (keys : List KeyDeclaration)
    (k : KeyDeclaration) : (Declaration.mk name columns (keys ++ [k])).indexNames =
      if k.index ∈ (Declaration.mk name columns keys).indexNames then (Declaration.mk name columns keys).indexNames
      else (Declaration.mk name columns keys).indexNames ++ [k.index] := by
  unfold indexNames
  rw [List.foldl_append, List.foldl_cons, List.foldl_nil]
  simp only [List.contains_iff_mem]

theorem mem_indexNames {d : Declaration} {name : String} :
    name ∈ d.indexNames ↔ ∃ k ∈ d.keys, k.index = name := by
  obtain ⟨table, columns, keys⟩ := d
  induction keys using List.reverseRecOn with
  | nil => simp [indexNames]
  | append_singleton keys k ih =>
    rw [indexNames_append]
    dsimp only at ih ⊢
    have hlast : (∃ other ∈ keys ++ [k], other.index = name) ↔
        (∃ other ∈ keys, other.index = name) ∨ k.index = name := by
      simp [or_and_right, exists_or]
    rw [hlast, ← ih]
    by_cases hin : k.index ∈ (Declaration.mk table columns keys).indexNames
    · rw [if_pos hin]
      exact ⟨Or.inl, fun h => h.elim id fun h => h ▸ hin⟩
    · rw [if_neg hin, List.mem_append, List.mem_singleton, eq_comm (a := name)]

end Declaration

namespace SchemaBuilder

/-! ## Call by call -/

/-- **What a builder holds after some calls.** -/
theorem run_eq (name : String) (calls : List DeclarationCall) : run name calls =
    ⟨name, (DeclarationCall.declaration name calls).placedColumns,
      (DeclarationCall.declaration name calls).indexNames.map (PendingIndex.of (DeclarationCall.keys calls))⟩ := by
  induction calls using List.reverseRecOn with
  | nil => rfl
  | append_singleton calls last ih =>
    have hstep : run name (calls ++ [last]) = (run name calls).call last := by
      unfold run
      rw [List.foldl_append]
      rfl
    rw [hstep, ih]
    unfold DeclarationCall.declaration
    cases last with
    | column c =>
      rw [DeclarationCall.columns_append_column, DeclarationCall.keys_append_column, Declaration.placedColumns_append]
      rfl
    | key k =>
      rw [DeclarationCall.columns_append_key, DeclarationCall.keys_append_key, Declaration.indexNames_append,
        ← PendingIndex.merge_map_of (Declaration.nodup_indexNames _) ?_]
      · rfl
      · refine Classical.or_iff_not_imp_left.2 fun hin other hother heq => hin ?_
        exact Declaration.mem_indexNames.2 ⟨other, hother, heq⟩

theorem resolve_of (d : Declaration) (columns : List Column) (name : String) :
    resolve columns (PendingIndex.of d.keys name) = d.index columns name := by
  unfold resolve Declaration.index PendingIndex.of
  dsimp only
  rw [List.mapM_map]
  rfl

theorem collect_of (d : Declaration) (b : SchemaBuilder) (hname : b.name = d.name) :
    ∀ (names : List String) (primary : Option Index) (secondary : List Index),
      b.collect (names.map (PendingIndex.of d.keys)) primary secondary = d.collect b.columns names primary secondary
  | [], _, _ => rfl
  | name :: names, primary, secondary => by
    rw [List.map_cons]
    unfold collect Declaration.collect
    rw [resolve_of, hname]
    congr 1
    funext index
    split
    · split
      · rfl
      · exact collect_of d b hname names _ _
    · exact collect_of d b hname names _ _

/-- **A builder builds what all its calls declare.** -/
theorem build_run (name : String) (calls : List DeclarationCall) :
    (run name calls).build = (DeclarationCall.declaration name calls).build := by
  rw [run_eq]
  unfold build Declaration.build
  dsimp only
  rw [← collect_of (DeclarationCall.declaration name calls) ⟨name, _, _⟩ rfl]
  rfl

end SchemaBuilder

/-! ## What is accepted -/

namespace Declaration

variable {d : Declaration} {columns : List Column}

theorem index_error {name : String} {e : Error} (h : d.index columns name = .error e) :
    ∃ cause, e = .invalidArgument cause := by
  unfold Declaration.index at h
  rcases bind_error_iff.1 h with hkeys | ⟨keyColumns, -, h⟩
  · obtain ⟨k, -, hk⟩ := exists_of_mapM_error hkeys
    split at hk
    · cases hk
    · cases hk
      exact ⟨_, rfl⟩
  · cases h

theorem collect_error {e : Error} : ∀ {names : List String} {primary : Option Index} {secondary : List Index},
    d.collect columns names primary secondary = .error e → ∃ cause, e = .invalidArgument cause
  | [], _, _, h => by cases h
  | name :: names, primary, secondary, h => by
    unfold collect at h
    rcases bind_error_iff.1 h with hindex | ⟨index, -, h⟩
    · exact index_error hindex
    split at h
    · split at h
      · cases h
        exact ⟨_, rfl⟩
      · exact collect_error h
    · exact collect_error h

/-- **Whatever fails is a fault of the declaration.** -/
theorem build_error {e : Error} (h : d.build = .error e) : ∃ cause, e = .invalidArgument cause := by
  rw [build_eq] at h
  split at h
  · cases h
    exact ⟨_, rfl⟩
  split at h
  · cases h
    exact ⟨_, rfl⟩
  split at h
  · rename_i hcollect
    cases h
    exact collect_error hcollect
  · cases h
    exact ⟨_, rfl⟩
  · cases h

/-! ## The indexes of all names -/

/-- Whatever is said of columns without their places is said of their declarations. -/
theorem map_placedColumns {β : Type} (d : Declaration) {f : Column → β} {g : ColumnDeclaration → β}
    (h : ∀ c i, f ⟨c.name, c.type, c.length, c.attributes, i⟩ = g c) : d.placedColumns.map f = d.columns.map g := by
  unfold placedColumns
  rw [List.map_map]
  conv_rhs => rw [← List.zipIdx_map_fst 0 d.columns, List.map_map]
  exact List.map_congr_left fun x _ => h x.1 x.2

/-- There is an index of a name just if there are the columns that its keys name. -/
theorem exists_isIndex_iff {name : String} : (∃ index, d.IsIndex columns name index) ↔
    ∀ k ∈ d.keys, k.index = name → ∃ c ∈ columns, c.name = k.column := by
  have hfound : ∀ k : KeyDeclaration, (∃ c, columns.find? (fun c => c.name == k.column) = some c) ↔
      ∃ c ∈ columns, c.name = k.column := fun k => by
    rw [← Option.isSome_iff_exists, List.find?_isSome]
    simp only [beq_iff_eq]
  have hkeys : (∃ index, d.index columns name = .ok index) ↔
      ∀ k ∈ d.keys.filter fun k => k.index == name, ∃ c ∈ columns, c.name = k.column := by
    simp only [← hfound, ← @keyColumn_ok_iff _ name]
    rw [← exists_mapM_ok_iff]
    unfold Declaration.index
    simp only [bind_ok_iff]
    constructor
    · rintro ⟨_, keyColumns, hkeyColumns, -⟩
      exact ⟨keyColumns, hkeyColumns⟩
    · rintro ⟨keyColumns, hkeyColumns⟩
      exact ⟨_, keyColumns, hkeyColumns, rfl⟩
  simp only [← index_ok_iff, hkeys, List.mem_filter, beq_iff_eq, and_imp]

/-- The primary indexes of some names are those of the names with a primary key. -/
theorem map_name_filter_primary : ∀ {names : List String} {l : List Index}, List.Forall₂ (d.IsIndex columns) names l →
    (l.filter (·.primary)).map (·.name) = names.filter fun name => d.keys.any fun k => k.index == name && k.primary
  | _, _, .nil => rfl
  | _, _, .cons (a := name) (b := index) hindex hl => by
    have hflag : index.primary = d.keys.any fun k => k.index == name && k.primary := by
      rw [Bool.eq_iff_iff, hindex.primary]
      simp
    rw [List.filter_cons, List.filter_cons, ← hflag]
    split
    · rw [List.map_cons, map_name_filter_primary hl, hindex.named]
    · exact map_name_filter_primary hl

end Declaration

theorem exists_eq_singleton_iff {α : Type} {l : List α} (h : l.Nodup) : (∃ a, l = [a]) ↔ ∃! a, a ∈ l := by
  constructor
  · rintro ⟨a, rfl⟩
    exact ⟨a, List.mem_singleton_self a, fun b hb => List.mem_singleton.1 hb⟩
  · rintro ⟨a, ha, honly⟩
    match l, h with
    | [b], _ => exact ⟨b, rfl⟩
    | b :: c :: _, h =>
      have hbc : b = c := (honly b (by simp)).trans (honly c (by simp)).symm
      simp [hbc] at h

/-- Where names are distinct, a search by name finds what has that name. -/
theorem find?_name_eq_some_iff {α : Type} {name : α → String} {l : List α} {n : String} {a : α}
    (h : (l.map name).Nodup) : l.find? (fun x => name x == n) = some a ↔ a ∈ l ∧ name a = n := by
  constructor
  · exact fun ha => ⟨List.mem_of_find?_eq_some ha, by simpa using List.find?_some ha⟩
  · rintro ⟨ha, rfl⟩
    cases hfind : l.find? fun x => name x == name a with
    | none => simpa using List.find?_eq_none.1 hfind a ha
    | some b =>
      have hb : name b = name a := by simpa using List.find?_some hfind
      exact congrArg some (List.inj_on_of_nodup_map h (List.mem_of_find?_eq_some hfind) ha hb)

namespace DeclarationCall

variable {name : String} {calls : List DeclarationCall} {schema : TableSchema}

theorem mem_columns {c : ColumnDeclaration} : c ∈ columns calls ↔ .column c ∈ calls := by
  unfold columns
  rw [List.mem_filterMap]
  constructor
  · rintro ⟨call, hcall, h⟩
    cases call <;> cases h
    exact hcall
  · exact fun h => ⟨_, h, rfl⟩

theorem mem_keys {k : KeyDeclaration} : k ∈ keys calls ↔ .key k ∈ calls := by
  unfold keys
  rw [List.mem_filterMap]
  constructor
  · rintro ⟨call, hcall, h⟩
    cases call <;> cases h
    exact hcall
  · exact fun h => ⟨_, h, rfl⟩

/-- **The calls that make a schema.** -/
structure Sound (calls : List DeclarationCall) : Prop where
  hasColumn : ∃ c, .column c ∈ calls
  distinct : ((columns calls).map (·.name)).Nodup
  widths : ∀ c, .column c ∈ calls → c.type = .int → c.length ∈ [1, 2, 4, 8]
  declared : ∀ k, .key k ∈ calls → ∃ c, .column c ∈ calls ∧ c.name = k.column
  onePrimary : ∃! index, ∃ k, .key k ∈ calls ∧ k.index = index ∧ k.primary = true

/-- What a schema keeps of the calls for one of its indexes: the table's own columns, in the order of the calls, and
each flag that one of them has set. -/
structure KeptIndex (calls : List DeclarationCall) (schema : TableSchema) (index : Index) : Prop where
  columns : List.Forall₂ (fun k c => c ∈ schema.columns ∧ c.name = k.column)
    ((keys calls).filter fun k => k.index == index.name) index.columns
  primary : index.primary = true ↔ ∃ k, .key k ∈ calls ∧ k.index = index.name ∧ k.primary = true
  unique : index.unique = true ↔
    ∃ k, .key k ∈ calls ∧ k.index = index.name ∧ (k.unique = true ∨ k.primary = true)

/-- **What a schema keeps of the calls that made it.** -/
structure Kept (name : String) (calls : List DeclarationCall) (schema : TableSchema) : Prop where
  named : schema.name = name
  size : schema.columns.length = (columns calls).length
  columns : ∀ (i : Nat) (c : ColumnDeclaration), (columns calls)[i]? = some c →
    schema.columns[i]? = some ⟨c.name, c.type, c.length, c.attributes, i⟩
  /-- There is one index for each name. -/
  distinct : ((schema.primary :: schema.secondary).map (·.name)).Nodup
  names : ∀ n, n ∈ (schema.primary :: schema.secondary).map (·.name) ↔ ∃ k, .key k ∈ calls ∧ k.index = n
  indexes : ∀ index ∈ schema.primary :: schema.secondary, KeptIndex calls schema index
  primary : schema.primary.primary = true
  secondary : ∀ index ∈ schema.secondary, index.primary = false
  ordered : schema.secondary.Pairwise fun a b => compare a.name b.name = .lt
  column? : ∀ n c, schema.column? n = some c ↔ c ∈ schema.columns ∧ c.name = n
  secondary? : ∀ n index, schema.secondary? n = some index ↔ index ∈ schema.secondary ∧ index.name = n

/-- There are indexes of all names, one of them primary, just if the keys name columns and one index is primary. -/
theorem exists_indexes_iff (name : String) (calls : List DeclarationCall) :
    (∃ l primary, List.Forall₂ ((declaration name calls).IsIndex (declaration name calls).placedColumns)
      (declaration name calls).indexNames l ∧ l.filter (·.primary) = [primary]) ↔
      (∀ k, .key k ∈ calls → ∃ c, .column c ∈ calls ∧ c.name = k.column) ∧
        ∃! index, ∃ k, .key k ∈ calls ∧ k.index = index ∧ k.primary = true := by
  have hcolumns : ∀ n, (∃ c ∈ (declaration name calls).placedColumns, c.name = n) ↔
      ∃ c, .column c ∈ calls ∧ c.name = n := fun n => by
    have hnames := (declaration name calls).map_placedColumns (f := (·.name)) (g := (·.name)) fun _ _ => rfl
    rw [← List.mem_map, hnames, List.mem_map]
    simp only [declaration, mem_columns]
  have hindexes : (∃ l, List.Forall₂ ((declaration name calls).IsIndex (declaration name calls).placedColumns)
      (declaration name calls).indexNames l) ↔ ∀ k, .key k ∈ calls → ∃ c, .column c ∈ calls ∧ c.name = k.column := by
    simp only [← Declaration.mapM_index_ok_iff, exists_mapM_ok_iff]
    simp only [Declaration.index_ok_iff, Declaration.exists_isIndex_iff, hcolumns, Declaration.mem_indexNames]
    constructor
    · exact fun h k hk => h k.index ⟨k, mem_keys.2 hk, rfl⟩ k (mem_keys.2 hk) rfl
    · exact fun h _ _ k hk _ => h k (mem_keys.1 hk)
  have hprimary : ∀ {l}, List.Forall₂ ((declaration name calls).IsIndex (declaration name calls).placedColumns)
      (declaration name calls).indexNames l → ((∃ primary, l.filter (·.primary) = [primary]) ↔
        ∃! index, ∃ k, .key k ∈ calls ∧ k.index = index ∧ k.primary = true) := by
    intro l hl
    have hmem : ∀ n, n ∈ ((declaration name calls).indexNames.filter fun name' =>
        (declaration name calls).keys.any fun k => k.index == name' && k.primary) ↔
          ∃ k, .key k ∈ calls ∧ k.index = n ∧ k.primary = true := fun n => by
      rw [List.mem_filter, Declaration.mem_indexNames]
      simp only [declaration, List.any_eq_true, mem_keys, Bool.and_eq_true, beq_iff_eq]
      exact and_iff_right_of_imp fun ⟨k, hk, hname, _⟩ => ⟨k, hk, hname⟩
    have hone : (∃ n, (l.filter (·.primary)).map (·.name) = [n]) ↔
        ∃! index, ∃ k, .key k ∈ calls ∧ k.index = index ∧ k.primary = true := by
      rw [Declaration.map_name_filter_primary hl, exists_eq_singleton_iff (Declaration.nodup_indexNames _ |>.filter _)]
      simp only [hmem]
    rw [← hone]
    simp only [List.map_eq_singleton_iff]
    constructor
    · rintro ⟨primary, h⟩
      exact ⟨primary.name, primary, h, rfl⟩
    · rintro ⟨-, primary, h, -⟩
      exact ⟨primary, h⟩
  constructor
  · rintro ⟨l, primary, hl, h⟩
    exact ⟨hindexes.1 ⟨l, hl⟩, (hprimary hl).1 ⟨primary, h⟩⟩
  · rintro ⟨hdeclared, hone⟩
    obtain ⟨l, hl⟩ := hindexes.2 hdeclared
    obtain ⟨primary, h⟩ := (hprimary hl).2 hone
    exact ⟨l, primary, hl, h⟩

/-- **A declaration makes a schema just if its calls are sound.** -/
theorem exists_build_iff : (∃ schema, (declaration name calls).build = .ok schema) ↔ Sound calls := by
  have hempty : (declaration name calls).placedColumns ≠ [] ↔ ∃ c, .column c ∈ calls := by
    rw [← List.length_pos_iff, Declaration.placedColumns, List.length_map, List.length_zipIdx,
      List.length_pos_iff_exists_mem]
    simp only [declaration, mem_columns]
  have hwidths : (∀ c ∈ (declaration name calls).placedColumns, c.type = .int → c.length ∈ [1, 2, 4, 8]) ↔
      ∀ c, .column c ∈ calls → c.type = .int → c.length ∈ [1, 2, 4, 8] := by
    have hmap := (declaration name calls).map_placedColumns (f := fun c => (c.type, c.length))
      (g := fun c => (c.type, c.length)) fun _ _ => rfl
    have hforall := congrArg (fun l => ∀ x ∈ l, x.1 = ColumnType.int → x.2 ∈ [1, 2, 4, 8]) hmap
    simpa only [List.forall_mem_map, declaration, mem_columns, eq_iff_iff] using hforall
  have hfault : Declaration.columnFault? name [] (declaration name calls).placedColumns = none ↔
      ((columns calls).map (·.name)).Nodup ∧ ∀ c, .column c ∈ calls → c.type = .int → c.length ∈ [1, 2, 4, 8] := by
    have hnames := (declaration name calls).map_placedColumns (f := (·.name)) (g := (·.name)) fun _ _ => rfl
    rw [Declaration.columnFault?_eq_none_iff, hnames, hwidths]
    simp only [List.not_mem_nil, not_false_iff, implies_true, true_and]
    rfl
  have hindexes := exists_indexes_iff name calls
  constructor
  · rintro ⟨schema, h⟩
    obtain ⟨hcolumn, hnofault, l, primary, hl, hprimary, -⟩ := Declaration.build_ok_iff.1 h
    obtain ⟨hdistinct, hwidth⟩ := hfault.1 hnofault
    obtain ⟨hdeclared, hone⟩ := hindexes.1 ⟨l, primary, hl, hprimary⟩
    exact ⟨hempty.1 hcolumn, hdistinct, hwidth, hdeclared, hone⟩
  · rintro ⟨hcolumn, hdistinct, hwidth, hdeclared, hone⟩
    obtain ⟨l, primary, hl, hprimary⟩ := hindexes.2 ⟨hdeclared, hone⟩
    exact ⟨_, Declaration.build_ok_iff.2
      ⟨hempty.2 hcolumn, hfault.2 ⟨hdistinct, hwidth⟩, l, primary, hl, hprimary, rfl⟩⟩

theorem keptIndex_of_isIndex {index : Index} (hcolumns : schema.columns = (declaration name calls).placedColumns)
    (h : (declaration name calls).IsIndex (declaration name calls).placedColumns index.name index) :
    KeptIndex calls schema index where
  columns := h.keyed.imp fun k c hfind => by
    refine ⟨hcolumns ▸ List.mem_of_find?_eq_some hfind, ?_⟩
    simpa using List.find?_some hfind
  primary := by
    rw [h.primary]
    simp only [declaration, mem_keys]
  unique := by
    rw [h.unique]
    simp only [declaration, mem_keys]

/-- **A schema keeps what the calls say that have made it.** -/
theorem kept_of_build (h : (declaration name calls).build = .ok schema) : Kept name calls schema := by
  have hsound := TableSchema.wellFormed_of_build h
  obtain ⟨-, -, l, primary, hl, hprimary, rfl⟩ := Declaration.build_ok_iff.1 h
  -- the primary index and the others are all the indexes, in another order
  have hperm : (primary ::
      (l.filter fun i => !i.primary).mergeSort fun a b => (compare a.name b.name).isLE).Perm l := by
    refine ((List.mergeSort_perm _ _).cons primary).trans ?_
    have hall := List.filter_append_perm (fun i : Index => i.primary) l
    rwa [hprimary] at hall
  have hnames := (hperm.map (·.name)).trans (List.Perm.of_eq (Declaration.map_name_of_isIndex hl))
  have hdistinct := hnames.nodup_iff.2 (Declaration.nodup_indexNames _)
  have hmem : primary ∈ l.filter (·.primary) := hprimary ▸ List.mem_singleton_self primary
  refine ⟨rfl, ?_, fun i c hc => ?_, hdistinct, fun n => ?_, fun index hindex => ?_, (List.mem_filter.1 hmem).2,
    fun index hindex => ?_, hsound.indexNames, fun n c => find?_name_eq_some_iff hsound.columnNames,
    fun n index => find?_name_eq_some_iff (List.nodup_cons.1 hdistinct).2⟩
  · show (declaration name calls).placedColumns.length = _
    rw [Declaration.placedColumns, List.length_map, List.length_zipIdx]
    rfl
  · show (declaration name calls).placedColumns[i]? = _
    have hc : (declaration name calls).columns[i]? = some c := hc
    simp [Declaration.placedColumns, hc]
  · rw [hnames.mem_iff, Declaration.mem_indexNames]
    simp only [declaration, mem_keys]
  · exact keptIndex_of_isIndex rfl (Declaration.isIndex_of_mem hl (hperm.mem_iff.1 hindex))
  · have hother := (List.mem_filter.1 (List.mem_mergeSort.1 hindex)).2
    simpa using hother

end DeclarationCall

/-- **A builder accepts exactly the sound declarations and keeps them faithfully**, call by call or all at once. -/
theorem SchemaBuilder.builds_what_is_declared (name : String) (calls : List DeclarationCall) :
    (run name calls).build = (DeclarationCall.declaration name calls).build ∧
    ((∃ schema, (run name calls).build = .ok schema) ↔ DeclarationCall.Sound calls) ∧
    (∀ e, (run name calls).build = .error e → ∃ cause, e = .invalidArgument cause) ∧
    ∀ schema, (run name calls).build = .ok schema → DeclarationCall.Kept name calls schema := by
  have hbuild := build_run name calls
  refine ⟨hbuild, ?_, fun e he => Declaration.build_error (hbuild ▸ he), fun schema hschema => ?_⟩
  · rw [hbuild]
    exact DeclarationCall.exists_build_iff
  · exact DeclarationCall.kept_of_build (hbuild ▸ hschema)

end RowStore
