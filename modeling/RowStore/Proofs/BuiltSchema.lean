import RowStore.Proofs.Results
import RowStore.Schema.Declaration

/-!
# What a built schema is like

A declaration builds a schema just if there are columns without a fault and an index of every name, one of them primary
(`Declaration.build_ok_iff`).  The schema is well formed (`TableSchema.wellFormed_of_build`): its columns carry their
places as ordinals and have distinct names, its indexes are over its own columns, and its secondary indexes stand in
strictly ascending order of their names, so that each has a name of its own.
-/
namespace RowStore

/-- What whoever uses a schema relies on. -/
structure TableSchema.WellFormed (schema : TableSchema) : Prop where
  ordinal : ∀ i (c : Column), schema.columns[i]? = some c → c.ordinal = i
  columnNames : (schema.columns.map (·.name)).Nodup
  primary : ∀ c ∈ schema.primary.columns, c ∈ schema.columns
  secondary : ∀ index ∈ schema.secondary, ∀ c ∈ index.columns, c ∈ schema.columns
  indexNames : schema.secondary.Pairwise fun a b => compare a.name b.name = .lt

namespace Declaration

variable {d : Declaration} {columns : List Column}

/-! ## Columns -/

theorem ordinal_of_placedColumns (d : Declaration) (i : Nat) (c : Column) (h : d.placedColumns[i]? = some c) :
    c.ordinal = i := by
  unfold placedColumns at h
  rw [List.getElem?_map, List.getElem?_zipIdx] at h
  obtain ⟨x, hx, rfl⟩ := Option.map_eq_some_iff.1 h
  obtain ⟨y, -, rfl⟩ := Option.map_eq_some_iff.1 hx
  simp

/-- **There is no fault among columns just if their names are distinct and new and their integers are of a width that
there is.** -/
theorem columnFault?_eq_none_iff {table : String} : ∀ {columns : List Column} {earlier : List String},
    columnFault? table earlier columns = none ↔ (columns.map (·.name)).Nodup ∧ (∀ c ∈ columns, c.name ∉ earlier) ∧
      ∀ c ∈ columns, c.type = .int → c.length ∈ [1, 2, 4, 8]
  | [], _ => by simp [columnFault?]
  | c :: columns, earlier => by
    have hint : c.type.isInteger = true ↔ c.type = .int := by cases c.type <;> simp [ColumnType.isInteger]
    unfold columnFault?
    rw [List.map_cons, List.nodup_cons, List.forall_mem_cons, List.forall_mem_cons]
    by_cases hearlier : c.name ∈ earlier
    · simp [hearlier]
    by_cases hwidth : c.type = .int → c.length ∈ [1, 2, 4, 8]
    · have hok : (c.type.isInteger && !([1, 2, 4, 8].contains c.length)) = false := by
        rw [Bool.and_eq_false_iff, Bool.not_eq_false', List.contains_iff_mem, ← Bool.not_eq_true, hint]
        exact Classical.or_iff_not_imp_left.2 fun h => hwidth (not_not.1 h)
      rw [if_neg (by simpa using hearlier), if_neg (by simp only [hok, Bool.false_eq_true, not_false_iff]),
        columnFault?_eq_none_iff]
      constructor
      · rintro ⟨hnodup, hnew, hwidths⟩
        refine ⟨⟨fun hmem => ?_, hnodup⟩, ⟨hearlier, fun x hx hin => hnew x hx (List.mem_cons_of_mem _ hin)⟩, hwidth,
          hwidths⟩
        obtain ⟨x, hx, hxc⟩ := List.mem_map.1 hmem
        exact hnew x hx (hxc ▸ List.mem_cons_self)
      · rintro ⟨⟨hc, hnodup⟩, ⟨-, hnew⟩, -, hwidths⟩
        refine ⟨hnodup, fun x hx hin => ?_, hwidths⟩
        rcases List.mem_cons.1 hin with heq | hin
        · exact hc (heq ▸ List.mem_map_of_mem hx)
        · exact hnew x hx hin
    · have hbad : (c.type.isInteger && !([1, 2, 4, 8].contains c.length)) = true := by
        rw [Bool.and_eq_true, hint, Bool.not_eq_true', ← Bool.not_eq_true, List.contains_iff_mem]
        exact Classical.not_imp.1 hwidth
      rw [if_neg (by simpa using hearlier), if_pos hbad]
      exact ⟨fun h => (by cases h), fun h => absurd h.2.2.1 hwidth⟩

/-! ## Indexes -/

theorem nodup_indexNames (d : Declaration) : d.indexNames.Nodup := by
  unfold indexNames
  suffices h : ∀ (keys : List KeyDeclaration) (names : List String), names.Nodup →
      (keys.foldl (fun names k => if names.contains k.index then names else names ++ [k.index]) names).Nodup from
    h d.keys [] List.nodup_nil
  intro keys
  induction keys with
  | nil => exact fun _ h => h
  | cons k keys ih =>
    intro names h
    rw [List.foldl_cons]
    apply ih
    split
    · exact h
    · rename_i hk
      rw [List.nodup_append]
      refine ⟨h, List.nodup_singleton _, fun a ha b hb hab => hk ?_⟩
      rw [List.mem_singleton.1 hb] at hab
      subst hab
      simpa using ha

/-- What the index of a name is: the columns that its keys name, in their order, and the flags of all its keys. -/
structure IsIndex (d : Declaration) (columns : List Column) (name : String) (index : Index) : Prop where
  named : index.name = name
  keyed : List.Forall₂ (fun k c => columns.find? (fun c => c.name == k.column) = some c)
    (d.keys.filter fun k => k.index == name) index.columns
  primary : index.primary = true ↔ ∃ k ∈ d.keys, k.index = name ∧ k.primary = true
  unique : index.unique = true ↔ ∃ k ∈ d.keys, k.index = name ∧ (k.unique = true ∨ k.primary = true)

/-- A key finds the column that it names, or that is the fault. -/
theorem keyColumn_ok_iff {name : String} {k : KeyDeclaration} {c : Column} :
    (match columns.find? fun c => c.name == k.column with
      | some c => .ok c
      | none => .error (.invalidArgument (.unknownColumn name k.column)) : Except Error Column) = .ok c ↔
      columns.find? (fun c => c.name == k.column) = some c := by
  cases columns.find? fun c => c.name == k.column with
  | none => simp
  | some found => simp

theorem index_ok_iff {name : String} {index : Index} :
    d.index columns name = .ok index ↔ d.IsIndex columns name index := by
  have hflag : ∀ flag : KeyDeclaration → Bool, (d.keys.filter fun k => k.index == name).any flag = true ↔
      ∃ k ∈ d.keys, k.index = name ∧ flag k = true := fun flag => by
    simp
  have hflags : ((d.keys.filter fun k => k.index == name).any (·.unique) ||
      (d.keys.filter fun k => k.index == name).any (·.primary)) = true ↔
        ∃ k ∈ d.keys, k.index = name ∧ (k.unique = true ∨ k.primary = true) := by
    rw [Bool.or_eq_true, hflag, hflag, ← exists_or]
    simp only [← and_or_left]
  unfold Declaration.index
  rw [bind_ok_iff]
  simp only [mapM_ok_iff]
  constructor
  · rintro ⟨keyColumns, hkeys, heq⟩
    cases heq
    exact ⟨rfl, hkeys.imp fun _ _ => keyColumn_ok_iff.1, hflag _, hflags⟩
  · rintro ⟨rfl, hkeyed, hprimary, hunique⟩
    refine ⟨_, hkeyed.imp fun _ _ => keyColumn_ok_iff.2, ?_⟩
    rw [← hflag, ← Bool.eq_iff_iff] at hprimary
    rw [← hflags, ← Bool.eq_iff_iff] at hunique
    rw [← hprimary] at hunique ⊢
    rw [← hunique]
    rfl

theorem mapM_index_ok_iff {names : List String} {l : List Index} :
    names.mapM (d.index columns) = .ok l ↔ List.Forall₂ (d.IsIndex columns) names l := by
  simp only [mapM_ok_iff, index_ok_iff]

/-- **The indexes of some names are collected if each is one and at most one is primary**, counting one from before. -/
theorem collect_ok_iff : ∀ {names : List String} {primary primary' : Option Index} {secondary secondary' : List Index},
    d.collect columns names primary secondary = .ok (primary', secondary') ↔
      ∃ l, List.Forall₂ (d.IsIndex columns) names l ∧
        primary'.toList = primary.toList ++ l.filter (·.primary) ∧
        secondary' = secondary ++ l.filter fun i => !i.primary
  | [], primary, primary', secondary, secondary' => by
    have hlist : primary'.toList = primary.toList ↔ primary' = primary := by
      cases primary <;> cases primary' <;> simp
    unfold collect
    simp only [List.forall₂_nil_left_iff, exists_eq_left, List.filter_nil, List.append_nil, hlist, Except.ok.injEq,
      Prod.mk.injEq]
    exact and_congr eq_comm eq_comm
  | name :: names, primary, primary', secondary, secondary' => by
    unfold collect
    rw [bind_ok_iff]
    simp only [List.forall₂_cons_left_iff, index_ok_iff]
    constructor
    · rintro ⟨index, hindex, h⟩
      split at h
      · rename_i hprimary
        split at h
        · cases h
        rename_i hnone
        obtain ⟨l, hl, hp, hs⟩ := collect_ok_iff.1 h
        have hnone : primary = none := by simpa using hnone
        refine ⟨_, ⟨index, l, hindex, hl, rfl⟩, ?_, ?_⟩
        · simpa [hnone, hprimary] using hp
        · simpa [hprimary] using hs
      · rename_i hprimary
        obtain ⟨l, hl, hp, hs⟩ := collect_ok_iff.1 h
        refine ⟨_, ⟨index, l, hindex, hl, rfl⟩, ?_, ?_⟩
        · simpa [hprimary] using hp
        · simpa [hprimary] using hs
    · rintro ⟨_, ⟨index, l, hindex, hl, rfl⟩, hp, hs⟩
      refine ⟨index, hindex, ?_⟩
      by_cases hprimary : index.primary = true
      · -- a second primary index would be one too many for an option
        have hnone : primary = none := by
          cases primary with
          | none => rfl
          | some first => cases primary' <;> simp [hprimary] at hp
        rw [if_pos hprimary, if_neg (by simp [hnone])]
        refine collect_ok_iff.2 ⟨l, hl, ?_, ?_⟩
        · simpa [hnone, hprimary] using hp
        · simpa [hprimary] using hs
      · rw [if_neg hprimary]
        refine collect_ok_iff.2 ⟨l, hl, ?_, ?_⟩
        · simpa [hprimary] using hp
        · simpa [hprimary] using hs

theorem map_name_of_isIndex : ∀ {names : List String} {l : List Index}, List.Forall₂ (d.IsIndex columns) names l →
    l.map (·.name) = names
  | _, _, .nil => rfl
  | _, _, .cons hindex hl => by rw [List.map_cons, hindex.named, map_name_of_isIndex hl]

/-- Each of the indexes of some names is that of its own. -/
theorem isIndex_of_mem {names : List String} {l : List Index} {index : Index}
    (h : List.Forall₂ (d.IsIndex columns) names l) (hmem : index ∈ l) : d.IsIndex columns index.name index := by
  obtain ⟨name, -, hindex⟩ := exists_of_forall₂_of_mem h hmem
  exact hindex.named.symm ▸ hindex

/-- How a declaration is checked, fault after fault. -/
theorem build_eq (d : Declaration) : d.build =
    if d.placedColumns.isEmpty then .error (.invalidArgument (.noColumns d.name))
    else match columnFault? d.name [] d.placedColumns with
      | some fault => .error (.invalidArgument fault)
      | none =>
        match d.collect d.placedColumns d.indexNames none [] with
        | .error e => .error e
        | .ok (none, _) => .error (.invalidArgument (.noPrimary d.name))
        | .ok (some primary, secondary) =>
          .ok ⟨d.name, d.placedColumns, primary, secondary.mergeSort fun a b => (compare a.name b.name).isLE⟩ := by
  unfold build
  dsimp only
  split
  · rfl
  · cases columnFault? d.name [] d.placedColumns with
    | some fault => rfl
    | none => rcases d.collect d.placedColumns d.indexNames none [] with e | ⟨_ | primary, secondary⟩ <;> rfl

/-- **What is built**: the columns in their places and the indexes of all names, of which one is primary. -/
theorem build_ok_iff {schema : TableSchema} : d.build = .ok schema ↔ d.placedColumns ≠ [] ∧
    columnFault? d.name [] d.placedColumns = none ∧ ∃ l primary,
      List.Forall₂ (d.IsIndex d.placedColumns) d.indexNames l ∧ l.filter (·.primary) = [primary] ∧
        schema = ⟨d.name, d.placedColumns, primary,
          (l.filter fun i => !i.primary).mergeSort fun a b => (compare a.name b.name).isLE⟩ := by
  have hcollect : ∀ {primary : Index} {secondary : List Index},
      d.collect d.placedColumns d.indexNames none [] = .ok (some primary, secondary) ↔
        ∃ l, List.Forall₂ (d.IsIndex d.placedColumns) d.indexNames l ∧ l.filter (·.primary) = [primary] ∧
          secondary = l.filter fun i => !i.primary := by
    intro primary secondary
    rw [collect_ok_iff]
    simp only [Option.toList_some, Option.toList_none, List.nil_append, eq_comm (a := [primary])]
  rw [build_eq]
  constructor
  · intro h
    split at h
    · cases h
    rename_i hempty
    split at h
    · cases h
    rename_i hfault
    split at h
    · cases h
    · cases h
    · rename_i primary secondary hok
      cases h
      obtain ⟨l, hl, hprimary, rfl⟩ := hcollect.1 hok
      exact ⟨by simpa using hempty, hfault, l, primary, hl, hprimary, rfl⟩
  · rintro ⟨hempty, hfault, l, primary, hl, hprimary, rfl⟩
    rw [if_neg (by simpa using hempty), hfault, hcollect.2 ⟨l, hl, hprimary, rfl⟩]

end Declaration

theorem pairwise_lt_mergeSort {l : List Index} (h : (l.map (·.name)).Nodup) :
    (l.mergeSort fun a b => (compare a.name b.name).isLE).Pairwise fun a b => compare a.name b.name = .lt := by
  have htotal : ∀ a b : Index, ((compare a.name b.name).isLE || (compare b.name a.name).isLE) = true := by
    intro a b
    have hswap : compare b.name a.name = (compare a.name b.name).swap := Std.OrientedCmp.eq_swap
    rw [hswap]
    cases compare a.name b.name <;> rfl
  have hle := List.pairwise_mergeSort (fun _ _ _ => Std.TransCmp.isLE_trans) htotal l
  have hne : (l.mergeSort fun a b => (compare a.name b.name).isLE).Pairwise fun a b => a.name ≠ b.name := by
    have hperm : ((l.mergeSort fun a b => (compare a.name b.name).isLE).map (·.name)).Perm (l.map (·.name)) :=
      (List.mergeSort_perm l _).map _
    exact List.pairwise_map.1 (hperm.nodup_iff.2 h)
  refine (hle.and hne).imp fun {a b} hab => ?_
  obtain ⟨hab, hne⟩ := hab
  rcases Ordering.isLE_iff_eq_lt_or_eq_eq.1 hab with hlt | heq
  · exact hlt
  · exact absurd (Std.LawfulEqOrd.eq_of_compare heq) hne

/-- **A built schema is well formed.** -/
theorem TableSchema.wellFormed_of_build {d : Declaration} {schema : TableSchema} (h : d.build = .ok schema) :
    schema.WellFormed := by
  obtain ⟨-, hfault, l, primary, hl, hprimary, rfl⟩ := Declaration.build_ok_iff.1 h
  have hown : ∀ index ∈ l, ∀ c ∈ index.columns, c ∈ d.placedColumns := fun index hindex c hc => by
    obtain ⟨k, -, hfind⟩ := exists_of_forall₂_of_mem (Declaration.isIndex_of_mem hl hindex).keyed hc
    exact List.mem_of_find?_eq_some hfind
  refine ⟨d.ordinal_of_placedColumns, (Declaration.columnFault?_eq_none_iff.1 hfault).1, ?_, ?_, ?_⟩
  · exact hown primary (List.mem_of_mem_filter (hprimary ▸ List.mem_singleton_self primary))
  · exact fun index hindex => hown index (List.mem_of_mem_filter (List.mem_mergeSort.1 hindex))
  · refine pairwise_lt_mergeSort ((List.filter_sublist.map _).nodup ?_)
    rw [Declaration.map_name_of_isIndex hl]
    exact d.nodup_indexNames

end RowStore
