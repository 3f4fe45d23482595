import RowStore.Memory.Seek
import RowStore.Proofs.LeadingCells
import RowStore.Proofs.MapLaws

/-!
# Where a search stops and a walk goes

A search stops at the nearest entry, from one end of the index or the other, whose leading cells compare with the key as
the mode wants (`seek_eq_find?`).  What a walk has before it from a place is `ahead`; a step goes to the first of it
(`step_eq`), and from there the walk has the rest before it (`ahead_of_ahead_eq_cons`).
-/
namespace RowStore

open Std (TransCmp OrientedCmp)

/-- The entries at the front of a list that satisfy what only a front can satisfy, and the others. -/
theorem filter_append_filter_not {α : Type} {p : α → Bool} :
    ∀ {l : List α}, (l.Pairwise fun a b => p b = true → p a = true) → l.filter p ++ l.filter (fun a => !p a) = l
  | [], _ => rfl
  | a :: l, h => by
    obtain ⟨ha, hl⟩ := List.pairwise_cons.1 h
    cases hp : p a with
    | true => simp [hp, filter_append_filter_not hl]
    | false =>
      have hnone : ∀ b ∈ l, p b = false := fun b hb => by
        cases hb' : p b with
        | true => rw [ha b hb hb'] at hp; cases hp
        | false => rfl
      have h1 : l.filter p = [] := List.filter_eq_nil_iff.2 fun b hb => by simp [hnone b hb]
      have h2 : l.filter (fun b => !p b) = l := List.filter_eq_self.2 fun b hb => by simp [hnone b hb]
      simp [hp, h1, h2]

theorem find?_eq_head? {α : Type} {p : α → Bool} : ∀ {l : List α}, (∀ a ∈ l, p a = true) → l.find? p = l.head?
  | [], _ => rfl
  | a :: l, h => by rw [List.find?_cons_of_pos (h a List.mem_cons_self), List.head?_cons]

theorem find?_append_of_not {α : Type} {p : α → Bool} {l : List α} (l' : List α) (h : ∀ a ∈ l, p a = false) :
    (l ++ l').find? p = l'.find? p := by
  have hnone : l.find? p = none := List.find?_eq_none.2 fun a ha => by simp [h a ha]
  rw [List.find?_append, hnone, Option.none_or]

namespace SearchMode

/-- How the leading cells of the entry that a search stops at compare with the key. -/
def accepts : SearchMode → Ordering → Bool
  | greater, o => o == .gt
  | greaterOrEqual, o => o != .lt
  | less, o => o == .lt
  | lessOrEqual, o => o != .gt

/-- The entries in the order in which a search tries them: the least one first, or the greatest. -/
def candidates {α : Type} : SearchMode → List α → List α
  | greater, l | greaterOrEqual, l => l
  | less, l | lessOrEqual, l => l.reverse

end SearchMode

/-- What a list has beyond a place, in a direction. -/
def Direction.beyond {α : Type} (before after : List α) : Direction → List α
  | asc => after
  | desc => before.reverse

namespace OrderedMap

variable {β : Type} {m : OrderedMap Key β} {key : Key}

/-! ## Searching -/

theorem isLE_of_ascending (hm : m.Ascending) : m.entries.Pairwise fun a b => Key.order a.1 b.1 ≠ .gt :=
  List.Pairwise.imp (fun {a b} h => by
    rw [← Key.compare_eq, h]
    simp) hm

/-- Entries before a key, then those that begin with it, then those after it. -/
theorem entries_split (key : Key) (hm : m.Ascending) (hlong : ∀ e ∈ m.entries, key.length ≤ e.1.length) :
    ∃ equal after, m.atOrAfter key = equal ++ after ∧ m.entries = m.before key ++ (equal ++ after) ∧
      (m.atOrAfter key).takeWhile (fun e => Key.orderLeading e.1 key == .eq) = equal ∧
      (∀ e ∈ equal, Key.orderLeading e.1 key = .eq) ∧ (∀ e ∈ after, Key.orderLeading e.1 key = .gt) := by
  have hle : m.entries.Pairwise fun a b => Key.order a.1 b.1 ≠ .gt := isLE_of_ascending hm
  refine ⟨(m.atOrAfter key).takeWhile fun e => Key.orderLeading e.1 key == .eq,
    (m.atOrAfter key).dropWhile fun e => Key.orderLeading e.1 key == .eq,
    (List.takeWhile_append_dropWhile).symm, ?_, rfl, fun e he => ?_, ?_⟩
  · rw [List.takeWhile_append_dropWhile]
    refine (filter_append_filter_not ?_).symm
    refine hle.imp fun {a b} hab hb => ?_
    have hb : Key.order b.1 key = .lt := beq_iff_eq.1 hb
    have hisLE : (Key.order a.1 b.1).isLE := by
      revert hab
      cases Key.order a.1 b.1 <;> simp
    exact beq_iff_eq.2 (TransCmp.lt_of_isLE_of_lt hisLE hb)
  · simpa using List.all_eq_true.1 List.all_takeWhile e he
  · -- the first entry past the equal ones is after the key, and so is what follows it
    have hsub : (m.atOrAfter key).Sublist m.entries := List.filter_sublist
    have hdrop := List.dropWhile_sublist (fun e : Key × β => Key.orderLeading e.1 key == .eq) (l := m.atOrAfter key)
    have hpair := (hle.sublist hsub).sublist hdrop
    have hfirst := List.head?_dropWhile_not (fun e : Key × β => Key.orderLeading e.1 key == .eq) (m.atOrAfter key)
    cases hd : (m.atOrAfter key).dropWhile fun e => Key.orderLeading e.1 key == .eq with
    | nil => exact fun e he => absurd he (by simp)
    | cons x rest =>
      rw [hd] at hdrop hpair hfirst
      have hx : x ∈ m.atOrAfter key := hdrop.subset List.mem_cons_self
      have hxlong := hlong x (hsub.subset hx)
      have hxgt : Key.orderLeading x.1 key = .gt := by
        have hne : Key.orderLeading x.1 key ≠ .eq := by simpa using hfirst
        have hnlt : Key.orderLeading x.1 key ≠ .lt := fun hlt => by
          rw [← Key.order_eq_lt_iff hxlong] at hlt
          have := (List.mem_filter.1 hx).2
          rw [Key.compare_eq, hlt] at this
          cases this
        cases hc : Key.orderLeading x.1 key with
        | lt => exact absurd hc hnlt
        | eq => exact absurd hc hne
        | gt => rfl
      intro e he
      rcases List.mem_cons.1 he with rfl | he
      · exact hxgt
      · refine Key.orderLeading_gt_of_le hxlong (hlong e ?_) ((List.pairwise_cons.1 hpair).1 e he) hxgt
        exact hsub.subset (hdrop.subset (List.mem_cons_of_mem _ he))

/-- **A search stops at the first candidate whose leading cells compare as the mode wants.** -/
theorem seek_eq_find? (hm : m.Ascending) (hlong : ∀ e ∈ m.entries, key.length ≤ e.1.length) (mode : SearchMode) :
    m.seek key mode = (mode.candidates m.keys).find? fun k => mode.accepts (Key.orderLeading k key) := by
  obtain ⟨equal, after, hat, hall, htake, heq, hgt⟩ := entries_split key hm hlong
  have hlt : ∀ e ∈ m.before key, Key.orderLeading e.1 key = .lt := fun e he => by
    obtain ⟨he, hc⟩ := List.mem_filter.1 he
    exact (Key.order_eq_lt_iff (hlong e he)).1 (beq_iff_eq.1 hc)
  have hkeys : (mode.candidates m.keys).find? (fun k => mode.accepts (Key.orderLeading k key)) =
      ((mode.candidates m.entries).find? fun e => mode.accepts (Key.orderLeading e.1 key)).map (·.1) := by
    have hmap : mode.candidates m.keys = (mode.candidates m.entries).map (·.1) := by
      cases mode <;> simp [SearchMode.candidates, keys, List.map_reverse]
    rw [hmap, List.find?_map]
    rfl
  rw [hkeys]
  cases mode with
  | greaterOrEqual =>
    simp only [seek, SearchMode.candidates, SearchMode.accepts]
    rw [hat, hall, find?_append_of_not _ fun e he => by simp [hlt e he], find?_eq_head? fun e he => ?_]
    rcases List.mem_append.1 he with he | he
    · simp [heq e he]
    · simp [hgt e he]
  | greater =>
    simp only [seek, SearchMode.candidates, SearchMode.accepts]
    have hskip : m.entries.find? (fun e => Key.orderLeading e.1 key == .gt) =
        (equal ++ after).find? fun e => Key.orderLeading e.1 key == .gt := by
      rw [hall, find?_append_of_not _ fun e he => by simp [hlt e he]]
    rw [hat, hskip]
  | less =>
    simp only [seek, SearchMode.candidates, SearchMode.accepts]
    rw [hall, List.reverse_append, find?_append_of_not _ fun e he => ?_, find?_eq_head? fun e he => ?_,
      List.head?_reverse]
    · simp [hlt e (List.mem_reverse.1 he)]
    · rcases List.mem_append.1 (List.mem_reverse.1 he) with he | he
      · simp [heq e he]
      · simp [hgt e he]
  | lessOrEqual =>
    simp only [seek, SearchMode.candidates, SearchMode.accepts]
    rw [htake, hall, List.reverse_append, List.reverse_append, List.append_assoc,
      find?_append_of_not _ fun e he => by simp [hgt e (List.mem_reverse.1 he)],
      find?_eq_head? fun e he => ?_, List.head?_append, List.head?_reverse, List.head?_reverse]
    rcases List.mem_append.1 he with he | he
    · simp [heq e (List.mem_reverse.1 he)]
    · simp [hlt e (List.mem_reverse.1 he)]

/-- A search stops at an entry. -/
theorem exists_of_seek {mode : SearchMode} {k : Key} (h : m.seek key mode = some k) : ∃ v, (k, v) ∈ m.entries := by
  have hmem : ∀ {l : List (Key × β)} {e : Key × β}, l.Sublist m.entries → e ∈ l → ∃ v, (e.1, v) ∈ m.entries :=
    fun hl he => ⟨_, hl.subset he⟩
  have hafter : (m.atOrAfter key).Sublist m.entries := List.filter_sublist
  have hbefore : (m.before key).Sublist m.entries := List.filter_sublist
  cases mode with
  | greaterOrEqual =>
    obtain ⟨e, he, rfl⟩ := Option.map_eq_some_iff.1 h
    exact hmem hafter (List.mem_of_mem_head? he)
  | greater =>
    obtain ⟨e, he, rfl⟩ := Option.map_eq_some_iff.1 h
    exact hmem hafter (List.mem_of_find?_eq_some he)
  | less =>
    obtain ⟨e, he, rfl⟩ := Option.map_eq_some_iff.1 h
    exact hmem hbefore (List.mem_of_mem_getLast? he)
  | lessOrEqual =>
    obtain ⟨e, he, rfl⟩ := Option.map_eq_some_iff.1 h
    rcases Option.or_eq_some_iff.1 he with he | ⟨-, he⟩
    · exact hmem ((List.takeWhile_sublist _).trans hafter) (List.mem_of_mem_getLast? he)
    · exact hmem hbefore (List.mem_of_mem_getLast? he)

/-- **A search for a key that is there stops at it.** -/
theorem seek_of_mem (hm : m.Ascending) {e : Key × β} (he : e ∈ m.entries) (heq : Key.order e.1 key = .eq)
    (hlength : ∀ x ∈ m.entries, x.1.length = key.length) : m.seek key .greaterOrEqual = some e.1 := by
  have horder : ∀ x ∈ m.entries, Key.orderLeading x.1 key = Key.order x.1 key := fun x hx => by
    rw [Key.orderLeading_eq (hlength x hx).ge, ← hlength x hx, List.take_length]
  obtain ⟨equal, after, hat, hall, -, hequal, hgt⟩ := entries_split key hm fun x hx => (hlength x hx).ge
  have hin : e ∈ equal := by
    rw [hall, List.mem_append, List.mem_append] at he
    rcases he with hlt | he | hafter
    · rw [← Key.compare_eq, beq_iff_eq.1 (List.mem_filter.1 hlt).2] at heq
      cases heq
    · exact he
    · have hmem : e ∈ m.entries := by
        rw [hall]
        exact List.mem_append_right _ (List.mem_append_right _ hafter)
      rw [← horder e hmem, hgt e hafter] at heq
      cases heq
  cases equal with
  | nil => cases hin
  | cons x equal =>
    have hx : x ∈ m.entries := by
      rw [hall]
      exact List.mem_append_right _ (List.mem_append_left _ List.mem_cons_self)
    have hxe : x = e := eq_of_mem_of_mem hm hx he
      (TransCmp.eq_trans ((horder x hx).symm.trans (hequal x List.mem_cons_self)) (OrientedCmp.eq_symm heq))
    show (m.atOrAfter key).head?.map (·.1) = some e.1
    rw [hat, hxe]
    rfl

/-! ## Walking -/

/-- The entries strictly beyond a place, in the order in which a walk meets them. -/
def ahead (m : OrderedMap Key β) (place : Key) : Direction → List (Key × β)
  | .asc => m.after place
  | .desc => (m.before place).reverse

/-- Whether a walk meets one key after another. -/
def Beyond (direction : Direction) (a b : Key) : Prop :=
  match direction with
  | .asc => Key.order a b = .lt
  | .desc => Key.order b a = .lt

theorem Beyond.trans {direction : Direction} {a b c : Key} (hab : Beyond direction a b) (hbc : Beyond direction b c) :
    Beyond direction a c := by
  cases direction with
  | asc => exact TransCmp.lt_trans hab hbc
  | desc => exact TransCmp.lt_trans hbc hab

theorem not_beyond_self (direction : Direction) (a : Key) : ¬Beyond direction a a := by
  have heq : Key.order a a = .eq := Std.ReflCmp.compare_self
  cases direction <;> simp [Beyond, heq]

theorem step_eq (place : Key) (direction : Direction) :
    m.step place direction = (m.ahead place direction).head?.map (·.1) := by
  cases direction with
  | asc => rfl
  | desc => rw [ahead, List.head?_reverse]; rfl

theorem mem_ahead {place : Key} {direction : Direction} {e : Key × β} :
    e ∈ m.ahead place direction ↔ e ∈ m.entries ∧ Beyond direction place e.1 := by
  cases direction with
  | asc =>
    unfold ahead after Beyond
    rw [List.mem_filter, beq_iff_eq]
    exact and_congr_right fun _ => OrientedCmp.gt_iff_lt
  | desc =>
    unfold ahead before Beyond
    rw [List.mem_reverse, List.mem_filter, beq_iff_eq]
    rfl

/-- A walk meets ever further entries. -/
theorem pairwise_ahead (hm : m.Ascending) (place : Key) (direction : Direction) :
    (m.ahead place direction).Pairwise fun a b => Beyond direction a.1 b.1 := by
  cases direction with
  | asc => exact List.Pairwise.filter _ hm
  | desc => exact List.pairwise_reverse.2 (List.Pairwise.filter _ hm)

theorem eq_of_pairwise_beyond {direction : Direction} {l l' : List (Key × β)}
    (h : l.Pairwise fun a b => Beyond direction a.1 b.1) (h' : l'.Pairwise fun a b => Beyond direction a.1 b.1)
    (hmem : ∀ e, e ∈ l ↔ e ∈ l') : l = l' := by
  have hne : ∀ {a b : Key × β}, Beyond direction a.1 b.1 → ¬Beyond direction b.1 a.1 := fun hab hba =>
    absurd (hab.trans hba) (not_beyond_self _ _)
  have hnodup : ∀ {k : List (Key × β)}, (k.Pairwise fun a b => Beyond direction a.1 b.1) → k.Nodup := fun hk =>
    hk.imp fun {a b} hab heq => by
      subst heq
      exact not_beyond_self _ _ hab
  refine List.Perm.eq_of_pairwise (fun a b _ _ hab hba => absurd hba (hne hab)) h h' ?_
  exact (List.perm_ext_iff_of_nodup (hnodup h) (hnodup h')).2 hmem

/-- **After a step the walk has the rest before it.** -/
theorem ahead_of_ahead_eq_cons (hm : m.Ascending) {place : Key} {direction : Direction} {e : Key × β}
    {rest : List (Key × β)} (h : m.ahead place direction = e :: rest) : m.ahead e.1 direction = rest := by
  have hpair := pairwise_ahead hm place direction
  have hmem : ∀ x, x ∈ m.ahead place direction ↔ x = e ∨ x ∈ rest := fun x => by rw [h, List.mem_cons]
  rw [h] at hpair
  obtain ⟨hfirst, hrest⟩ := List.pairwise_cons.1 hpair
  refine eq_of_pairwise_beyond (pairwise_ahead hm e.1 direction) hrest fun x => ⟨fun hx => ?_, fun hx => ?_⟩
  · obtain ⟨hx, hbeyond⟩ := mem_ahead.1 hx
    have he := mem_ahead.1 ((hmem e).2 (Or.inl rfl))
    rcases (hmem x).1 (mem_ahead.2 ⟨hx, he.2.trans hbeyond⟩) with rfl | hx
    · exact absurd hbeyond (not_beyond_self _ _)
    · exact hx
  · exact mem_ahead.2 ⟨(mem_ahead.1 ((hmem x).2 (Or.inr hx))).1, hfirst x hx⟩

theorem ahead_of_append (hm : m.Ascending) {before after : List (Key × β)} {e : Key × β}
    (h : m.entries = before ++ e :: after) (direction : Direction) :
    m.ahead e.1 direction = direction.beyond before after := by
  unfold Ascending at hm
  rw [h, List.pairwise_append, List.pairwise_cons] at hm
  obtain ⟨-, ⟨hafter, -⟩, hbefore⟩ := hm
  cases direction with
  | asc =>
    show m.entries.filter _ = after
    rw [h, List.filter_append, List.filter_cons_of_neg (by simp), List.filter_eq_nil_iff.2 fun x hx => ?_,
      List.filter_eq_self.2 fun x hx => ?_, List.nil_append]
    · rw [OrientedCmp.gt_of_lt (hafter x hx)]
      rfl
    · rw [hbefore x hx e List.mem_cons_self]
      simp
  | desc =>
    show (m.entries.filter _).reverse = before.reverse
    rw [h, List.filter_append, List.filter_cons_of_neg (by simp), List.filter_eq_self.2 fun x hx => ?_,
      List.filter_eq_nil_iff.2 fun x hx => ?_, List.append_nil]
    · rw [OrientedCmp.gt_of_lt (hafter x hx)]
      simp
    · rw [hbefore x hx e List.mem_cons_self]
      rfl

end OrderedMap
end RowStore
