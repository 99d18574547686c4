import KvOffload.OrderedMap
import Mathlib.Data.List.Sort
import Mathlib.Tactic

/-!
# Tables written at increasing indices

A table of a fixed length is filled at the indices of an association list. What the
table holds, and what a walk over all its indices collects, can be read off the list.
-/

namespace KvOffload.SparseTables

open KvOffload

set_option autoImplicit false

variable {α β ν : Type}

/-- Assigns the value of each entry at the index of the entry. -/
def fill (value : ν → α) (table : List α) (entries : List (Nat × ν)) : List α :=
  entries.foldl (fun table entry => table.set entry.1 (value entry.2)) table

@[simp] theorem fill_length (value : ν → α) (entries : List (Nat × ν)) (table : List α) :
    (fill value table entries).length = table.length := by
  induction entries generalizing table with
  | nil => rfl
  | cons entry rest ih => exact (ih _).trans (List.length_set ..)

theorem fill_get (value : ν → α) (entries : List (Nat × ν)) {table : List α} {index : Nat}
    (distinct : (entries.map Prod.fst).Nodup) (within : index < table.length) :
    (fill value table entries)[index]? =
      ((assocGet entries index).map value).or table[index]? := by
  induction entries generalizing table with
  | nil => rfl
  | cons entry rest ih =>
      rw [List.map_cons, List.nodup_cons] at distinct
      have later := @ih (table.set entry.1 (value entry.2)) distinct.2 (by simpa using within)
      rw [fill, List.foldl_cons, ← fill, later, assocGet]
      by_cases here : entry.1 = index
      · subst here
        have absent := (assoc_get_eq_none_iff rest entry.1).mpr distinct.1
        simp [absent, within]
      · simp [here]

/-- A filled constant table, index by index. -/
theorem fill_replicate (value : ν → α) (default : α) (size : Nat) {entries : List (Nat × ν)}
    (distinct : (entries.map Prod.fst).Nodup) :
    fill value (List.replicate size default) entries =
      (List.range size).map fun index => ((assocGet entries index).map value).getD default := by
  apply List.ext_getElem?
  intro index
  by_cases within : index < size
  · rw [fill_get value entries distinct (by simpa using within)]
    cases found : assocGet entries index <;> simp [within, found]
  · rw [List.getElem?_eq_none (by simpa using within),
      List.getElem?_eq_none (by simpa using within)]

theorem sum_set {table : List Nat} {index old : Nat} (here : table[index]? = some old)
    (new : Nat) : (table.set index new).sum + old = table.sum + new := by
  induction table generalizing index with
  | nil => cases here
  | cons head rest ih =>
      cases index with
      | zero =>
          cases here
          simp only [List.set_cons_zero, List.sum_cons]
          omega
      | succ index =>
          have later := @ih index here
          simp only [List.set_cons_succ, List.sum_cons]
          omega

/-- Entries at distinct indices of an empty table are all counted. -/
theorem fill_sum (value : ν → Nat) (entries : List (Nat × ν)) {table : List Nat}
    (distinct : (entries.map Prod.fst).Nodup)
    (empty : ∀ entry ∈ entries, table[entry.1]? = some 0) :
    (fill value table entries).sum =
      table.sum + (entries.map fun entry => value entry.2).sum := by
  induction entries generalizing table with
  | nil => rfl
  | cons entry rest ih =>
      rw [List.map_cons, List.nodup_cons] at distinct
      have written := sum_set (empty entry List.mem_cons_self) (value entry.2)
      have later := @ih (table.set entry.1 (value entry.2)) distinct.2 (by
        intro other member
        have apart : entry.1 ≠ other.1 := fun same =>
          distinct.1 (same ▸ List.mem_map_of_mem member)
        rw [List.getElem?_set_ne apart]
        exact empty other (List.mem_cons_of_mem _ member))
      rw [fill, List.foldl_cons, ← fill, later, List.map_cons, List.sum_cons]
      omega

theorem eq_map_range (table : List α) (default : α) :
    table = (List.range table.length).map fun index => table.getD index default := by
  apply List.ext_getElem
  · simp
  · intro index inTable _
    simp [inTable]

/-- An index list that is sorted is the part of the range that it covers. -/
theorem filter_range_eq {size : Nat} {indices : List Nat}
    (sorted : indices.Pairwise fun first second => first < second)
    (bounded : ∀ index ∈ indices, index < size) :
    (List.range size).filter (fun index => index ∈ indices) = indices := by
  have distinct : indices.Nodup := sorted.imp fun less => less.ne
  have asymmetric : ∀ first second : Nat, first ∈ (List.range size).filter (· ∈ indices) →
      second ∈ indices → first < second → second < first → first = second :=
    fun first second _ _ less greater => absurd greater (Nat.not_lt_of_gt less)
  apply List.Perm.eq_of_pairwise asymmetric (List.pairwise_lt_range.filter _) sorted
  rw [List.perm_ext_iff_of_nodup (List.nodup_range.filter _) distinct]
  intro index
  simp only [List.mem_filter, List.mem_range, decide_eq_true_eq]
  exact ⟨And.right, fun member => ⟨bounded index member, member⟩⟩

theorem flatMap_filter {collect : α → List β} {keep : α → Bool} (items : List α)
    (empty : ∀ item ∈ items, keep item = false → collect item = []) :
    (items.filter keep).flatMap collect = items.flatMap collect := by
  induction items with
  | nil => rfl
  | cons item rest ih =>
      have later := ih fun other member => empty other (List.mem_cons_of_mem _ member)
      cases kept : keep item with
      | false =>
          rw [List.filter_cons_of_neg (by simp [kept]), later, List.flatMap_cons,
            empty item List.mem_cons_self kept, List.nil_append]
      | true =>
          rw [List.filter_cons_of_pos kept, List.flatMap_cons, List.flatMap_cons, later]

/-- A walk over all indices meets the entries in their order. -/
theorem walk_entries {size : Nat} {entries : List (Nat × ν)} (collect : Nat → Option ν → List β)
    (sorted : (entries.map Prod.fst).Pairwise fun first second => first < second)
    (bounded : ∀ entry ∈ entries, entry.1 < size) (empty : ∀ index, collect index none = []) :
    ((List.range size).flatMap fun index => collect index (assocGet entries index)) =
      entries.flatMap fun entry => collect entry.1 (some entry.2) := by
  have distinct : (entries.map Prod.fst).Nodup := sorted.imp fun less => less.ne
  have indices := @filter_range_eq size (entries.map Prod.fst) sorted (by
    intro index member
    obtain ⟨entry, entryMember, rfl⟩ := List.mem_map.mp member
    exact bounded entry entryMember)
  have walk : (((List.range size).filter fun index => index ∈ entries.map Prod.fst).flatMap
        fun index => collect index (assocGet entries index)) =
      (List.range size).flatMap fun index => collect index (assocGet entries index) := by
    apply flatMap_filter
    intro index _ absent
    rw [decide_eq_false_iff_not, ← assoc_get_eq_none_iff] at absent
    rw [absent]
    exact empty index
  rw [← walk, indices, List.flatMap_map]
  apply List.flatMap_congr
  intro entry member
  rw [assoc_get_of_mem distinct member]

end KvOffload.SparseTables
