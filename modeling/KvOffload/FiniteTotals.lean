import KvOffload.OrderedMap
import Mathlib.Algebra.BigOperators.Group.Finset.Basic
import Mathlib.Algebra.BigOperators.Group.Finset.Piecewise
import Mathlib.Algebra.Order.BigOperators.Group.Finset
import Mathlib.Data.Finset.Card
import Mathlib.Tactic.Common

/-!
# Totals over finite partial maps

A finite partial map is a function into `Option` with a finite set covering
its domain. The total of a weight over its values changes by one term when one
key changes, whatever the weight counts, and does not depend on the cover.
-/

namespace KvOffload.FiniteTotals

set_option autoImplicit false

variable {κ ν A : Type} [DecidableEq κ]

def Covers (cover : Finset κ) (map : κ → Option ν) : Prop :=
  ∀ key, map key ≠ none → key ∈ cover

section Totals

variable [AddCommMonoid A]

def total (cover : Finset κ) (map : κ → Option ν) (weight : ν → A) : A :=
  ∑ key ∈ cover, (map key).elim 0 weight

omit [DecidableEq κ] in
theorem total_of_subset {cover larger : Finset κ} {map : κ → Option ν} (weight : ν → A)
    (covers : Covers cover map) (subset : cover ⊆ larger) :
    total cover map weight = total larger map weight := by
  apply Finset.sum_subset subset
  intro key _ outside
  have absent : map key = none := not_not.mp fun present => outside (covers key present)
  rw [absent]
  rfl

theorem total_cover_irrelevant {left right : Finset κ} {map : κ → Option ν} (weight : ν → A)
    (leftCovers : Covers left map) (rightCovers : Covers right map) :
    total left map weight = total right map weight :=
  (total_of_subset weight leftCovers Finset.subset_union_left).trans
    (total_of_subset weight rightCovers Finset.subset_union_right).symm

theorem total_update {cover coverAfter : Finset κ} {map after : κ → Option ν}
    (weight : ν → A) (covers : Covers cover map) (coversAfter : Covers coverAfter after)
    (changed : κ) (value : Option ν)
    (update : ∀ key, after key = if key = changed then value else map key) :
    total coverAfter after weight + (map changed).elim 0 weight =
      total cover map weight + value.elim 0 weight := by
  let all := insert changed (cover ∪ coverAfter)
  have wideBefore : total cover map weight = total all map weight :=
    total_of_subset weight covers
      (Finset.subset_union_left.trans (Finset.subset_insert _ _))
  have wideAfter : total coverAfter after weight = total all after weight :=
    total_of_subset weight coversAfter
      (Finset.subset_union_right.trans (Finset.subset_insert _ _))
  have member : changed ∈ all := Finset.mem_insert_self _ _
  have rest : ∑ key ∈ all.erase changed, (after key).elim 0 weight =
      ∑ key ∈ all.erase changed, (map key).elim 0 weight := by
    apply Finset.sum_congr rfl
    intro key keyMember
    rw [update key, if_neg (Finset.ne_of_mem_erase keyMember)]
  have atChanged : after changed = value := by rw [update, if_pos rfl]
  rw [wideBefore, wideAfter, total, total, ← Finset.add_sum_erase all _ member,
    ← Finset.add_sum_erase all _ member, rest, atChanged]
  rw [add_right_comm, add_comm (value.elim 0 weight), add_right_comm]

theorem total_congr {cover coverAfter : Finset κ} {map after : κ → Option ν}
    (weight : ν → A) (covers : Covers cover map) (coversAfter : Covers coverAfter after)
    (same : ∀ key, after key = map key) :
    total coverAfter after weight = total cover map weight := by
  obtain rfl : after = map := funext same
  exact total_cover_irrelevant weight coversAfter covers

/-- Removing a list of distinct bound keys removes exactly their weights. -/
theorem total_remove {cover coverAfter : Finset κ} {map after : κ → Option ν}
    (weight : ν → A) (covers : Covers cover map) (coversAfter : Covers coverAfter after)
    (removed : List (κ × ν)) (distinct : (removed.map Prod.fst).Nodup)
    (bound : ∀ entry ∈ removed, map entry.1 = some entry.2)
    (update : ∀ key, after key = if key ∈ removed.map Prod.fst then none else map key) :
    total coverAfter after weight + (removed.map fun entry => weight entry.2).sum =
      total cover map weight := by
  induction removed generalizing cover map with
  | nil => simpa using total_congr weight covers coversAfter (by simpa using update)
  | cons entry rest ih =>
      rw [List.map_cons, List.nodup_cons] at distinct
      let middle : κ → Option ν := fun key => if key = entry.1 then none else map key
      have middleCovers : Covers cover middle := by
        intro key present
        by_cases same : key = entry.1
        · simp [middle, same] at present
        · exact covers key (by simpa [middle, same] using present)
      have step := total_update weight covers middleCovers
        entry.1 none (fun _ => rfl)
      have later := ih middleCovers distinct.2
        (by
          intro other member
          have different : other.1 ≠ entry.1 := fun equal =>
            distinct.1 (equal ▸ List.mem_map_of_mem member)
          simpa [middle, different] using bound other (List.mem_cons_of_mem _ member))
        (by
          intro key
          rw [update key]
          by_cases here : key = entry.1
          · rw [if_pos (by simp [here])]
            simp [middle, here]
          · simp only [middle, if_neg here]
            exact if_congr (by simp [here]) rfl rfl)
      rw [List.map_cons, List.sum_cons, ← add_assoc, add_right_comm, later]
      rw [bound entry List.mem_cons_self] at step
      simpa using step

end Totals

omit [DecidableEq κ] in
theorem card_filter_eq_total (cover : Finset κ) (map : κ → Option ν) (p : ν → Bool) :
    (cover.filter fun key => (map key).any p).card =
      total cover map (fun value => if p value then 1 else 0) := by
  rw [Finset.card_filter, total]
  apply Finset.sum_congr rfl
  intro key _
  cases map key <;> simp

section MapTotals

variable [AddCommMonoid A]

theorem map_covers (map : OrderedMap κ ν) : Covers map.keys.toFinset map.get? := by
  intro key present
  rw [List.mem_toFinset, OrderedMap.mem_keys_iff]
  exact Option.isSome_iff_ne_none.mpr present

def mapTotal (map : OrderedMap κ ν) (weight : ν → A) : A :=
  total map.keys.toFinset map.get? weight

theorem map_total_set (map : OrderedMap κ ν) (key : κ) (value : ν) (weight : ν → A) :
    mapTotal (map.set key value) weight + (map.get? key).elim 0 weight =
      mapTotal map weight + weight value :=
  total_update weight (map_covers map) (map_covers _) key (some value)
    fun other => map.get_set key other value

theorem map_total_erase (map : OrderedMap κ ν) (key : κ) (weight : ν → A) :
    mapTotal (map.erase key) weight + (map.get? key).elim 0 weight = mapTotal map weight := by
  simpa [mapTotal] using total_update weight (map_covers map) (map_covers (map.erase key)) key
    none fun other => map.get_erase key other

@[simp] theorem map_total_empty (weight : ν → A) :
    mapTotal (OrderedMap.empty : OrderedMap κ ν) weight = 0 := by
  simp [mapTotal, total]

theorem map_total_eq_sum (map : OrderedMap κ ν) (weight : ν → A) :
    mapTotal map weight = (map.values.map weight).sum := by
  rw [mapTotal, total, List.sum_toFinset _ map.keys_nodup, OrderedMap.keys, OrderedMap.values,
    List.map_map, List.map_map]
  congr 1
  apply List.map_congr_left
  intro entry member
  have found := (map.get_eq_some_iff entry.1 entry.2).mpr member
  simp [found]

end MapTotals

theorem mem_map_total {X : Type} (map : OrderedMap κ ν) (weight : ν → Multiset X) (x : X) :
    x ∈ mapTotal map weight ↔ ∃ key value, map.get? key = some value ∧ x ∈ weight value := by
  rw [mapTotal, total, Multiset.mem_sum]
  constructor
  · rintro ⟨key, _, member⟩
    cases found : map.get? key with
    | none => simp [found] at member
    | some value => exact ⟨key, value, found, by simpa [found] using member⟩
  · rintro ⟨key, value, found, member⟩
    refine ⟨key, map_covers map key (by rw [found]; exact Option.some_ne_none value), ?_⟩
    rw [found]
    exact member

end KvOffload.FiniteTotals
