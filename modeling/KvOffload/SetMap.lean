import KvOffload.OrderedMap
import Mathlib.Data.Finset.Dedup
import Mathlib.Tactic

/-!
# Maps to finite sets

A relation between keys and items, kept as a map from each key to the finite set of its
items. No set in the map is empty. Removing a pair that is not there fails, so removing
an item from a list of keys succeeds exactly for distinct keys that all have it.
-/

namespace KvOffload.SetMap

open KvOffload

set_option autoImplicit false

variable {κ ι : Type} [DecidableEq κ] [DecidableEq ι]

def Holds (map : OrderedMap κ (Finset ι)) (key : κ) (item : ι) : Prop :=
  ∃ items, map.get? key = some items ∧ item ∈ items

def NoEmpty (map : OrderedMap κ (Finset ι)) : Prop :=
  ∀ key items, map.get? key = some items → items ≠ ∅

def add (item : ι) (map : OrderedMap κ (Finset ι)) (key : κ) : OrderedMap κ (Finset ι) :=
  map.set key (insert item ((map.get? key).getD ∅))

def addAll (item : ι) (map : OrderedMap κ (Finset ι)) (keys : List κ) :
    OrderedMap κ (Finset ι) :=
  keys.foldl (add item) map

def remove (item : ι) (map : OrderedMap κ (Finset ι)) (key : κ) :
    Option (OrderedMap κ (Finset ι)) :=
  match map.get? key with
  | none => none
  | some items =>
      if item ∈ items then
        some (if items.erase item = ∅ then map.erase key else map.set key (items.erase item))
      else none

def removeAll (item : ι) : OrderedMap κ (Finset ι) → List κ → Option (OrderedMap κ (Finset ι))
  | map, [] => some map
  | map, key :: rest => (remove item map key).bind fun map => removeAll item map rest

omit [DecidableEq ι] in
@[simp] theorem not_holds_empty (key : κ) (item : ι) :
    ¬Holds (OrderedMap.empty : OrderedMap κ (Finset ι)) key item := by
  simp [Holds]

omit [DecidableEq ι] in
@[simp] theorem no_empty_empty : NoEmpty (OrderedMap.empty : OrderedMap κ (Finset ι)) := by
  simp [NoEmpty]

theorem holds_add (map : OrderedMap κ (Finset ι)) (added : ι) (written key : κ) (item : ι) :
    Holds (add added map written) key item ↔
      Holds map key item ∨ key = written ∧ item = added := by
  unfold Holds add
  rw [OrderedMap.get_set]
  by_cases same : key = written
  · subst same
    rw [if_pos rfl]
    cases found : map.get? key with
    | none => simp
    | some items =>
        simp only [Option.some.injEq, exists_eq_left', Option.getD_some, Finset.mem_insert,
          true_and]
        exact or_comm
  · simp [same]

theorem no_empty_add {map : OrderedMap κ (Finset ι)} (item : ι) (written : κ)
    (kept : NoEmpty map) : NoEmpty (add item map written) := by
  intro key items found
  unfold add at found
  rw [OrderedMap.get_set] at found
  split at found
  · cases found
    exact Finset.insert_ne_empty _ _
  · exact kept key items found

theorem holds_add_all (added : ι) (keys : List κ) (map : OrderedMap κ (Finset ι)) (key : κ)
    (item : ι) :
    Holds (addAll added map keys) key item ↔
      Holds map key item ∨ key ∈ keys ∧ item = added := by
  induction keys generalizing map with
  | nil => simp [addAll]
  | cons first rest ih =>
      have step := ih (add added map first)
      simp only [addAll, List.foldl_cons] at step ⊢
      rw [step, holds_add, List.mem_cons]
      tauto

theorem no_empty_add_all (item : ι) (keys : List κ) {map : OrderedMap κ (Finset ι)}
    (kept : NoEmpty map) : NoEmpty (addAll item map keys) := by
  induction keys generalizing map with
  | nil => exact kept
  | cons first rest ih => exact ih (no_empty_add item first kept)

theorem remove_is_some_iff (map : OrderedMap κ (Finset ι)) (item : ι) (key : κ) :
    (∃ after, remove item map key = some after) ↔ Holds map key item := by
  unfold remove Holds
  cases found : map.get? key with
  | none => simp
  | some items =>
      by_cases member : item ∈ items <;> simp [member]

theorem get_remove {map after : OrderedMap κ (Finset ι)} {item : ι} {removed : κ}
    (done : remove item map removed = some after) (key : κ) :
    after.get? key = if key = removed then
      ((map.get? key).map fun items => items.erase item).filter fun items => items ≠ ∅
      else map.get? key := by
  unfold remove at done
  cases found : map.get? removed with
  | none => simp [found] at done
  | some items =>
      rw [found] at done
      simp only at done
      split at done
      · rename_i member
        cases done
        by_cases same : key = removed
        · subst same
          by_cases last : items.erase item = ∅
          · rw [if_pos last, if_pos rfl, OrderedMap.get_erase_self, found, Option.map_some,
              Option.filter_some, if_neg (by simp [last])]
          · rw [if_neg last, if_pos rfl, OrderedMap.get_set_self, found, Option.map_some,
              Option.filter_some, if_pos (by simp [last])]
        · rw [if_neg same]
          split
          · exact OrderedMap.get_erase_of_ne _ same
          · exact OrderedMap.get_set_of_ne _ _ same
      · cases done

theorem holds_remove {map after : OrderedMap κ (Finset ι)} {removedItem : ι} {removed : κ}
    (done : remove removedItem map removed = some after) (key : κ) (item : ι) :
    Holds after key item ↔
      Holds map key item ∧ ¬(key = removed ∧ item = removedItem) := by
  unfold Holds
  rw [get_remove done]
  by_cases same : key = removed
  · subst same
    rw [if_pos rfl]
    cases found : map.get? key with
    | none => simp
    | some items =>
        simp only [Option.map_some, Option.filter_some, decide_eq_true_eq, true_and,
          Option.some.injEq, exists_eq_left']
        constructor
        · rintro ⟨left, kept, member⟩
          split at kept
          · cases kept
            exact ⟨Finset.mem_of_mem_erase member, Finset.ne_of_mem_erase member⟩
          · cases kept
        · rintro ⟨member, different⟩
          have stays : item ∈ items.erase removedItem := Finset.mem_erase.mpr ⟨different, member⟩
          exact ⟨_, if_pos (Finset.ne_empty_of_mem stays), stays⟩
  · simp [same]

theorem no_empty_remove {map after : OrderedMap κ (Finset ι)} {item : ι} {removed : κ}
    (done : remove item map removed = some after) (kept : NoEmpty map) : NoEmpty after := by
  intro key items found
  rw [get_remove done] at found
  split at found
  · exact of_decide_eq_true (Option.filter_eq_some_iff.mp found).2
  · exact kept key items found

theorem holds_remove_all {keys : List κ} {map after : OrderedMap κ (Finset ι)}
    {removedItem : ι} (done : removeAll removedItem map keys = some after) (key : κ) (item : ι) :
    Holds after key item ↔ Holds map key item ∧ ¬(key ∈ keys ∧ item = removedItem) := by
  induction keys generalizing map with
  | nil =>
      cases done
      simp
  | cons first rest ih =>
      obtain ⟨middle, removed, done⟩ := Option.bind_eq_some_iff.mp done
      rw [ih done, holds_remove removed, List.mem_cons]
      tauto

theorem remove_all_append (item : ι) (first second : List κ) (map : OrderedMap κ (Finset ι)) :
    removeAll item map (first ++ second) =
      (removeAll item map first).bind fun map => removeAll item map second := by
  induction first generalizing map with
  | nil => rfl
  | cons key rest ih =>
      simp only [List.cons_append, removeAll, Option.bind_assoc]
      congr 1
      funext middle
      exact ih middle

theorem no_empty_remove_all {keys : List κ} {map after : OrderedMap κ (Finset ι)} {item : ι}
    (done : removeAll item map keys = some after) (kept : NoEmpty map) : NoEmpty after := by
  induction keys generalizing map with
  | nil =>
      cases done
      exact kept
  | cons first rest ih =>
      obtain ⟨middle, removed, done⟩ := Option.bind_eq_some_iff.mp done
      exact ih done (no_empty_remove removed kept)

/-- A key that occurs twice is missed at its second removal. -/
theorem remove_all_is_some_iff (item : ι) (keys : List κ) (map : OrderedMap κ (Finset ι)) :
    (∃ after, removeAll item map keys = some after) ↔
      keys.Nodup ∧ ∀ key ∈ keys, Holds map key item := by
  induction keys generalizing map with
  | nil => simp [removeAll]
  | cons first rest ih =>
      constructor
      · rintro ⟨after, done⟩
        obtain ⟨middle, removed, done⟩ := Option.bind_eq_some_iff.mp done
        obtain ⟨distinct, held⟩ := (ih middle).mp ⟨after, done⟩
        have heldRest : ∀ key ∈ rest, Holds map key item ∧ ¬(key = first ∧ item = item) :=
          fun key member => (holds_remove removed key item).mp (held key member)
        constructor
        · rw [List.nodup_cons]
          exact ⟨fun again => (heldRest first again).2 ⟨rfl, rfl⟩, distinct⟩
        · intro key member
          rcases List.mem_cons.mp member with rfl | later
          · exact (remove_is_some_iff map item key).mp ⟨middle, removed⟩
          · exact (heldRest key later).1
      · rintro ⟨distinct, held⟩
        rw [List.nodup_cons] at distinct
        obtain ⟨middle, removed⟩ := (remove_is_some_iff map item first).mpr (held first (by simp))
        obtain ⟨after, done⟩ := (ih middle).mpr ⟨distinct.2, fun key member =>
          (holds_remove removed key item).mpr ⟨held key (List.mem_cons_of_mem _ member),
            fun same => distinct.1 (same.1 ▸ member)⟩⟩
        exact ⟨after, Option.bind_eq_some_iff.mpr ⟨middle, removed, done⟩⟩

end KvOffload.SetMap
