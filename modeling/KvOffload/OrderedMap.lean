import Mathlib.Data.List.Nodup
import Mathlib.Data.List.Basic
import Mathlib.Tactic.Common

/-!
# Insertion-ordered maps

A dictionary with a fixed iteration order: writing a present key keeps its
place, writing a fresh key appends it, and a key can be moved to the end. The
map carries the proof that no key occurs twice, so none of its operations has
a well-formedness precondition.
-/

namespace KvOffload

set_option autoImplicit false

/-- First value bound to `key` in an association list. -/
def assocGet {κ ν : Type} [DecidableEq κ] : List (κ × ν) → κ → Option ν
  | [], _ => none
  | entry :: rest, key => if entry.1 = key then some entry.2 else assocGet rest key

section AssociationLists

variable {κ ν : Type} [DecidableEq κ]

theorem assoc_get_eq_none_iff (entries : List (κ × ν)) (key : κ) :
    assocGet entries key = none ↔ key ∉ entries.map Prod.fst := by
  induction entries with
  | nil => simp [assocGet]
  | cons entry rest ih =>
      by_cases same : entry.1 = key
      · simp [assocGet, same]
      · have different : ¬key = entry.1 := fun equal => same equal.symm
        simp [assocGet, same, different, ih]

theorem assoc_get_mem {entries : List (κ × ν)} {key : κ} {value : ν}
    (found : assocGet entries key = some value) : (key, value) ∈ entries := by
  induction entries with
  | nil => simp [assocGet] at found
  | cons entry rest ih =>
      by_cases same : entry.1 = key
      · simp only [assocGet, same, if_true, Option.some.injEq] at found
        simp [← same, ← found]
      · simp only [assocGet, same, if_false] at found
        exact List.mem_cons_of_mem _ (ih found)

theorem assoc_get_of_mem {entries : List (κ × ν)} {key : κ} {value : ν}
    (nodup : (entries.map Prod.fst).Nodup) (member : (key, value) ∈ entries) :
    assocGet entries key = some value := by
  induction entries with
  | nil => simp at member
  | cons entry rest ih =>
      rw [List.map_cons, List.nodup_cons] at nodup
      rcases List.mem_cons.mp member with head | tail
      · simp [assocGet, ← head]
      · have keyInRest : key ∈ rest.map Prod.fst := List.mem_map_of_mem (f := Prod.fst) tail
        have different : entry.1 ≠ key := fun equal => nodup.1 (equal ▸ keyInRest)
        simpa [assocGet, different] using ih nodup.2 tail

theorem assoc_get_append (left right : List (κ × ν)) (key : κ) :
    assocGet (left ++ right) key = (assocGet left key).or (assocGet right key) := by
  induction left with
  | nil => simp [assocGet]
  | cons entry rest ih =>
      by_cases same : entry.1 = key <;> simp [assocGet, same, ih]

theorem assoc_get_filter_ne (entries : List (κ × ν)) (removed key : κ) :
    assocGet (entries.filter fun entry => entry.1 ≠ removed) key =
      if key = removed then none else assocGet entries key := by
  induction entries with
  | nil => simp [assocGet]
  | cons entry rest ih =>
      by_cases dropped : entry.1 = removed
      · rw [List.filter_cons_of_neg (by simp [dropped]), ih]
        by_cases same : key = removed
        · simp [same]
        · have different : ¬removed = key := fun equal => same equal.symm
          simp [assocGet, same, dropped, different]
      · rw [List.filter_cons_of_pos (by simp [dropped])]
        by_cases found : entry.1 = key
        · have kept : ¬key = removed := found ▸ dropped
          simp [assocGet, found, kept]
        · simpa [assocGet, found] using ih

/-- Rewrites the value stored under one key, in place. -/
def assocModify (entries : List (κ × ν)) (target : κ) (change : ν → ν) : List (κ × ν) :=
  entries.map fun entry => if entry.1 = target then (entry.1, change entry.2) else entry

theorem assoc_modify_keys (entries : List (κ × ν)) (target : κ) (change : ν → ν) :
    (assocModify entries target change).map Prod.fst = entries.map Prod.fst := by
  simp only [assocModify, List.map_map]
  apply List.map_congr_left
  intro entry member
  by_cases same : entry.1 = target <;> simp [same]

theorem assoc_get_modify (entries : List (κ × ν)) (target key : κ) (change : ν → ν) :
    assocGet (assocModify entries target change) key =
      if key = target then (assocGet entries key).map change else assocGet entries key := by
  induction entries with
  | nil => simp [assocModify, assocGet]
  | cons entry rest ih =>
      simp only [assocModify] at ih
      simp only [assocModify, List.map_cons, assocGet]
      by_cases changed : entry.1 = target
      · by_cases found : target = key
        · simp [changed, found]
        · have notTarget : ¬key = target := fun equal => found equal.symm
          simp only [changed, if_true, found, if_false, notTarget]
          simpa [notTarget] using ih
      · by_cases found : entry.1 = key
        · have notTarget : ¬key = target := found ▸ changed
          simp [found, notTarget]
        · simpa [changed, found] using ih

theorem assoc_get_map (entries : List (κ × ν)) (change : κ → ν → ν) (key : κ) :
    assocGet (entries.map fun entry => (entry.1, change entry.1 entry.2)) key =
      (assocGet entries key).map (change key) := by
  induction entries with
  | nil => rfl
  | cons entry rest ih =>
      rw [List.map_cons, assocGet, assocGet, ih]
      by_cases same : entry.1 = key
      · rw [if_pos same, if_pos same, same]
        rfl
      · rw [if_neg same, if_neg same]

end AssociationLists

structure OrderedMap (κ ν : Type) where
  entries : List (κ × ν)
  nodup : (entries.map Prod.fst).Nodup

namespace OrderedMap

variable {κ ν : Type}

@[ext] theorem ext_entries {left right : OrderedMap κ ν}
    (same : left.entries = right.entries) : left = right := by
  cases left
  cases right
  simpa using same

def empty : OrderedMap κ ν := ⟨[], List.nodup_nil⟩

def keys (map : OrderedMap κ ν) : List κ := map.entries.map Prod.fst

def values (map : OrderedMap κ ν) : List ν := map.entries.map Prod.snd

def size (map : OrderedMap κ ν) : Nat := map.entries.length

theorem keys_nodup (map : OrderedMap κ ν) : map.keys.Nodup := map.nodup

@[simp] theorem keys_empty : (empty : OrderedMap κ ν).keys = [] := rfl

@[simp] theorem size_empty : (empty : OrderedMap κ ν).size = 0 := rfl

theorem keys_length (map : OrderedMap κ ν) : map.keys.length = map.size := by
  simp [keys, size]

/-- Removes the oldest entry. -/
def popFirst (map : OrderedMap κ ν) : Option ((κ × ν) × OrderedMap κ ν) :=
  match map with
  | ⟨[], _⟩ => none
  | ⟨first :: rest, nodup⟩ => some (first, ⟨rest, (List.nodup_cons.mp nodup).2⟩)

/-- Drops the `count` oldest entries. -/
def dropOldest (map : OrderedMap κ ν) (count : Nat) : OrderedMap κ ν :=
  ⟨map.entries.drop count, map.nodup.sublist ((List.drop_sublist ..).map Prod.fst)⟩

/-- Changes every value; the keys and their order stay. -/
def mapValues (map : OrderedMap κ ν) (change : κ → ν → ν) : OrderedMap κ ν :=
  ⟨map.entries.map fun entry => (entry.1, change entry.1 entry.2), by
    rw [List.map_map]
    exact map.nodup⟩

variable [DecidableEq κ]

instance [DecidableEq ν] : DecidableEq (OrderedMap κ ν) := fun left right =>
  decidable_of_iff (left.entries = right.entries)
    ⟨ext_entries, fun same => congrArg OrderedMap.entries same⟩

def get? (map : OrderedMap κ ν) (key : κ) : Option ν := assocGet map.entries key

def contains (map : OrderedMap κ ν) (key : κ) : Bool := (map.get? key).isSome

/-- Removing an absent key leaves the map alone. -/
def erase (map : OrderedMap κ ν) (key : κ) : OrderedMap κ ν :=
  ⟨map.entries.filter fun entry => entry.1 ≠ key,
    map.nodup.sublist (List.filter_sublist.map Prod.fst)⟩

/-- Changes the value of a present key without moving it. -/
def modify (map : OrderedMap κ ν) (key : κ) (change : ν → ν) : OrderedMap κ ν :=
  ⟨assocModify map.entries key change, by rw [assoc_modify_keys]; exact map.nodup⟩

/-- A fresh key goes to the end. -/
def append (map : OrderedMap κ ν) (key : κ) (value : ν) (fresh : map.get? key = none) :
    OrderedMap κ ν :=
  ⟨map.entries ++ [(key, value)], by
    rw [List.map_append, List.nodup_append]
    refine ⟨map.nodup, by simp, ?_⟩
    intro present member last lastMember
    have absent := (assoc_get_eq_none_iff map.entries key).mp fresh
    simp only [List.map_cons, List.map_nil, List.mem_singleton] at lastMember
    exact fun equal => absent (lastMember ▸ equal ▸ member)⟩

/-- Item assignment: a present key keeps its place. -/
def set (map : OrderedMap κ ν) (key : κ) (value : ν) : OrderedMap κ ν :=
  if fresh : map.get? key = none then map.append key value fresh
  else map.modify key fun _ => value

theorem get_erase_self (map : OrderedMap κ ν) (key : κ) :
    (map.erase key).get? key = none := by
  rw [erase, get?, assoc_get_filter_ne, if_pos rfl]

/-- Reinserts a present key as the newest entry. -/
def moveToEnd (map : OrderedMap κ ν) (key : κ) : OrderedMap κ ν :=
  match map.get? key with
  | none => map
  | some value => (map.erase key).append key value (map.get_erase_self key)

@[simp] theorem get_empty (key : κ) : (empty : OrderedMap κ ν).get? key = none := rfl

theorem mem_keys_iff (map : OrderedMap κ ν) (key : κ) :
    key ∈ map.keys ↔ (map.get? key).isSome := by
  have absent : map.get? key = none ↔ key ∉ map.keys := assoc_get_eq_none_iff map.entries key
  rw [Option.isSome_iff_ne_none, ne_eq, absent, not_not]

theorem get_eq_some_iff (map : OrderedMap κ ν) (key : κ) (value : ν) :
    map.get? key = some value ↔ (key, value) ∈ map.entries :=
  ⟨assoc_get_mem, assoc_get_of_mem map.nodup⟩

theorem get_erase (map : OrderedMap κ ν) (removed key : κ) :
    (map.erase removed).get? key = if key = removed then none else map.get? key :=
  assoc_get_filter_ne map.entries removed key

theorem get_modify (map : OrderedMap κ ν) (target key : κ) (change : ν → ν) :
    (map.modify target change).get? key =
      if key = target then (map.get? key).map change else map.get? key :=
  assoc_get_modify map.entries target key change

theorem get_map_values (map : OrderedMap κ ν) (change : κ → ν → ν) (key : κ) :
    (map.mapValues change).get? key = (map.get? key).map (change key) :=
  assoc_get_map map.entries change key

theorem get_append (map : OrderedMap κ ν) (added key : κ) (value : ν)
    (fresh : map.get? added = none) :
    (map.append added value fresh).get? key =
      if key = added then some value else map.get? key := by
  have split := assoc_get_append map.entries [(added, value)] key
  by_cases same : key = added
  · subst same
    have absent : assocGet map.entries key = none := fresh
    simp [append, get?, split, absent, assocGet]
  · have different : ¬added = key := fun equal => same equal.symm
    simp [append, get?, split, assocGet, same, different]

theorem get_set (map : OrderedMap κ ν) (written key : κ) (value : ν) :
    (map.set written value).get? key =
      if key = written then some value else map.get? key := by
  unfold set
  split
  · exact get_append ..
  · rename_i present
    rw [get_modify]
    by_cases same : key = written
    · subst same
      obtain ⟨old, found⟩ := Option.ne_none_iff_exists'.mp present
      simp [found]
    · simp [same]

@[simp] theorem get_set_self (map : OrderedMap κ ν) (key : κ) (value : ν) :
    (map.set key value).get? key = some value := by
  simp [get_set]

theorem get_set_of_ne (map : OrderedMap κ ν) {written key : κ} (value : ν)
    (different : key ≠ written) : (map.set written value).get? key = map.get? key := by
  simp [get_set, different]

theorem get_erase_of_ne (map : OrderedMap κ ν) {removed key : κ}
    (different : key ≠ removed) : (map.erase removed).get? key = map.get? key := by
  simp [get_erase, different]

@[simp] theorem get_move_to_end (map : OrderedMap κ ν) (moved key : κ) :
    (map.moveToEnd moved).get? key = map.get? key := by
  unfold moveToEnd
  split
  · rfl
  · rename_i value found
    rw [get_append, get_erase]
    by_cases same : key = moved <;> simp [same, found]

theorem keys_erase (map : OrderedMap κ ν) (key : κ) :
    (map.erase key).keys = map.keys.filter fun other => other ≠ key := by
  simp only [erase, keys, List.filter_map]
  rfl

/-- What was written under a key goes with it. -/
theorem erase_set (map : OrderedMap κ ν) (key : κ) (value : ν) :
    (map.set key value).erase key = map.erase key := by
  apply ext_entries
  by_cases fresh : map.get? key = none
  · simp [set, fresh, append, erase]
  · simp only [set, fresh, modify, erase, assocModify, dif_neg, not_false_eq_true]
    induction map.entries with
    | nil => rfl
    | cons entry rest ih =>
        by_cases same : entry.1 = key
        · simpa [same] using ih
        · simpa [same] using ih

theorem keys_modify (map : OrderedMap κ ν) (key : κ) (change : ν → ν) :
    (map.modify key change).keys = map.keys :=
  assoc_modify_keys map.entries key change

theorem keys_set_of_fresh (map : OrderedMap κ ν) {key : κ} (value : ν)
    (fresh : map.get? key = none) : (map.set key value).keys = map.keys ++ [key] := by
  simp [set, fresh, append, keys]

theorem entries_set_of_fresh (map : OrderedMap κ ν) {key : κ} (value : ν)
    (fresh : map.get? key = none) : (map.set key value).entries = map.entries ++ [(key, value)] := by
  simp [set, fresh, append]

/-- Written in order, distinct fresh keys stand in that order. -/
theorem entries_set_all {μ : Type} (change : ν → μ) (entries : List (κ × ν))
    (map : OrderedMap κ μ) (distinct : (entries.map Prod.fst).Nodup)
    (fresh : ∀ key ∈ entries.map Prod.fst, map.get? key = none) :
    (entries.foldl (fun map entry => map.set entry.1 (change entry.2)) map).entries =
      map.entries ++ entries.map fun entry => (entry.1, change entry.2) := by
  induction entries generalizing map with
  | nil => exact (List.append_nil _).symm
  | cons entry rest ih =>
      obtain ⟨unlisted, distinct⟩ := List.nodup_cons.mp distinct
      rw [List.foldl_cons, ih _ distinct, entries_set_of_fresh map _ (fresh _ List.mem_cons_self),
        List.append_assoc]
      · rfl
      · intro key member
        rw [get_set_of_ne map _ (by rintro rfl; exact unlisted member)]
        exact fresh key (List.mem_cons_of_mem _ member)

theorem keys_set_of_present (map : OrderedMap κ ν) {key : κ} (value : ν)
    (present : map.get? key ≠ none) : (map.set key value).keys = map.keys := by
  simp [set, present, keys_modify]

theorem keys_move_to_end_of_present (map : OrderedMap κ ν) {key : κ} (present : key ∈ map.keys) :
    (map.moveToEnd key).keys = (map.keys.filter fun other => other ≠ key) ++ [key] := by
  obtain ⟨value, found⟩ := Option.isSome_iff_exists.mp ((map.mem_keys_iff key).mp present)
  rw [← keys_erase]
  unfold moveToEnd
  split
  · rename_i absent
    cases found.symm.trans absent
  · simp [append, keys]

theorem mem_keys_set (map : OrderedMap κ ν) (written key : κ) (value : ν) :
    key ∈ (map.set written value).keys ↔ key = written ∨ key ∈ map.keys := by
  rw [mem_keys_iff, mem_keys_iff, get_set]
  by_cases same : key = written <;> simp [same]

theorem mem_keys_erase (map : OrderedMap κ ν) (removed key : κ) :
    key ∈ (map.erase removed).keys ↔ key ≠ removed ∧ key ∈ map.keys := by
  rw [mem_keys_iff, mem_keys_iff, get_erase]
  by_cases same : key = removed <;> simp [same]

theorem mem_keys_move_to_end (map : OrderedMap κ ν) (moved key : κ) :
    key ∈ (map.moveToEnd moved).keys ↔ key ∈ map.keys := by
  rw [mem_keys_iff, mem_keys_iff, get_move_to_end]

theorem size_move_to_end (map : OrderedMap κ ν) (moved : κ) :
    (map.moveToEnd moved).size = map.size := by
  rw [← keys_length, ← keys_length]
  apply List.Perm.length_eq
  rw [List.perm_ext_iff_of_nodup (keys_nodup _) (keys_nodup _)]
  exact mem_keys_move_to_end map moved

theorem size_erase_le (map : OrderedMap κ ν) (removed : κ) : (map.erase removed).size ≤ map.size :=
  List.length_filter_le _ _

omit [DecidableEq κ] in
theorem size_drop_oldest (map : OrderedMap κ ν) (count : Nat) :
    (map.dropOldest count).size = map.size - count :=
  List.length_drop

theorem size_pos_of_contains (map : OrderedMap κ ν) {key : κ} (present : map.contains key = true) :
    0 < map.size := by
  rw [← keys_length]
  exact List.length_pos_of_mem ((map.mem_keys_iff key).mpr present)

theorem get_drop_oldest_of_none (map : OrderedMap κ ν) (count : Nat) {key : κ}
    (absent : map.get? key = none) : (map.dropOldest count).get? key = none := by
  rw [← Option.not_isSome_iff_eq_none, ← mem_keys_iff] at absent ⊢
  exact fun member => absent (((List.drop_sublist count map.entries).map Prod.fst).subset member)

theorem map_values_set (map : OrderedMap κ ν) (change : κ → ν → ν) (key : κ) (value : ν) :
    (map.set key value).mapValues change = (map.mapValues change).set key (change key value) := by
  have absent : (map.mapValues change).get? key = none ↔ map.get? key = none := by
    rw [get_map_values, Option.map_eq_none_iff]
  apply ext_entries
  unfold set
  by_cases fresh : map.get? key = none
  · rw [dif_pos fresh, dif_pos (absent.mpr fresh)]
    exact List.map_append
  · rw [dif_neg fresh, dif_neg fun gone => fresh (absent.mp gone)]
    show (assocModify map.entries key fun _ => value).map _ =
      assocModify (map.entries.map _) key fun _ => change key value
    unfold assocModify
    rw [List.map_map, List.map_map]
    apply List.map_congr_left
    intro entry _
    by_cases same : entry.1 = key
    · simp [same]
    · simp [same]

end OrderedMap

end KvOffload
