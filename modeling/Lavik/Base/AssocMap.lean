import Mathlib.Data.List.Nodup
/-!
# Finite maps as association lists

A map of the modelled program is a list of pairs. Writing a key that has a value replaces the value
where it stands, and a new key goes to the end, so undoing a write gives back the very list and two
maps with the same keys in the same order are equal as soon as their lookups agree.
-/

namespace Lavik.Base

open List

/-- A finite map: the pairs of its keys and values. -/
abbrev AssocMap (Key Value : Type) := List (Key × Value)

namespace AssocMap

variable {Key Value : Type}

/-- The keys in their order. -/
def keys (map : AssocMap Key Value) : List Key := map.map Prod.fst

/-- The empty map has no keys. -/
@[simp] theorem keys_nil : keys ([] : AssocMap Key Value) = [] := rfl

/-- The keys behind a first entry. -/
@[simp] theorem keys_cons (entry : Key × Value) (map : AssocMap Key Value) :
    keys (entry :: map) = entry.1 :: keys map := rfl

variable {map : AssocMap Key Value} {key : Key} {value : Value}

/-- The key of an entry is a key. -/
theorem mem_keys_of_mem (found : (key, value) ∈ map) : key ∈ map.keys :=
  mem_map_of_mem (f := Prod.fst) found

variable {Other : Type} {other : Key}

/-- Rewriting values keeps the keys. -/
@[simp] theorem keys_map (map : AssocMap Key Value) (rewrite : Key → Value → Other) :
    keys (map.map fun entry => (entry.1, rewrite entry.1 entry.2)) = map.keys := by
  simp [keys, Function.comp_def]

variable [DecidableEq Key]

/-- The value of the first entry of a key. -/
def get (map : AssocMap Key Value) (key : Key) : Option Value :=
  (map.find? fun entry => entry.1 = key).map Prod.snd

/-- The map without the entries of a key. -/
def erase (map : AssocMap Key Value) (key : Key) : AssocMap Key Value :=
  map.filter fun entry => entry.1 ≠ key

/-- Writes a value where the key stands, or at the end. -/
def set (map : AssocMap Key Value) (key : Key) (value : Value) : AssocMap Key Value :=
  match map with
  | [] => [(key, value)]
  | entry :: rest =>
    if entry.1 = key then (key, value) :: rest else entry :: set rest key value

/-! ## Lookup -/

/-- The empty map has no values. -/
@[simp] theorem get_nil (key : Key) : get ([] : AssocMap Key Value) key = none := rfl

/-- A lookup tries the first entry first. -/
theorem get_cons (entry : Key × Value) (map : AssocMap Key Value) (key : Key) :
    get (entry :: map) key = if entry.1 = key then some entry.2 else map.get key := by
  by_cases same : entry.1 = key <;> simp [get, same]

/-- What a lookup finds is an entry. -/
theorem mem_of_get (found : map.get key = some value) : (key, value) ∈ map := by
  induction map with
  | nil => simp at found
  | cons entry rest ih =>
    rw [get_cons] at found
    split at found
    · next same =>
      rw [← same, ← Option.some.inj found]
      exact mem_cons_self
    · exact mem_cons_of_mem _ (ih found)

/-- A key has a value exactly if it is listed. -/
theorem get_isSome_iff : (map.get key).isSome ↔ key ∈ map.keys := by
  induction map with
  | nil => simp
  | cons entry rest ih =>
    rw [get_cons, keys_cons, mem_cons, ← ih]
    by_cases same : entry.1 = key
    · simp [same]
    · simp [same, Ne.symm same]

/-- A key has no value exactly if it is not listed. -/
theorem get_eq_none_iff : map.get key = none ↔ key ∉ map.keys := by
  rw [← get_isSome_iff, Option.not_isSome_iff_eq_none]

/-- With distinct keys a lookup finds every entry. -/
theorem get_of_mem (nodup : map.keys.Nodup) (found : (key, value) ∈ map) :
    map.get key = some value := by
  induction map with
  | nil => cases found
  | cons entry rest ih =>
    rw [keys_cons, nodup_cons] at nodup
    rw [get_cons]
    cases found with
    | head => simp
    | tail _ later =>
      have apart : entry.1 ≠ key := fun same => nodup.1 (same ▸ mem_keys_of_mem later)
      rw [if_neg apart]
      exact ih nodup.2 later

/-- Maps with the same keys in order and the same lookups are equal. -/
theorem ext_of_keys {other : AssocMap Key Value} (nodup : map.keys.Nodup)
    (sameKeys : other.keys = map.keys) (lookups : ∀ key, other.get key = map.get key) :
    other = map := by
  induction map generalizing other with
  | nil => exact map_eq_nil_iff.mp sameKeys
  | cons entry rest ih =>
    cases other with
    | nil => cases sameKeys
    | cons otherEntry otherRest =>
      simp only [keys_cons, cons.injEq] at sameKeys
      obtain ⟨sameKey, sameRest⟩ := sameKeys
      rw [keys_cons, nodup_cons] at nodup
      have values := lookups entry.1
      rw [get_cons, get_cons, if_pos sameKey, if_pos rfl] at values
      have rests : otherRest = rest := by
        apply ih nodup.2 sameRest
        intro key
        by_cases same : entry.1 = key
        · have gone : get rest key = none := get_eq_none_iff.mpr (same ▸ nodup.1)
          have otherGone : get otherRest key = none :=
            get_eq_none_iff.mpr (sameRest ▸ same ▸ nodup.1)
          rw [gone, otherGone]
        · have lookup := lookups key
          rwa [get_cons, get_cons, if_neg same, if_neg (sameKey ▸ same)] at lookup
      rw [rests, Prod.ext sameKey (Option.some.inj values)]

/-! ## Removal -/

/-- An erased key leaves the values of the others. -/
theorem get_erase_of_ne (map : AssocMap Key Value) (apart : other ≠ key) :
    (map.erase key).get other = map.get other := by
  unfold get erase
  rw [find?_filter]
  congr 2
  funext entry
  by_cases same : entry.1 = other
  · simp [same, apart]
  · simp [same]

/-- The keys after an erasure are the others. -/
theorem mem_keys_erase : other ∈ (map.erase key).keys ↔ other ∈ map.keys ∧ other ≠ key := by
  simp [keys, erase]

/-- An erased key has no value. -/
@[simp] theorem get_erase_self (map : AssocMap Key Value) (key : Key) :
    (map.erase key).get key = none :=
  get_eq_none_iff.mpr fun found => (mem_keys_erase.mp found).2 rfl

/-- Lookups after an erasure. -/
theorem get_erase (map : AssocMap Key Value) (key other : Key) :
    (map.erase key).get other = if other = key then none else map.get other := by
  split
  · next same => rw [same, get_erase_self]
  · next apart => exact get_erase_of_ne map apart

/-- Erasing a key without a value changes nothing. -/
theorem erase_of_get_none (gone : map.get key = none) : map.erase key = map := by
  rw [get_eq_none_iff] at gone
  unfold erase
  rw [filter_eq_self]
  intro entry found
  have apart : entry.1 ≠ key := fun same => gone (same ▸ mem_keys_of_mem found)
  simpa using apart

/-- An erasure keeps the keys distinct. -/
theorem nodup_keys_erase (nodup : map.keys.Nodup) (key : Key) : (map.erase key).keys.Nodup :=
  nodup.sublist ((filter_sublist (l := map)).map Prod.fst)

/-! ## Writing -/

variable (map)

/-- A written key has the value written. -/
@[simp] theorem get_set_self (key : Key) (value : Value) :
    (map.set key value).get key = some value := by
  induction map with
  | nil => simp [set, get_cons]
  | cons entry rest ih =>
    unfold set
    split
    · simp [get_cons]
    · next apart => rw [get_cons, if_neg apart, ih]

/-- A write leaves the values of other keys. -/
theorem get_set_of_ne (value : Value) (apart : other ≠ key) :
    (map.set key value).get other = map.get other := by
  induction map with
  | nil => simp [set, get_cons, Ne.symm apart]
  | cons entry rest ih =>
    unfold set
    split
    · next same => simp [get_cons, same, Ne.symm apart]
    · rw [get_cons, get_cons, ih]

/-- Lookups after a write. -/
theorem get_set (key other : Key) (value : Value) :
    (map.set key value).get other = if other = key then some value else map.get other := by
  split
  · next same => rw [same, get_set_self]
  · next apart => exact get_set_of_ne map value apart

variable {map}

/-- An entry after a write is the one written or an old one. -/
theorem mem_set {entry : Key × Value} (found : entry ∈ map.set key value) :
    entry = (key, value) ∨ entry ∈ map := by
  induction map with
  | nil => exact .inl (mem_singleton.mp found)
  | cons first rest ih =>
    unfold set at found
    split at found
    · rcases mem_cons.mp found with new | old
      · exact .inl new
      · exact .inr (.tail _ old)
    · rcases mem_cons.mp found with same | later
      · exact .inr (same ▸ .head _)
      · exact (ih later).imp_right fun old => .tail _ old

/-- Writing a listed key keeps the keys. -/
theorem keys_set_of_mem (value : Value) (known : key ∈ map.keys) :
    (map.set key value).keys = map.keys := by
  induction map with
  | nil => cases known
  | cons entry rest ih =>
    unfold set
    split
    · next same => simp [same]
    · next apart =>
      rw [keys_cons, mem_cons, or_iff_right (Ne.symm apart)] at known
      rw [keys_cons, keys_cons, ih known]

/-- A new key goes to the end. -/
theorem set_of_get_none (value : Value) (gone : map.get key = none) :
    map.set key value = map ++ [(key, value)] := by
  induction map with
  | nil => rfl
  | cons entry rest ih =>
    rw [get_cons] at gone
    split at gone
    · cases gone
    · next apart =>
      unfold set
      rw [if_neg apart, ih gone, cons_append]

/-- The keys after a write. -/
theorem mem_keys_set : other ∈ (map.set key value).keys ↔ other = key ∨ other ∈ map.keys := by
  rw [← get_isSome_iff, get_set, ← get_isSome_iff]
  by_cases same : other = key <;> simp [same]

/-- A write keeps the keys distinct. -/
theorem nodup_keys_set (nodup : map.keys.Nodup) (key : Key) (value : Value) :
    (map.set key value).keys.Nodup := by
  by_cases known : key ∈ map.keys
  · rwa [keys_set_of_mem value known]
  · rw [set_of_get_none value (get_eq_none_iff.mpr known)]
    simpa [keys] using List.Nodup.append nodup (nodup_singleton key) (disjoint_singleton.mpr known)

/-- Writing the value a key has changes nothing. -/
theorem set_of_get (found : map.get key = some value) : map.set key value = map := by
  induction map with
  | nil => simp at found
  | cons entry rest ih =>
    rw [get_cons] at found
    unfold set
    split at found
    · next same =>
      rw [if_pos same, ← same, ← Option.some.inj found]
    · next apart => rw [if_neg apart, ih found]

/-- The second of two writes to a key is the one that counts. -/
@[simp] theorem set_set (map : AssocMap Key Value) (key : Key) (value later : Value) :
    (map.set key value).set key later = map.set key later := by
  induction map with
  | nil => simp [set]
  | cons entry rest ih =>
    by_cases same : entry.1 = key
    · simp [set, same]
    · simp [set, same, ih]

/-- Erasing a key that was new when written undoes the write. -/
theorem erase_set_of_get_none (value : Value) (gone : map.get key = none) :
    (map.set key value).erase key = map := by
  have kept := erase_of_get_none gone
  unfold erase at kept
  rw [set_of_get_none value gone, erase, filter_append, kept]
  simp

/-- Lookups after rewriting every value. -/
theorem get_map (map : AssocMap Key Value) (rewrite : Key → Value → Other) (key : Key) :
    get (map.map fun entry => (entry.1, rewrite entry.1 entry.2)) key =
      (map.get key).map (rewrite key) := by
  induction map with
  | nil => rfl
  | cons entry rest ih =>
    rw [map_cons, get_cons, get_cons, ih]
    by_cases same : entry.1 = key <;> simp [same]

end AssocMap

end Lavik.Base
