namespace Instrument

/-- Entries under names, in the order in which the names came. Writing under a name that is there
keeps its place; a name that was erased and written again goes to the end. -/
structure Table (α : Type) where
  entries : List (String × α)
  distinct : (entries.map Prod.fst).Nodup

namespace Table

variable {α β : Type}

@[ext] theorem ext {s t : Table α} (h : s.entries = t.entries) : s = t := by
  cases s; cases t; simp_all

def put (key : String) (a : α) : List (String × α) → List (String × α)
  | [] => [(key, a)]
  | (k, b) :: rest => if k = key then (k, a) :: rest else (k, b) :: put key a rest

theorem map_fst_put (key : String) (a : α) (pairs : List (String × α)) :
    (put key a pairs).map Prod.fst =
      if key ∈ pairs.map Prod.fst then pairs.map Prod.fst else pairs.map Prod.fst ++ [key] := by
  induction pairs with
  | nil => simp [put]
  | cons p rest ih =>
    obtain ⟨k, b⟩ := p
    by_cases h : k = key
    · simp [put, h]
    · by_cases hmem : key ∈ rest.map Prod.fst <;> simp_all [put, Ne.symm h]

theorem lookup_cons_ite (key other : String) (a : α) (pairs : List (String × α)) :
    ((key, a) :: pairs).lookup other = if other = key then some a else pairs.lookup other := by
  by_cases h : other = key
  · simp [h]
  · simp [List.lookup_cons, beq_false_of_ne h, h]

theorem lookup_put (key other : String) (a : α) (pairs : List (String × α)) :
    (put key a pairs).lookup other = if other = key then some a else pairs.lookup other := by
  induction pairs with
  | nil => simp [put, lookup_cons_ite]
  | cons p rest ih =>
    obtain ⟨k, b⟩ := p
    by_cases h : k = key
    · by_cases ho : other = key <;> simp [put, lookup_cons_ite, h, ho]
    · by_cases ho : other = k <;> simp [put, lookup_cons_ite, h, ho, ih]

def empty : Table α := ⟨[], by simp⟩

instance : EmptyCollection (Table α) := ⟨empty⟩

instance : Inhabited (Table α) := ⟨empty⟩

def get? (t : Table α) (key : String) : Option α := t.entries.lookup key

def contains (t : Table α) (key : String) : Bool := (t.get? key).isSome

def keys (t : Table α) : List String := t.entries.map Prod.fst

def values (t : Table α) : List α := t.entries.map Prod.snd

def isEmpty (t : Table α) : Bool := t.entries.isEmpty

def size (t : Table α) : Nat := t.entries.length

def insert (t : Table α) (key : String) (a : α) : Table α where
  entries := put key a t.entries
  distinct := by
    rw [map_fst_put]
    split
    · exact t.distinct
    · next h =>
      rw [List.nodup_append]
      exact ⟨t.distinct, by simp, fun x hx y hy => by rintro rfl; simp_all⟩

def erase (t : Table α) (key : String) : Table α where
  entries := t.entries.filter (·.1 != key)
  distinct := t.distinct.sublist ((List.filter_sublist).map Prod.fst)

def map (f : String → α → β) (t : Table α) : Table β where
  entries := t.entries.map fun p => (p.1, f p.1 p.2)
  distinct := by simpa [Function.comp_def] using t.distinct

def modify (t : Table α) (key : String) (f : α → α) : Table α :=
  match t.get? key with
  | some a => t.insert key (f a)
  | none => t

/-- A later pair counts over an earlier one with the same name, in the place of the earlier. -/
def ofList (pairs : List (String × α)) : Table α :=
  pairs.foldl (fun t p => t.insert p.1 p.2) empty

def getD (t : Table α) (key : String) (fallback : α) : α := (t.get? key).getD fallback

@[simp] theorem get?_empty (key : String) : (empty : Table α).get? key = none := rfl

theorem get?_insert (t : Table α) (key other : String) (a : α) :
    (t.insert key a).get? other = if other = key then some a else t.get? other :=
  lookup_put key other a t.entries

@[simp] theorem get?_insert_self (t : Table α) (key : String) (a : α) :
    (t.insert key a).get? key = some a := by
  simp [get?_insert]

theorem get?_insert_of_ne {key other : String} (h : other ≠ key) (t : Table α) (a : α) :
    (t.insert key a).get? other = t.get? other := by
  simp [get?_insert, h]

theorem keys_insert (t : Table α) (key : String) (a : α) :
    (t.insert key a).keys = if key ∈ t.keys then t.keys else t.keys ++ [key] :=
  map_fst_put key a t.entries

theorem get?_erase (t : Table α) (key other : String) :
    (t.erase key).get? other = if other = key then none else t.get? other := by
  obtain ⟨pairs, hpairs⟩ := t
  simp only [get?, erase]
  clear hpairs
  induction pairs with
  | nil => simp
  | cons p rest ih =>
    obtain ⟨k, b⟩ := p
    rw [List.filter_cons]
    by_cases h : k = key
    · subst h
      rw [if_neg (by simp), ih, lookup_cons_ite]
      split <;> rfl
    · rw [if_pos (by simpa using h), lookup_cons_ite, lookup_cons_ite, ih]
      by_cases ho : other = k <;> simp [h, ho]

theorem get?_map (f : String → α → β) (t : Table α) (key : String) :
    (t.map f).get? key = (t.get? key).map (f key) := by
  obtain ⟨pairs, hpairs⟩ := t
  simp only [get?, map]
  clear hpairs
  induction pairs with
  | nil => rfl
  | cons p rest ih =>
    obtain ⟨k, b⟩ := p
    by_cases h : key = k <;> simp [lookup_cons_ite, h, ih]

theorem get?_modify (t : Table α) (key other : String) (f : α → α) :
    (t.modify key f).get? other = if other = key then (t.get? key).map f else t.get? other := by
  rw [modify]
  cases h : t.get? key with
  | none => by_cases ho : other = key <;> simp [ho, h]
  | some a => simp [get?_insert]

theorem put_put (key : String) (a b : α) (pairs : List (String × α)) :
    put key b (put key a pairs) = put key b pairs := by
  induction pairs with
  | nil => simp [put]
  | cons p rest ih =>
    obtain ⟨k, c⟩ := p
    by_cases h : k = key <;> simp [put, h, ih]

theorem insert_insert (t : Table α) (key : String) (a b : α) :
    (t.insert key a).insert key b = t.insert key b :=
  ext (put_put key a b t.entries)

theorem put_self {key : String} {a : α} {pairs : List (String × α)} (h : pairs.lookup key = some a) :
    put key a pairs = pairs := by
  induction pairs with
  | nil => simp at h
  | cons p rest ih =>
    obtain ⟨k, b⟩ := p
    rw [lookup_cons_ite] at h
    by_cases hk : key = k
    · simp_all [put]
    · simp_all [put, Ne.symm hk]

theorem insert_self {t : Table α} {key : String} {a : α} (h : t.get? key = some a) :
    t.insert key a = t :=
  ext (put_self h)

theorem modify_modify (t : Table α) (key : String) (f g : α → α) :
    (t.modify key f).modify key g = t.modify key fun a => g (f a) := by
  simp only [modify]
  cases h : t.get? key with
  | none => simp [h]
  | some a => simp [insert_insert]

theorem map_put (f : String → α → β) (key : String) (a : α) (pairs : List (String × α)) :
    (put key a pairs).map (fun p => (p.1, f p.1 p.2)) =
      put key (f key a) (pairs.map fun p => (p.1, f p.1 p.2)) := by
  induction pairs with
  | nil => rfl
  | cons p rest ih =>
      by_cases h : p.1 = key
      · simp [put, h]
      · simp [put, h, ih]

theorem map_insert (f : String → α → β) (t : Table α) (key : String) (a : α) :
    (t.insert key a).map f = (t.map f).insert key (f key a) :=
  ext (map_put f key a t.entries)

theorem mem_keys_iff (t : Table α) (key : String) : key ∈ t.keys ↔ (t.get? key).isSome := by
  obtain ⟨pairs, hpairs⟩ := t
  simp only [get?, keys]
  clear hpairs
  induction pairs with
  | nil => simp
  | cons p rest ih =>
    obtain ⟨k, b⟩ := p
    by_cases h : key = k <;> simp [lookup_cons_ite, h, ih]

theorem get?_eq_some_iff (t : Table α) (key : String) (a : α) :
    t.get? key = some a ↔ (key, a) ∈ t.entries := by
  obtain ⟨pairs, hpairs⟩ := t
  simp only [get?]
  induction pairs with
  | nil => simp
  | cons p rest ih =>
    obtain ⟨k, b⟩ := p
    rw [List.map_cons, List.nodup_cons] at hpairs
    rw [lookup_cons_ite, List.mem_cons, Prod.mk.injEq]
    by_cases h : key = k
    · subst h
      have hfresh : (key, a) ∉ rest := fun hmem => hpairs.1 (List.mem_map.2 ⟨(key, a), hmem, rfl⟩)
      simp [hfresh, eq_comm]
    · simp [h, ih hpairs.2]

theorem mem_values_iff (t : Table α) (a : α) : a ∈ t.values ↔ ∃ key, t.get? key = some a := by
  simp only [values, get?_eq_some_iff, List.mem_map, Prod.exists, exists_eq_right]

theorem keys_nodup (t : Table α) : t.keys.Nodup := t.distinct

end Table

end Instrument
