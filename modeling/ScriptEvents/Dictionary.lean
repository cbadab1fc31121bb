/-!
Dictionaries: entries under names, ascending by name. Names are ordered by their code points,
which is also the order of their bytes in UTF-8. The last entry inserted under a name is the one
found there.
-/
namespace ScriptEvents

structure Dictionary (α : Type) where
  entries : List (String × α) := []
  ascending : (entries.map Prod.fst).Pairwise (· < ·) := by exact .nil

namespace Dictionary

variable {α : Type}

def empty : Dictionary α := {}

def keys (d : Dictionary α) : List String := d.entries.map Prod.fst

def size (d : Dictionary α) : Nat := d.entries.length

def isEmpty (d : Dictionary α) : Bool := d.entries.isEmpty

def find? (d : Dictionary α) (name : String) : Option α := d.entries.lookup name

def contains (d : Dictionary α) (name : String) : Bool := (d.find? name).isSome

def insertEntry (name : String) (value : α) : List (String × α) → List (String × α)
  | [] => [(name, value)]
  | (other, kept) :: rest =>
    if name < other then (name, value) :: (other, kept) :: rest
    else if name = other then (name, value) :: rest
    else (other, kept) :: insertEntry name value rest

theorem mem_insertEntry {name : String} {value : α} {entries : List (String × α)} {k : String}
    (h : k ∈ (insertEntry name value entries).map Prod.fst) :
    k = name ∨ k ∈ entries.map Prod.fst := by
  induction entries with
  | nil => simpa [insertEntry] using h
  | cons e rest ih =>
    obtain ⟨other, kept⟩ := e
    simp only [insertEntry] at h
    split at h
    · simpa using h
    · split at h
      · rcases List.mem_cons.1 h with h | h
        · exact .inl h
        · exact .inr (List.mem_cons_of_mem _ h)
      · rcases List.mem_cons.1 h with h | h
        · exact .inr (by simp [h])
        · exact (ih h).imp_right (List.mem_cons_of_mem _)

theorem ascending_insertEntry (name : String) (value : α) {entries : List (String × α)}
    (h : (entries.map Prod.fst).Pairwise (· < ·)) :
    ((insertEntry name value entries).map Prod.fst).Pairwise (· < ·) := by
  induction entries with
  | nil => simp [insertEntry]
  | cons e rest ih =>
    obtain ⟨other, kept⟩ := e
    have hrest := (List.pairwise_cons.1 h).2
    have hall := (List.pairwise_cons.1 h).1
    simp only [insertEntry]
    split
    next hlt =>
      refine List.pairwise_cons.2 ⟨fun k hk => ?_, h⟩
      rcases List.mem_cons.1 hk with hk | hk
      · exact hk ▸ hlt
      · exact String.lt_trans hlt (hall k hk)
    next hlt =>
      split
      next heq => exact List.pairwise_cons.2 ⟨heq ▸ hall, hrest⟩
      next hne =>
        refine List.pairwise_cons.2 ⟨fun k hk => ?_, ih hrest⟩
        rcases mem_insertEntry hk with hk | hk
        · have : other ≤ name := String.not_lt.1 hlt
          exact hk ▸ (String.not_le.1 fun hle => hne (String.le_antisymm hle this))
        · exact hall k hk

def insert (d : Dictionary α) (name : String) (value : α) : Dictionary α :=
  ⟨insertEntry name value d.entries, ascending_insertEntry name value d.ascending⟩

def erase (d : Dictionary α) (name : String) : Dictionary α :=
  ⟨d.entries.filter (·.1 != name),
    d.ascending.sublist (List.filter_sublist.map _)⟩

/-- Inserts entry after entry: of two under one name the later counts. -/
def insertAll (d : Dictionary α) (entries : List (String × α)) : Dictionary α :=
  entries.foldl (fun d (name, value) => d.insert name value) d

def ofList (entries : List (String × α)) : Dictionary α :=
  empty.insertAll entries

theorem lookup_cons_ite (name : String) (value : α) (entries : List (String × α)) (k : String) :
    ((name, value) :: entries).lookup k = if k = name then some value else entries.lookup k := by
  by_cases h : k = name
  · simp [h]
  · have : (k == name) = false := by simpa using h
    simp [List.lookup_cons, this, h]

theorem lookup_insertEntry (name : String) (value : α) (entries : List (String × α)) (k : String) :
    (insertEntry name value entries).lookup k =
      if k = name then some value else entries.lookup k := by
  induction entries with
  | nil => exact lookup_cons_ite name value [] k
  | cons e rest ih =>
    obtain ⟨other, kept⟩ := e
    simp only [insertEntry]
    split
    next => simp only [lookup_cons_ite]
    next =>
      split
      next heq => subst heq; simp only [lookup_cons_ite]; split <;> rfl
      next hne =>
        simp only [lookup_cons_ite, ih]
        by_cases h : k = other
        · simp [h, Ne.symm hne]
        · simp [h]

@[simp] theorem find?_insert (d : Dictionary α) (name : String) (value : α) (k : String) :
    (d.insert name value).find? k = if k = name then some value else d.find? k :=
  lookup_insertEntry name value d.entries k

theorem lookup_filter_ne (name : String) (entries : List (String × α)) (k : String) :
    (entries.filter (·.1 != name)).lookup k = if k = name then none else entries.lookup k := by
  induction entries with
  | nil => simp
  | cons e rest ih =>
    obtain ⟨other, kept⟩ := e
    by_cases ho : other = name
    · subst ho
      by_cases hk : k = other
      · rw [List.filter_cons_of_neg (by simp), ih, if_pos hk, if_pos hk]
      · rw [List.filter_cons_of_neg (by simp), ih, lookup_cons_ite, if_neg hk, if_neg hk, if_neg hk]
    · rw [List.filter_cons_of_pos (by simpa using ho), lookup_cons_ite, lookup_cons_ite, ih]
      by_cases hk : k = other
      · simp [hk, ho]
      · simp [hk]

@[simp] theorem find?_erase (d : Dictionary α) (name k : String) :
    (d.erase name).find? k = if k = name then none else d.find? k :=
  lookup_filter_ne name d.entries k

theorem lookup_eq_none_of_lt {entries : List (String × α)} {name : String}
    (below : ∀ k ∈ entries.map Prod.fst, name < k) : entries.lookup name = none := by
  induction entries with
  | nil => rfl
  | cons e rest ih =>
    obtain ⟨other, kept⟩ := e
    rw [List.map_cons, List.forall_mem_cons] at below
    rw [lookup_cons_ite, if_neg (String.ne_of_lt below.1), ih below.2]

theorem le_of_lookup_eq_some {entries : List (String × α)} {name other : String} {kept value : α}
    (below : ∀ k ∈ entries.map Prod.fst, name < k)
    (found : ((name, kept) :: entries).lookup other = some value) : name ≤ other := by
  refine String.not_lt.1 fun above => ?_
  rw [lookup_cons_ite, if_neg (String.ne_of_lt above),
    lookup_eq_none_of_lt fun k hk => String.lt_trans above (below k hk)] at found
  cases found

theorem entries_ext {entries others : List (String × α)}
    (ascending : (entries.map Prod.fst).Pairwise (· < ·))
    (ascending' : (others.map Prod.fst).Pairwise (· < ·))
    (same : ∀ name, entries.lookup name = others.lookup name) : entries = others := by
  induction entries generalizing others with
  | nil =>
    cases others with
    | nil => rfl
    | cons e rest =>
      have first := same e.1
      rw [lookup_cons_ite, if_pos rfl] at first
      cases first
  | cons e rest ih =>
    obtain ⟨name, value⟩ := e
    have first := same name
    rw [lookup_cons_ite, if_pos rfl] at first
    cases others with
    | nil => cases first
    | cons e' rest' =>
      obtain ⟨name', value'⟩ := e'
      rw [List.map_cons, List.pairwise_cons] at ascending ascending'
      have first' := same name'
      rw [lookup_cons_ite name', if_pos rfl] at first'
      -- Neither can start with a name that the other has not.
      obtain rfl : name = name' := String.le_antisymm
        (le_of_lookup_eq_some ascending.1 first') (le_of_lookup_eq_some ascending'.1 first.symm)
      rw [lookup_cons_ite, if_pos rfl] at first
      cases first
      congr 1
      refine ih ascending.2 ascending'.2 fun other => ?_
      have hother := same other
      rw [lookup_cons_ite, lookup_cons_ite] at hother
      split at hother
      next h =>
        rw [h, lookup_eq_none_of_lt ascending.1, lookup_eq_none_of_lt ascending'.1]
      next => exact hother

@[ext] theorem ext_find? {d d' : Dictionary α} (same : ∀ name, d.find? name = d'.find? name) :
    d = d' := by
  obtain ⟨entries, ascending⟩ := d
  obtain ⟨others, ascending'⟩ := d'
  congr
  exact entries_ext ascending ascending' same

end Dictionary

end ScriptEvents
