/-!
# Maps in key order

A map from names to values is a list of pairs in increasing order of the names, the order of their
code points. The order is part of the data: it is the order in which members are listed, written
and turned into operations. In a sorted list a name occurs once, so equal maps are equal lists.

Like the rest of the library the operations are total. `insert` and `erase` make sense of any
list, and what they do to `find?` needs no assumption; `Sorted` is what they keep, and what makes
a map determined by its look-ups.

## Main definitions

* `OrderedMap`, `OrderedMap.Sorted`
* `OrderedMap.find?`, `insert`, `erase`, `modify`, `ofList`, `keys`

## Main results

* `OrderedMap.find?_insert`, `find?_erase`, `find?_modify` — the effect of a change on look-ups
* `OrderedMap.find?_foldl_insert`, `length_foldl_insert` — the same for several insertions
* `OrderedMap.Sorted.insert`, `Sorted.erase`, `Sorted.modify`, `sorted_ofList`
* `OrderedMap.Sorted.find?_of_mem`, `Sorted.filter_key` — the entries of a sorted map
-/

namespace Reactive

/-- Pairs of a name and a value, in increasing order of the names. -/
abbrev OrderedMap (α : Type u) := List (String × α)

namespace OrderedMap

variable {α : Type u} {β : Type v}

/-- The names increase strictly along the list. -/
def Sorted (entries : OrderedMap α) : Prop :=
  entries.Pairwise fun a b => a.1 < b.1

instance (entries : OrderedMap α) : Decidable (Sorted entries) :=
  inferInstanceAs (Decidable (entries.Pairwise fun a b => a.1 < b.1))

/-- The names of a map, in order. -/
def keys (entries : OrderedMap α) : List String := entries.map Prod.fst

/-- The value under a name. -/
def find? : OrderedMap α → String → Option α
  | [], _ => none
  | (other, value) :: rest, key => if key = other then some value else find? rest key

/-- Puts a value under a name, in its place in the order, over the value it may have had. -/
def insert : OrderedMap α → String → α → OrderedMap α
  | [], key, value => [(key, value)]
  | (other, old) :: rest, key, value =>
    if key = other then (key, value) :: rest
    else if key < other then (key, value) :: (other, old) :: rest
    else (other, old) :: insert rest key value

/-- Takes a name out of a map. -/
def erase : OrderedMap α → String → OrderedMap α
  | [], _ => []
  | (other, value) :: rest, key =>
    if key = other then erase rest key else (other, value) :: erase rest key

/-- Changes the value under a name, if it has one. -/
def modify : OrderedMap α → String → (α → α) → OrderedMap α
  | [], _, _ => []
  | (other, value) :: rest, key, change =>
    if key = other then (other, change value) :: rest
    else (other, value) :: modify rest key change

/-- The map of some pairs; of two pairs with one name the later counts. -/
def ofList (pairs : List (String × α)) : OrderedMap α :=
  pairs.foldl (fun entries pair => insert entries pair.1 pair.2) []

/-! ### Look-ups -/

@[simp] theorem find?_nil (key : String) : find? ([] : OrderedMap α) key = none := rfl

theorem find?_cons (other : String) (value : α) (rest : OrderedMap α) (key : String) :
    find? ((other, value) :: rest) key = if key = other then some value else find? rest key := rfl

/-- An insertion is seen under its own name and under no other. -/
theorem find?_insert (entries : OrderedMap α) (key : String) (value : α) (k : String) :
    find? (insert entries key value) k = if k = key then some value else find? entries k := by
  induction entries with
  | nil => simp [insert, find?_cons]
  | cons entry rest ih =>
    obtain ⟨other, old⟩ := entry
    by_cases hk : key = other
    · subst hk
      by_cases h : k = key <;> simp [insert, find?_cons, h]
    · by_cases hlt : key < other
      · simp [insert, hk, hlt, find?_cons]
      · simp only [insert, hk, hlt, if_false, find?_cons, ih]
        by_cases h : k = other
        · have hne : ¬ k = key := fun e => hk (e.symm.trans h)
          simp [h ▸ hne, h]
        · simp [h]

/-- An erasure is seen under its own name and under no other. -/
theorem find?_erase (entries : OrderedMap α) (key k : String) :
    find? (erase entries key) k = if k = key then none else find? entries k := by
  induction entries with
  | nil => simp [erase]
  | cons entry rest ih =>
    obtain ⟨other, old⟩ := entry
    by_cases hk : key = other
    · subst hk
      rw [erase, if_pos rfl, ih, find?_cons]
      split <;> rfl
    · simp only [erase, hk, if_false, find?_cons, ih]
      by_cases h : k = other
      · have hne : ¬ k = key := fun e => hk (e.symm.trans h)
        simp [h ▸ hne, h]
      · simp [h]

/-- A change is seen under its own name and under no other. -/
theorem find?_modify (entries : OrderedMap α) (key : String) (change : α → α) (k : String) :
    find? (modify entries key change) k =
      if k = key then (find? entries k).map change else find? entries k := by
  induction entries with
  | nil => simp [modify]
  | cons entry rest ih =>
    obtain ⟨other, old⟩ := entry
    by_cases hk : key = other
    · subst hk
      by_cases h : k = key <;> simp [modify, find?_cons, h]
    · simp only [modify, hk, if_false, find?_cons, ih]
      by_cases h : k = other
      · have hne : ¬ k = key := fun e => hk (e.symm.trans h)
        simp [h ▸ hne, h]
      · simp [h]

/-! ### Several insertions -/

/-- Of several insertions under one name the last counts. -/
theorem find?_foldl_insert (key : β → String) (value : β → α) (items : List β)
    (entries : OrderedMap α) (k : String) :
    find? (items.foldl (fun entries b => insert entries (key b) (value b)) entries) k
      = ((items.reverse.find? fun b => key b = k).map value).or (find? entries k) := by
  induction items generalizing entries with
  | nil => simp
  | cons b rest ih =>
    rw [List.foldl_cons, ih, find?_insert, List.reverse_cons, List.find?_append, Option.map_or,
      Option.or_assoc]
    by_cases h : key b = k
    · simp [h]
    · simp [h, Ne.symm h]

theorem length_insert {entries : OrderedMap α} {key : String} (h : find? entries key = none)
    (value : α) : (insert entries key value).length = entries.length + 1 := by
  induction entries with
  | nil => rfl
  | cons entry rest ih =>
    obtain ⟨other, old⟩ := entry
    rw [find?_cons] at h
    by_cases hk : key = other
    · simp [hk] at h
    · rw [if_neg hk] at h
      simp only [insert, if_neg hk]
      split
      · rfl
      · rw [List.length_cons, ih h, List.length_cons]

/-- Insertions under new and distinct names make the map longer. -/
theorem length_foldl_insert (key : β → String) (value : β → α) {items : List β}
    {entries : OrderedMap α} (hnodup : (items.map key).Nodup)
    (hnew : ∀ b ∈ items, find? entries (key b) = none) :
    (items.foldl (fun entries b => insert entries (key b) (value b)) entries).length
      = entries.length + items.length := by
  induction items generalizing entries with
  | nil => rfl
  | cons b rest ih =>
    rw [List.map_cons, List.nodup_cons] at hnodup
    have hrest : ∀ c ∈ rest, find? (insert entries (key b) (value b)) (key c) = none := by
      intro c hc
      have hne : key c ≠ key b := fun he => hnodup.1 (he ▸ List.mem_map_of_mem hc)
      rw [find?_insert, if_neg hne]
      exact hnew c (List.mem_cons_of_mem _ hc)
    rw [List.foldl_cons, ih hnodup.2 hrest, length_insert (hnew b List.mem_cons_self),
      List.length_cons]
    omega

/-! ### Order -/

theorem mem_insert {entries : OrderedMap α} {key : String} {value : α} {p : String × α}
    (h : p ∈ insert entries key value) : p = (key, value) ∨ p ∈ entries := by
  induction entries with
  | nil => simpa [insert] using h
  | cons entry rest ih =>
    obtain ⟨other, old⟩ := entry
    simp only [insert] at h
    split at h
    · simp only [List.mem_cons] at h ⊢
      exact h.imp_right Or.inr
    · split at h
      · simpa using h
      · simp only [List.mem_cons] at h ⊢
        rcases h with h | h
        · exact Or.inr (Or.inl h)
        · exact (ih h).imp_right Or.inr

theorem mem_of_mem_erase {entries : OrderedMap α} {key : String} {p : String × α}
    (h : p ∈ erase entries key) : p ∈ entries := by
  induction entries with
  | nil => simp [erase] at h
  | cons entry rest ih =>
    obtain ⟨other, old⟩ := entry
    simp only [erase] at h
    split at h
    · exact List.mem_cons_of_mem _ (ih h)
    · rcases List.mem_cons.mp h with h | h
      · exact h ▸ List.mem_cons_self
      · exact List.mem_cons_of_mem _ (ih h)

@[simp] theorem keys_modify (entries : OrderedMap α) (key : String) (change : α → α) :
    keys (modify entries key change) = keys entries := by
  induction entries with
  | nil => rfl
  | cons entry rest ih =>
    obtain ⟨other, old⟩ := entry
    by_cases hk : key = other
    · simp [modify, hk, keys]
    · simpa [modify, hk, keys] using ih

@[simp] theorem length_modify (entries : OrderedMap α) (key : String) (change : α → α) :
    (modify entries key change).length = entries.length := by
  have h := congrArg List.length (keys_modify entries key change)
  simpa [keys] using h

theorem sorted_iff_keys {entries : OrderedMap α} :
    Sorted entries ↔ (keys entries).Pairwise (· < ·) := by
  simp [Sorted, keys, List.pairwise_map]

/-- Two names neither equal nor in one order are in the other. -/
private theorem lt_of_not {a b : String} (hne : ¬ a = b) (hlt : ¬ a < b) : b < a :=
  Decidable.byContradiction fun h =>
    hne (String.le_antisymm (String.not_lt.mp h) (String.not_lt.mp hlt))

theorem Sorted.insert {entries : OrderedMap α} (h : Sorted entries) (key : String) (value : α) :
    Sorted (insert entries key value) := by
  induction entries with
  | nil => simp [OrderedMap.insert, Sorted]
  | cons entry rest ih =>
    obtain ⟨other, old⟩ := entry
    obtain ⟨hhead, hrest⟩ := List.pairwise_cons.mp h
    simp only [OrderedMap.insert]
    split
    · next hk =>
      subst hk
      exact List.pairwise_cons.mpr ⟨hhead, hrest⟩
    · next hne =>
      split
      · next hlt =>
        refine List.pairwise_cons.mpr ⟨fun p hp => ?_, h⟩
        rcases List.mem_cons.mp hp with rfl | hp
        · exact hlt
        · exact String.lt_trans hlt (hhead p hp)
      · next hlt =>
        refine List.pairwise_cons.mpr ⟨fun p hp => ?_, ih hrest⟩
        rcases mem_insert hp with rfl | hp
        · exact lt_of_not hne hlt
        · exact hhead p hp

theorem Sorted.erase {entries : OrderedMap α} (h : Sorted entries) (key : String) :
    Sorted (erase entries key) := by
  induction entries with
  | nil => exact h
  | cons entry rest ih =>
    obtain ⟨other, old⟩ := entry
    obtain ⟨hhead, hrest⟩ := List.pairwise_cons.mp h
    simp only [OrderedMap.erase]
    split
    · exact ih hrest
    · exact List.pairwise_cons.mpr ⟨fun p hp => hhead p (mem_of_mem_erase hp), ih hrest⟩

theorem Sorted.modify {entries : OrderedMap α} (h : Sorted entries) (key : String)
    (change : α → α) : Sorted (modify entries key change) := by
  rw [sorted_iff_keys, keys_modify]
  exact sorted_iff_keys.mp h

theorem Sorted.foldl_insert {entries : OrderedMap α} (h : Sorted entries) (key : β → String)
    (value : β → α) (items : List β) :
    Sorted (items.foldl (fun entries b => OrderedMap.insert entries (key b) (value b)) entries) := by
  induction items generalizing entries with
  | nil => exact h
  | cons b rest ih => exact ih (h.insert (key b) (value b))

theorem sorted_ofList (pairs : List (String × α)) : Sorted (ofList pairs) :=
  Sorted.foldl_insert (List.Pairwise.nil : Sorted []) Prod.fst Prod.snd pairs

/-! ### Entries of sorted maps -/

/-- In a sorted map an entry is what is found under its name. -/
theorem Sorted.find?_of_mem {entries : OrderedMap α} (h : Sorted entries) {key : String} {value : α}
    (hmem : (key, value) ∈ entries) : find? entries key = some value := by
  induction entries with
  | nil => cases hmem
  | cons entry rest ih =>
    obtain ⟨other, old⟩ := entry
    obtain ⟨hhead, hrest⟩ := List.pairwise_cons.mp h
    rw [find?_cons]
    rcases List.mem_cons.mp hmem with heq | hmem
    · obtain ⟨rfl, rfl⟩ := Prod.mk.inj heq
      rw [if_pos rfl]
    · have hlt : other < key := hhead _ hmem
      rw [if_neg fun he : key = other => String.lt_irrefl other (he ▸ hlt)]
      exact ih hrest hmem

/-- In a sorted map one entry at most has a given name. -/
theorem Sorted.filter_key {entries : OrderedMap α} (h : Sorted entries) {key : String} {value : α}
    (hfind : find? entries key = some value) :
    (entries.filter fun entry => entry.1 = key) = [(key, value)] := by
  induction entries with
  | nil => cases hfind
  | cons entry rest ih =>
    obtain ⟨other, old⟩ := entry
    obtain ⟨hhead, hrest⟩ := List.pairwise_cons.mp h
    rw [find?_cons] at hfind
    by_cases hk : key = other
    · subst hk
      obtain rfl : old = value := by simpa using hfind
      have hnone : (rest.filter fun entry => entry.1 = key) = [] := by
        rw [List.filter_eq_nil_iff]
        intro p hp he
        have hlt : key < p.1 := hhead p hp
        exact String.lt_irrefl key (of_decide_eq_true he ▸ hlt)
      rw [List.filter_cons_of_pos (by simp), hnone]
    · rw [if_neg hk] at hfind
      rw [List.filter_cons_of_neg (by simpa using Ne.symm hk), ih hrest hfind]

end OrderedMap

end Reactive
