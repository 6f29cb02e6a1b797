/-!
Finite maps from text keys. A map is the list of its entries in ascending key order, so two maps
with the same content are equal, and whatever is printed from a map comes out in key order.
-/

namespace BranchingInterview

variable {α β : Type}

/-- Puts a value under a key, in place of what was there. -/
def insertEntry (key : String) (value : α) : List (String × α) → List (String × α)
  | [] => [(key, value)]
  | entry :: rest =>
      if key < entry.1 then (key, value) :: entry :: rest
      else if entry.1 < key then entry :: insertEntry key value rest
      else (key, value) :: rest

/-- The entries in ascending key order; of several under one key the last is kept. -/
def sortEntries (entries : List (String × α)) : List (String × α) :=
  entries.foldl (fun sorted entry => insertEntry entry.1 entry.2 sorted) []

def Ascending (entries : List (String × α)) : Prop :=
  (entries.map Prod.fst).Pairwise (· < ·)

instance (entries : List (String × α)) : Decidable (Ascending entries) :=
  inferInstanceAs (Decidable (List.Pairwise _ _))

theorem ascending_nil : Ascending ([] : List (String × α)) := by simp [Ascending]

theorem ascending_cons {entry : String × α} {rest : List (String × α)} :
    Ascending (entry :: rest) ↔ (∀ other ∈ rest, entry.1 < other.1) ∧ Ascending rest := by
  simp only [Ascending, List.map_cons, List.pairwise_cons, List.mem_map, forall_exists_index,
    and_imp, forall_apply_eq_imp_iff₂]

theorem mem_insertEntry {key : String} {value : α} {entries : List (String × α)}
    {entry : String × α} (hmem : entry ∈ insertEntry key value entries) :
    entry = (key, value) ∨ entry ∈ entries := by
  induction entries with
  | nil => simpa [insertEntry] using hmem
  | cons head rest ih =>
      unfold insertEntry at hmem
      split at hmem
      · simpa using hmem
      · split at hmem
        · rcases List.mem_cons.1 hmem with rfl | hrest
          · simp
          · rcases ih hrest with rfl | hrest
            · simp
            · simp [hrest]
        · rcases List.mem_cons.1 hmem with rfl | hrest
          · simp
          · simp [hrest]

theorem Ascending.insertEntry {entries : List (String × α)} (hascending : Ascending entries)
    (key : String) (value : α) : Ascending (insertEntry key value entries) := by
  induction entries with
  | nil => simp [BranchingInterview.insertEntry, Ascending]
  | cons head rest ih =>
      obtain ⟨hhead, hrest⟩ := ascending_cons.1 hascending
      unfold BranchingInterview.insertEntry
      split
      next hlt =>
        refine ascending_cons.2 ⟨fun other hother => ?_, hascending⟩
        rcases List.mem_cons.1 hother with rfl | hother
        · exact hlt
        · exact String.lt_trans hlt (hhead other hother)
      next hnot =>
        split
        next hlt =>
          refine ascending_cons.2 ⟨fun other hother => ?_, ih hrest⟩
          rcases mem_insertEntry hother with rfl | hother
          · exact hlt
          · exact hhead other hother
        next hnotGt =>
          have heq : key = head.1 := String.le_antisymm hnotGt hnot
          refine ascending_cons.2 ⟨fun other hother => ?_, hrest⟩
          exact heq ▸ hhead other hother

theorem Ascending.foldl_insertEntry {entries : List (String × α)} {sorted : List (String × α)}
    (hascending : Ascending sorted) :
    Ascending (entries.foldl (fun sorted entry =>
      BranchingInterview.insertEntry entry.1 entry.2 sorted) sorted) := by
  induction entries generalizing sorted with
  | nil => exact hascending
  | cons entry rest ih => exact ih (hascending.insertEntry entry.1 entry.2)

theorem ascending_sortEntries (entries : List (String × α)) : Ascending (sortEntries entries) :=
  Ascending.foldl_insertEntry ascending_nil

theorem mem_of_mem_sortEntries {entries : List (String × α)} {entry : String × α}
    (hmem : entry ∈ sortEntries entries) : entry ∈ entries := by
  suffices hfold : ∀ sorted : List (String × α),
      entry ∈ entries.foldl (fun sorted entry => insertEntry entry.1 entry.2 sorted) sorted →
        entry ∈ sorted ∨ entry ∈ entries by
    simpa using hfold [] hmem
  clear hmem
  intro sorted
  induction entries generalizing sorted with
  | nil => exact Or.inl
  | cons head rest ih =>
      intro hmem
      rcases ih _ hmem with hsorted | hrest
      · rcases mem_insertEntry hsorted with rfl | hsorted
        · simp
        · exact Or.inl hsorted
      · simp [hrest]

@[simp]
theorem insertEntry_nil (key : String) (value : α) : insertEntry key value [] = [(key, value)] :=
  rfl

theorem insertEntry_of_lt {key other : String} (hlt : key < other) (value held : α)
    (rest : List (String × α)) :
    insertEntry key value ((other, held) :: rest) = (key, value) :: (other, held) :: rest := by
  rw [insertEntry, if_pos hlt]

theorem insertEntry_of_gt {key other : String} (hgt : other < key) (value held : α)
    (rest : List (String × α)) :
    insertEntry key value ((other, held) :: rest) =
      (other, held) :: insertEntry key value rest := by
  rw [insertEntry, if_neg (String.lt_asymm hgt), if_pos hgt]

theorem insertEntry_of_eq (key : String) (value held : α) (rest : List (String × α)) :
    insertEntry key value ((key, held) :: rest) = (key, value) :: rest := by
  rw [insertEntry, if_neg (String.lt_irrefl key), if_neg (String.lt_irrefl key)]

theorem insertEntry_swap_of_lt {key other : String} (hlt : key < other) (value held : α)
    (entries : List (String × α)) :
    insertEntry other held (insertEntry key value entries) =
      insertEntry key value (insertEntry other held entries) := by
  induction entries with
  | nil =>
      rw [insertEntry_nil, insertEntry_nil, insertEntry_of_gt hlt, insertEntry_of_lt hlt,
        insertEntry_nil]
  | cons head rest ih =>
      obtain ⟨name, found⟩ := head
      by_cases hkey : key < name
      · rw [insertEntry_of_lt hkey, insertEntry_of_gt hlt]
        by_cases hother : other < name
        · rw [insertEntry_of_lt hother, insertEntry_of_lt hlt]
        · by_cases hgt : name < other
          · rw [insertEntry_of_gt hgt, insertEntry_of_lt hkey]
          · rw [String.le_antisymm hgt hother, insertEntry_of_eq, insertEntry_of_lt hkey]
      · by_cases hgt : name < key
        · have hother := String.lt_trans hgt hlt
          rw [insertEntry_of_gt hgt, insertEntry_of_gt hother, insertEntry_of_gt hother, ih,
            insertEntry_of_gt hgt]
        · have heq := String.le_antisymm hgt hkey
          subst heq
          rw [insertEntry_of_eq, insertEntry_of_gt hlt, insertEntry_of_gt hlt, insertEntry_of_eq]

/-- A key above all others goes to the end. -/
theorem insertEntry_append {sorted : List (String × α)} {key : String} (value : α)
    (hlast : ∀ entry ∈ sorted, entry.1 < key) :
    insertEntry key value sorted = sorted ++ [(key, value)] := by
  induction sorted with
  | nil => rfl
  | cons head rest ih =>
      have hhead := hlast head (by simp)
      rw [insertEntry, if_neg (String.lt_asymm hhead), if_pos hhead,
        ih fun entry hentry => hlast entry (by simp [hentry])]
      rfl

theorem foldl_insertEntry_of_ascending {entries sorted : List (String × α)}
    (hascending : Ascending (sorted ++ entries)) :
    entries.foldl (fun sorted entry => insertEntry entry.1 entry.2 sorted) sorted =
      sorted ++ entries := by
  induction entries generalizing sorted with
  | nil => simp
  | cons entry rest ih =>
      have hlast : ∀ other ∈ sorted, other.1 < entry.1 := by
        intro other hother
        have hparts : (sorted.map Prod.fst ++ (entry :: rest).map Prod.fst).Pairwise (· < ·) :=
          List.map_append ▸ hascending
        exact (List.pairwise_append.1 hparts).2.2 other.1 (List.mem_map_of_mem hother) entry.1
          List.mem_cons_self
      rw [List.foldl_cons, insertEntry_append entry.2 hlast, ih]
      · simp
      · simpa using hascending

theorem sortEntries_of_ascending {entries : List (String × α)} (hascending : Ascending entries) :
    sortEntries entries = entries := by
  have := foldl_insertEntry_of_ascending (by simpa using hascending : Ascending ([] ++ entries))
  simpa [sortEntries] using this

/-- A key below all others goes to the front. -/
theorem sortEntries_append_least {sorted : List (String × α)} (hascending : Ascending sorted)
    {key : String} (value : α) (hleast : ∀ entry ∈ sorted, key < entry.1) :
    sortEntries (sorted ++ [(key, value)]) = (key, value) :: sorted := by
  have hinsert : sortEntries (sorted ++ [(key, value)]) =
      insertEntry key value (sortEntries sorted) := by
    rw [sortEntries, List.foldl_append]
    rfl
  rw [hinsert, sortEntries_of_ascending hascending]
  cases sorted with
  | nil => rfl
  | cons head rest => exact insertEntry_of_lt (hleast head List.mem_cons_self) value head.2 rest

theorem insertEntry_perm {key : String} {entries : List (String × α)}
    (hnew : key ∉ entries.map Prod.fst) (value : α) :
    (insertEntry key value entries).Perm ((key, value) :: entries) := by
  induction entries with
  | nil => exact List.Perm.refl _
  | cons head rest ih =>
      rw [List.map_cons, List.mem_cons, not_or] at hnew
      unfold insertEntry
      split
      next => exact List.Perm.refl _
      next hnot =>
        split
        next => exact ((ih hnew.2).cons head).trans (List.Perm.swap _ _ _)
        next hnotGt => exact absurd (String.le_antisymm hnotGt hnot) hnew.1

/-- Under distinct keys no entry is lost. -/
theorem sortEntries_perm {entries : List (String × α)} (hnodup : (entries.map Prod.fst).Nodup) :
    (sortEntries entries).Perm entries := by
  suffices hfold : ∀ sorted : List (String × α), ((sorted ++ entries).map Prod.fst).Nodup →
      (entries.foldl (fun sorted entry => insertEntry entry.1 entry.2 sorted) sorted).Perm
        (sorted ++ entries) by
    exact hfold [] hnodup
  clear hnodup
  induction entries with
  | nil => simp
  | cons entry rest ih =>
      intro sorted hnodup
      have hmoved : (sorted ++ entry :: rest).Perm (entry :: (sorted ++ rest)) := List.perm_middle
      have hkeys : (entry.1 :: (sorted ++ rest).map Prod.fst).Nodup :=
        (hmoved.map Prod.fst).nodup hnodup
      have hnew : entry.1 ∉ sorted.map Prod.fst := by
        intro hmem
        refine (List.nodup_cons.1 hkeys).1 ?_
        rw [List.map_append]
        exact List.mem_append_left _ hmem
      have hinsert := (insertEntry_perm hnew entry.2).append_right rest
      exact (ih _ ((hinsert.map Prod.fst).symm.nodup hkeys)).trans (hinsert.trans hmoved.symm)

theorem Ascending.nodup {entries : List (String × α)} (hascending : Ascending entries) :
    (entries.map Prod.fst).Nodup :=
  hascending.imp String.ne_of_lt

theorem Ascending.eq_of_perm {left right : List (String × α)} (hleft : Ascending left)
    (hright : Ascending right) (hperm : left.Perm right) : left = right := by
  refine hperm.eq_of_pairwise (fun first second _ _ hlt hgt => ?_) (List.pairwise_map.1 hleft)
    (List.pairwise_map.1 hright)
  exact absurd hgt (String.lt_asymm hlt)

def lookupEntry (key : String) (entries : List (String × α)) : Option α :=
  (entries.find? fun entry => entry.1 == key).map Prod.snd

theorem mem_of_lookupEntry {key : String} {value : α} {entries : List (String × α)}
    (hfound : lookupEntry key entries = some value) : (key, value) ∈ entries := by
  obtain ⟨entry, hentry, rfl⟩ := Option.map_eq_some_iff.1 hfound
  have hkey := List.find?_some hentry
  rw [beq_iff_eq] at hkey
  rw [← hkey]
  exact List.mem_of_find?_eq_some hentry

theorem lookupEntry_cons (key : String) (entry : String × α) (entries : List (String × α)) :
    lookupEntry key (entry :: entries) =
      if entry.1 = key then some entry.2 else lookupEntry key entries := by
  by_cases heq : entry.1 = key <;> simp [lookupEntry, heq]

theorem Ascending.lookupEntry_of_mem {entries : List (String × α)} (hascending : Ascending entries)
    {key : String} {value : α} (hmem : (key, value) ∈ entries) :
    lookupEntry key entries = some value := by
  induction entries with
  | nil => cases hmem
  | cons head rest ih =>
      obtain ⟨hhead, hrest⟩ := ascending_cons.1 hascending
      rw [lookupEntry_cons]
      rcases List.mem_cons.1 hmem with rfl | hlater
      · exact if_pos rfl
      · rw [if_neg (String.ne_of_lt (hhead _ hlater)), ih hrest hlater]

theorem lookupEntry_insertEntry (key other : String) (value : α) (entries : List (String × α)) :
    lookupEntry other (insertEntry key value entries) =
      if key = other then some value else lookupEntry other entries := by
  induction entries with
  | nil => rw [insertEntry, lookupEntry_cons]
  | cons head rest ih =>
      unfold insertEntry
      split
      next => rw [lookupEntry_cons]
      next hnot =>
        split
        next hlt =>
          rw [lookupEntry_cons, ih, lookupEntry_cons]
          by_cases hkey : key = other
          · subst hkey
            rw [if_neg (String.ne_of_lt hlt), if_pos rfl, if_pos rfl]
          · rw [if_neg hkey, if_neg hkey]
        next hnotGt =>
          have heq : key = head.1 := String.le_antisymm hnotGt hnot
          rw [lookupEntry_cons, lookupEntry_cons, ← heq]
          by_cases hkey : key = other
          · rw [if_pos hkey, if_pos hkey]
          · rw [if_neg hkey, if_neg hkey, if_neg hkey]

structure KeyMap (α : Type) where
  entries : List (String × α) := []
  ascending : Ascending entries := by exact ascending_nil
deriving DecidableEq

namespace KeyMap

@[ext]
theorem ext {left right : KeyMap α} (hentries : left.entries = right.entries) : left = right := by
  cases left
  cases right
  cases hentries
  rfl

instance : Inhabited (KeyMap α) := ⟨{}⟩

def empty : KeyMap α := {}

/-- The map of some entries; of several under one key the last is kept. -/
def ofList (entries : List (String × α)) : KeyMap α :=
  ⟨sortEntries entries, ascending_sortEntries entries⟩

def insert (map : KeyMap α) (key : String) (value : α) : KeyMap α :=
  ⟨insertEntry key value map.entries, map.ascending.insertEntry key value⟩

def get? (map : KeyMap α) (key : String) : Option α :=
  lookupEntry key map.entries

/-- Adds the entries of `other`, which win where both maps have a key. -/
def merge (map other : KeyMap α) : KeyMap α :=
  other.entries.foldl (fun merged entry => merged.insert entry.1 entry.2) map

/-- Changes the value under a key, which is `none` when absent. -/
def alter (map : KeyMap α) (key : String) (change : Option α → α) : KeyMap α :=
  map.insert key (change (map.get? key))

theorem get?_insert (map : KeyMap α) (key other : String) (value : α) :
    (map.insert key value).get? other = if key = other then some value else map.get? other :=
  lookupEntry_insertEntry key other value map.entries

theorem get?_eq_some_iff {map : KeyMap α} {key : String} {value : α} :
    map.get? key = some value ↔ (key, value) ∈ map.entries :=
  ⟨mem_of_lookupEntry, map.ascending.lookupEntry_of_mem⟩

theorem insert_swap (map : KeyMap α) {key other : String} (hne : key ≠ other) (value held : α) :
    (map.insert key value).insert other held = (map.insert other held).insert key value := by
  refine ext ?_
  by_cases hlt : key < other
  · exact insertEntry_swap_of_lt hlt value held map.entries
  · have hgt : other < key :=
      Decidable.byContradiction fun hnot => hne (String.le_antisymm hnot hlt)
    exact (insertEntry_swap_of_lt hgt held value map.entries).symm

theorem entries_foldl_insert (entries : List (String × α)) (map : KeyMap α) :
    (entries.foldl (fun map entry => map.insert entry.1 entry.2) map).entries =
      entries.foldl (fun sorted entry => insertEntry entry.1 entry.2 sorted) map.entries := by
  induction entries generalizing map with
  | nil => rfl
  | cons entry rest ih => exact ih (map.insert entry.1 entry.2)

theorem entries_merge (map other : KeyMap α) :
    (map.merge other).entries =
      other.entries.foldl (fun sorted entry => insertEntry entry.1 entry.2 sorted) map.entries :=
  entries_foldl_insert other.entries map

/-- The entries of a map make it up again in whatever order they are put in. -/
theorem foldl_insert_of_perm {entries : List (String × α)} {map : KeyMap α}
    (hperm : entries.Perm map.entries) :
    entries.foldl (fun map entry => map.insert entry.1 entry.2) empty = map := by
  have hsorted := sortEntries_perm ((hperm.map Prod.fst).symm.nodup map.ascending.nodup)
  have heq := (ascending_sortEntries entries).eq_of_perm map.ascending (hsorted.trans hperm)
  exact ext ((entries_foldl_insert entries empty).trans heq)

theorem empty_merge (map : KeyMap α) : empty.merge map = map :=
  ext ((entries_merge empty map).trans (sortEntries_of_ascending map.ascending))

end KeyMap

end BranchingInterview
