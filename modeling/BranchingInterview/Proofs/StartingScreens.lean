import BranchingInterview.Proofs.Lookup

/-!
Where an interview starts. A list of starting screens is taken as it is. Without one the marked
screens that have a place are listed, each entry once: by their places, and those of one place as
they are declared. Screens that are not marked make no difference.
-/

namespace BranchingInterview

section Stability

variable {α : Type} {le : α → α → Bool} {items : List α}

/-- Sorting keeps the order of items that are all equal to each other. -/
theorem filter_mergeSort
    (htrans : ∀ first second third, le first second → le second third → le first third)
    (htotal : ∀ first second, le first second || le second first)
    {test : α → Bool} (hequal : ∀ first second, test first → test second → le first second) :
    (items.mergeSort le).filter test = items.filter test := by
  have hclass : (items.filter test).Pairwise fun first second => le first second :=
    List.pairwise_of_forall_mem_list fun first hfirst second hsecond =>
      hequal first second (List.mem_filter.1 hfirst).2 (List.mem_filter.1 hsecond).2
  have hsublist := (List.sublist_mergeSort htrans htotal hclass List.filter_sublist).filter test
  rw [List.filter_filter] at hsublist
  simp only [Bool.and_self] at hsublist
  have hlength := ((List.mergeSort_perm items le).filter test).length_eq
  exact (hsublist.eq_of_length hlength.symm).symm

/-- Of two sorted items that are equal to each other the first is the one that was earlier. -/
theorem pairwise_mergeSort_stable (le : α → α → Bool)
    (htrans : ∀ first second third, le first second → le second third → le first third)
    (htotal : ∀ first second, le first second || le second first)
    {earlier : α → α → Prop} (hitems : items.Pairwise earlier) :
    (items.mergeSort le).Pairwise fun first second =>
      le first second ∧ (le second first → earlier first second) := by
  rw [List.pairwise_iff_forall_sublist]
  intro first second hpair
  have hle := List.pairwise_iff_forall_sublist.1 (List.pairwise_mergeSort htrans htotal items) hpair
  refine ⟨hle, fun hge => ?_⟩
  -- Both are in the class of items equal to the first, which sorting leaves in its order.
  let test : α → Bool := fun item => le item first && le first item
  have hfirst : test first = true := by
    have hself := htotal first first
    simpa [test] using hself
  have hsecond : test second = true := by simp [test, hle, hge]
  have hclass := hpair.filter test
  rw [filter_mergeSort htrans htotal, List.filter_cons_of_pos hfirst,
    List.filter_cons_of_pos hsecond] at hclass
  · exact List.pairwise_iff_forall_sublist.1 hitems (hclass.trans List.filter_sublist)
  · intro one other hone hother
    simp only [test, Bool.and_eq_true] at hone hother
    exact htrans _ _ _ hone.1 hother.2

end Stability

/-- A screen is marked, and this is its place. -/
def Screen.StartsAt (screen : Screen) (place : UInt32) : Prop :=
  screen.isInStartingState = true ∧ screen.startingStateOrder = some place

/-- One entry starts before another: at a lower place, or at the same one and declared earlier. -/
def StartsBefore (entry other : Screen × Nat) : Prop :=
  ∃ place otherPlace, entry.1.StartsAt place ∧ other.1.StartsAt otherPlace ∧
    (place < otherPlace ∨ place = otherPlace ∧ entry.2 < other.2)

namespace Screen

def starts (screen : Screen) : Bool :=
  screen.isInStartingState && screen.startingStateOrder.isSome

/-- The place of a screen that has one. -/
def place (screen : Screen) : UInt32 := screen.startingStateOrder.getD 0

theorem starts_iff {screen : Screen} : screen.starts = true ↔ ∃ place, screen.StartsAt place := by
  simp only [starts, StartsAt, Bool.and_eq_true, Option.isSome_iff_exists, exists_and_left]

theorem startsAt_place {screen : Screen} (hstarts : screen.starts = true) :
    screen.StartsAt screen.place := by
  obtain ⟨place, hmarked, hplace⟩ := starts_iff.1 hstarts
  refine ⟨hmarked, ?_⟩
  rw [Screen.place, hplace, Option.getD_some]

end Screen

namespace Interview

variable (interview : Interview)

theorem pairwise_snd_entries :
    interview.entries.Pairwise fun entry other => entry.2 < other.2 := by
  have hplaces : (interview.entries.map Prod.snd).Pairwise (· < ·) := by
    rw [entries, List.zipIdx_map_snd]
    exact List.pairwise_lt_range' 1
  exact List.pairwise_map.1 hplaces

/-- The entries that an interview without a list of starting screens starts with. -/
def startingEntries : List (Screen × Nat) :=
  (interview.entries.filter (·.1.starts)).mergeSort fun entry other =>
    entry.1.place ≤ other.1.place

theorem mem_startingEntries {entry : Screen × Nat} :
    entry ∈ interview.startingEntries ↔
      entry ∈ interview.entries ∧ ∃ place, entry.1.StartsAt place := by
  rw [startingEntries, List.mem_mergeSort, List.mem_filter, Screen.starts_iff]

theorem nodup_startingEntries : interview.startingEntries.Nodup :=
  (List.mergeSort_perm _ _).nodup_iff.2 (interview.nodup_entries.filter _)

theorem pairwise_startingEntries : interview.startingEntries.Pairwise StartsBefore := by
  have hstable := pairwise_mergeSort_stable
    (fun entry other : Screen × Nat => decide (entry.1.place ≤ other.1.place))
    (fun _ _ _ hle hle' => by
      rw [decide_eq_true_eq] at hle hle' ⊢
      exact UInt32.le_trans hle hle')
    (fun entry other => by simpa using UInt32.le_total entry.1.place other.1.place)
    (interview.pairwise_snd_entries.filter (·.1.starts))
  refine hstable.imp_of_mem fun {entry other} hentry hother ⟨hle, hearlier⟩ => ?_
  have hstarts (entry : Screen × Nat) (hmem : entry ∈ interview.startingEntries) :
      entry.1.StartsAt entry.1.place :=
    Screen.startsAt_place (Screen.starts_iff.2 (interview.mem_startingEntries.1 hmem).2)
  refine ⟨_, _, hstarts entry hentry, hstarts other hother, ?_⟩
  rw [decide_eq_true_eq] at hle
  by_cases hge : other.1.place ≤ entry.1.place
  · exact Or.inr ⟨UInt32.le_antisymm hle hge, hearlier (decide_eq_true hge)⟩
  · exact Or.inl (UInt32.not_le.1 hge)

theorem markedScreens_eq :
    interview.markedScreens =
      (interview.entries.filter (·.1.starts)).map fun entry => (entry.1.place, entry.1.id) := by
  rw [markedScreens, ← interview.map_fst_entries]
  induction interview.entries with
  | nil => rfl
  | cons entry rest ih =>
      obtain ⟨⟨id, title, headerText, marked, order⟩, index⟩ := entry
      cases marked <;> cases order <;> simp [Screen.starts, Screen.place, ih]

/-- The ids of an interview without a list are those of its starting entries. -/
theorem startingIds_of_nil (hlist : interview.startingState = []) :
    interview.startingIds = interview.startingEntries.map fun entry => entry.1.id := by
  have hsort := List.map_mergeSort (l := interview.entries.filter (·.1.starts))
    (r := fun entry other => decide (entry.1.place ≤ other.1.place))
    (s := fun left right : UInt32 × String => decide (left.1 ≤ right.1))
    (f := fun entry => (entry.1.place, entry.1.id)) fun _ _ _ _ => rfl
  rw [startingIds, hlist, List.isEmpty_nil, if_pos rfl, markedScreens_eq, ← hsort, List.map_map]
  rfl

/-- The ids to start at depend on the list and on the marked screens only. -/
theorem startingIds_congr {interview other : Interview}
    (hlist : other.startingState = interview.startingState)
    (hmarked : other.screens.filter (·.isInStartingState) =
      interview.screens.filter (·.isInStartingState)) :
    other.startingIds = interview.startingIds := by
  rw [startingIds, startingIds, hlist, markedScreens, markedScreens, hmarked]

/-- An interview starts at the screens of its list, if there are any. Otherwise it starts at the
entries that are marked and have a place, each of them once: lower places first, and within a place
in order of declaration. Screens that are not marked can be put in, taken out and moved at will. -/
theorem startingIds_arranged (interview : Interview) :
    (interview.startingState ≠ [] → interview.startingIds = interview.startingState) ∧
      (interview.startingState = [] → ∃ entries : List (Screen × Nat),
        interview.startingIds = entries.map (fun entry => entry.1.id) ∧
          (∀ entry, entry ∈ entries ↔
            entry ∈ interview.entries ∧ ∃ place, entry.1.StartsAt place) ∧
          entries.Nodup ∧ entries.Pairwise StartsBefore) ∧
      (∀ before screen after, interview.screens = before ++ after →
        screen.isInStartingState = false →
        { interview with screens := before ++ screen :: after }.startingIds =
          interview.startingIds) ∧
      ∀ other : Interview, other.startingState = interview.startingState →
        other.screens.filter (·.isInStartingState) =
          interview.screens.filter (·.isInStartingState) →
        other.startingIds = interview.startingIds := by
  refine ⟨fun hlist => ?_, fun hlist => ?_, ?_, fun other => startingIds_congr⟩
  · rw [startingIds, if_neg (by simpa using hlist)]
  · exact ⟨interview.startingEntries, interview.startingIds_of_nil hlist,
      fun _ => interview.mem_startingEntries, interview.nodup_startingEntries,
      interview.pairwise_startingEntries⟩
  · intro before screen after hscreens hunmarked
    refine startingIds_congr rfl ?_
    rw [hscreens, List.filter_append, List.filter_append,
      List.filter_cons_of_neg (by rw [hunmarked]; decide)]

/-- Two entries share an id and a place, the last place is taken, and one marked screen has no
place; screens that are not marked stand among them or do not. -/
theorem startingIds_arranged_ties :
    let marked : List Screen :=
      [{ id := "z", isInStartingState := true, startingStateOrder := some 4294967295 },
        { id := "a", isInStartingState := true, startingStateOrder := some 0 },
        { id := "n", isInStartingState := true },
        { id := "a", title := "again", isInStartingState := true, startingStateOrder := some 0 }]
    let plain : Screen := { id := "b", startingStateOrder := some 0 }
    let interview : Interview := { screens := marked }
    let listed : Interview := { screens := marked, startingState := ["ghost", "a", "ghost"] }
    listed.startingIds = ["ghost", "a", "ghost"] ∧
      (∃ entries : List (Screen × Nat),
        interview.startingIds = entries.map (fun entry => entry.1.id) ∧
          entries.Pairwise StartsBefore) ∧
      { interview with screens := plain :: marked }.startingIds = interview.startingIds ∧
      { interview with screens := marked ++ [plain] }.startingIds = interview.startingIds := by
  intro marked plain interview listed
  obtain ⟨hlisted, -, -⟩ := startingIds_arranged listed
  obtain ⟨-, harranged, hput, hsame⟩ := startingIds_arranged interview
  obtain ⟨entries, hids, -, -, hordered⟩ := harranged rfl
  exact ⟨hlisted (by decide), ⟨entries, hids, hordered⟩, hput [] plain marked rfl rfl,
    hsame { interview with screens := marked ++ [plain] } rfl (by decide)⟩

end Interview

end BranchingInterview
