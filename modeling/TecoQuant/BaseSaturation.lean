import Mathlib.Data.Finset.Card
import Mathlib.Data.Finset.Range
import Mathlib.Data.Finset.Sort
import Mathlib.Data.List.Induction
import Mathlib.Data.Multiset.Range
import Mathlib.Logic.Relation

/-! Closing a selection of records under shared identities by repeated sweeps. The selection and the identities
it has met grow while a sweep runs, and the sweeps end with the first that adds nothing. -/

namespace Saturation

variable {α ι : Type*} [DecidableEq ι]

/-- The indexes selected, the identities of the records there, and whether the running sweep has added one. -/
structure State (ι : Type*) where
  selected : Finset Nat
  known : Finset ι
  changed : Bool

def State.empty : State ι := ⟨∅, ∅, false⟩

/-- The record at an index joins the selection. -/
def State.select (identities : α → List ι) (state : State ι) (entry : α × Nat) : State ι where
  selected := insert entry.2 state.selected
  known := state.known ∪ (identities entry.1).toFinset
  changed := true

section Sweeps

variable (identities : α → List ι) (isSeed : α → Bool) (records : List α)

def seedStep (state : State ι) (entry : α × Nat) : State ι :=
  if isSeed entry.1 then state.select identities entry else state

def seeded : State ι := records.zipIdx.foldl (seedStep identities isSeed) State.empty

def visit (state : State ι) (entry : α × Nat) : State ι :=
  if entry.2 ∈ state.selected then state
  else if ∃ identity ∈ identities entry.1, identity ∈ state.known then state.select identities entry
  else state

def sweep (state : State ι) : State ι := records.zipIdx.foldl (visit identities) { state with changed := false }

variable {identities isSeed records} {state : State ι} {entry : α × Nat}

/-- A visit leaves the state alone or selects an index that was not selected. -/
theorem visit_cases (identities : α → List ι) (state : State ι) (entry : α × Nat) :
    visit identities state entry = state ∧
        (entry.2 ∈ state.selected ∨ ∀ identity ∈ identities entry.1, identity ∉ state.known) ∨
      visit identities state entry = state.select identities entry ∧ entry.2 ∉ state.selected ∧
        ∃ identity ∈ identities entry.1, identity ∈ state.known := by
  unfold visit
  by_cases hselected : entry.2 ∈ state.selected
  · exact .inl ⟨if_pos hselected, .inl hselected⟩
  · rw [if_neg hselected]
    by_cases hknown : ∃ identity ∈ identities entry.1, identity ∈ state.known
    · exact .inr ⟨if_pos hknown, hselected, hknown⟩
    · refine .inl ⟨if_neg hknown, .inr fun identity hidentity hmem => hknown ⟨identity, hidentity, hmem⟩⟩

/-- Visits only add to the selection. A flag that is up afterwards was up before, or an index was added. -/
theorem visits_grow (identities : α → List ι) (entries : List (α × Nat)) (state : State ι) :
    state.selected ⊆ (entries.foldl (visit identities) state).selected ∧
      ((entries.foldl (visit identities) state).changed = true → state.changed = true ∨
        ∃ entry ∈ entries, entry.2 ∈ (entries.foldl (visit identities) state).selected ∧
          entry.2 ∉ state.selected) := by
  induction entries generalizing state with
  | nil => exact ⟨subset_rfl, .inl⟩
  | cons entry entries ih =>
      rw [List.foldl_cons]
      obtain ⟨hsubset, hchanged⟩ := ih (visit identities state entry)
      obtain ⟨hsame, -⟩ | ⟨hselect, hnew, -⟩ := visit_cases identities state entry
      · rw [hsame] at hsubset hchanged ⊢
        refine ⟨hsubset, fun h => (hchanged h).imp_right ?_⟩
        rintro ⟨other, hother, hin⟩
        exact ⟨other, List.mem_cons_of_mem _ hother, hin⟩
      · rw [hselect] at hsubset ⊢
        have hinsert : state.selected ⊆ (state.select identities entry).selected := Finset.subset_insert _ _
        refine ⟨hinsert.trans hsubset, fun _ => .inr ⟨entry, List.mem_cons_self, ?_, hnew⟩⟩
        exact hsubset (Finset.mem_insert_self _ _)

theorem selected_subset_sweep : state.selected ⊆ (sweep identities records state).selected :=
  (visits_grow identities records.zipIdx { state with changed := false }).1

/-- The indexes still to be selected. -/
def remaining (records : List α) (state : State ι) : Finset Nat := Finset.range records.length \ state.selected

theorem remaining_sweep_lt (h : (sweep identities records state).changed = true) :
    (remaining records (sweep identities records state)).card < (remaining records state).card := by
  obtain ⟨hsubset, hchanged⟩ := visits_grow identities records.zipIdx { state with changed := false }
  obtain hflag | ⟨entry, hentry, hnew, hold⟩ := hchanged h
  · cases hflag
  · refine Finset.card_lt_card (Finset.ssubset_iff_of_subset ?_ |>.mpr ⟨entry.2, ?_, ?_⟩)
    · exact Finset.sdiff_subset_sdiff subset_rfl hsubset
    · have hlt := (List.getElem?_eq_some_iff.mp (List.mem_zipIdx_iff_getElem?.mp hentry)).1
      exact Finset.mem_sdiff.mpr ⟨Finset.mem_range.mpr hlt, hold⟩
    · exact fun hmem => (Finset.mem_sdiff.mp hmem).2 hnew

end Sweeps

/-- `while changed`: another sweep as long as one adds an index, of which there are only so many. -/
def saturate (identities : α → List ι) (records : List α) (state : State ι) : State ι :=
  if (sweep identities records state).changed then saturate identities records (sweep identities records state)
  else sweep identities records state
termination_by (remaining records state).card
decreasing_by exact remaining_sweep_lt ‹_›

/-- The selection of the records connected to a seed. -/
def close (identities : α → List ι) (isSeed : α → Bool) (records : List α) : State ι :=
  saturate identities records (seeded identities isSeed records)

/-! ### What is selected -/

section Reached

variable (identities : α → List ι) (isSeed : α → Bool) (records : List α)

/-- Two records share an identity. -/
def Linked (left right : α) : Prop := right ∈ records ∧ ∃ identity ∈ identities left, identity ∈ identities right

/-- A chain of shared identities leads from a seed to a record. -/
def Reached (record : α) : Prop :=
  ∃ seed ∈ records, isSeed seed = true ∧ Relation.ReflTransGen (Linked identities records) seed record

/-- In the middle of a sweep: all that is selected or met is reached, and all that is selected is met. -/
structure Sound (state : State ι) : Prop where
  reached : ∀ index ∈ state.selected, ∃ record, records[index]? = some record ∧ Reached identities isSeed records record
  met : ∀ identity ∈ state.known, ∃ record, Reached identities isSeed records record ∧ identity ∈ identities record
  known : ∀ index ∈ state.selected, ∀ record, records[index]? = some record →
    ∀ identity ∈ identities record, identity ∈ state.known

/-- No record that is left out has an identity that is met. -/
def Closed (state : State ι) : Prop :=
  ∀ entry ∈ records.zipIdx, entry.2 ∈ state.selected ∨ ∀ identity ∈ identities entry.1, identity ∉ state.known

variable {identities isSeed records} {state : State ι} {entry : α × Nat} {record other : α}

omit [DecidableEq ι] in
theorem Reached.mem (h : Reached identities isSeed records record) : record ∈ records := by
  obtain ⟨seed, hseed, -, hchain⟩ := h
  obtain rfl | ⟨_, -, hlinked⟩ := Relation.ReflTransGen.cases_tail hchain
  · exact hseed
  · exact hlinked.1

omit [DecidableEq ι] in
theorem Reached.linked (h : Reached identities isSeed records record)
    (hlinked : Linked identities records record other) :
    Reached identities isSeed records other := by
  obtain ⟨seed, hseed, hvalid, hchain⟩ := h
  exact ⟨seed, hseed, hvalid, hchain.tail hlinked⟩

omit [DecidableEq ι] in
/-- A family that holds the seeds and is closed under shared identities holds all that is reached. -/
theorem Reached.induction {family : α → Prop} (h : Reached identities isSeed records record)
    (hseeds : ∀ seed ∈ records, isSeed seed = true → family seed)
    (hclosed : ∀ left ∈ records, ∀ right ∈ records, family left →
      (∃ identity ∈ identities left, identity ∈ identities right) → family right) : family record := by
  obtain ⟨seed, hseed, hvalid, hchain⟩ := h
  induction hchain with
  | refl => exact hseeds seed hseed hvalid
  | tail hchain hlinked ih =>
      have hbefore : Reached identities isSeed records _ := ⟨seed, hseed, hvalid, hchain⟩
      exact hclosed _ hbefore.mem _ hlinked.1 ih hlinked.2

omit [DecidableEq ι] in
theorem Sound.empty : Sound identities isSeed records State.empty :=
  ⟨fun _ h => absurd h (Finset.notMem_empty _), fun _ h => absurd h (Finset.notMem_empty _),
    fun _ h => absurd h (Finset.notMem_empty _)⟩

theorem Sound.select (h : Sound identities isSeed records state) (hentry : entry ∈ records.zipIdx)
    (hreached : Reached identities isSeed records entry.1) :
    Sound identities isSeed records (state.select identities entry) := by
  have hrecord := List.mem_zipIdx_iff_getElem?.mp hentry
  refine ⟨?_, ?_, ?_⟩
  · intro index hindex
    rcases Finset.mem_insert.mp hindex with rfl | hold
    · exact ⟨entry.1, hrecord, hreached⟩
    · exact h.reached index hold
  · intro identity hidentity
    rcases Finset.mem_union.mp hidentity with hold | hnew
    · exact h.met identity hold
    · exact ⟨entry.1, hreached, List.mem_toFinset.mp hnew⟩
  · intro index hindex record hat identity hidentity
    rcases Finset.mem_insert.mp hindex with rfl | hold
    · obtain rfl := Option.some.inj (hrecord.symm.trans hat)
      exact Finset.mem_union_right _ (List.mem_toFinset.mpr hidentity)
    · exact Finset.mem_union_left _ (h.known index hold record hat identity hidentity)

theorem Sound.visit (h : Sound identities isSeed records state) (hentry : entry ∈ records.zipIdx) :
    Sound identities isSeed records (visit identities state entry) := by
  obtain ⟨hsame, -⟩ | ⟨hselect, -, identity, hidentity, hmet⟩ := visit_cases identities state entry
  · rwa [hsame]
  · rw [hselect]
    obtain ⟨record, hreached, hshared⟩ := h.met identity hmet
    have hmem : entry.1 ∈ records := List.mem_of_getElem? (List.mem_zipIdx_iff_getElem?.mp hentry)
    exact h.select hentry (hreached.linked ⟨hmem, identity, hshared, hidentity⟩)

theorem Sound.seedStep (h : Sound identities isSeed records state) (hentry : entry ∈ records.zipIdx) :
    Sound identities isSeed records (seedStep identities isSeed state entry) := by
  unfold Saturation.seedStep
  by_cases hseed : isSeed entry.1 = true
  · rw [if_pos hseed]
    have hmem : entry.1 ∈ records := List.mem_of_getElem? (List.mem_zipIdx_iff_getElem?.mp hentry)
    exact h.select hentry ⟨entry.1, hmem, hseed, .refl⟩
  · rwa [if_neg hseed]

theorem Sound.sweep (h : Sound identities isSeed records state) :
    Sound identities isSeed records (sweep identities records state) :=
  List.foldlRecOn (motive := Sound identities isSeed records) _ _ ⟨h.reached, h.met, h.known⟩
    fun _ hstate _ hentry => hstate.visit hentry

theorem sound_seeded : Sound identities isSeed records (seeded identities isSeed records) :=
  List.foldlRecOn (motive := Sound identities isSeed records) _ _ .empty fun _ hstate _ hentry => hstate.seedStep hentry

/-- Every seed is selected before the first sweep. -/
theorem mem_seeded {index : Nat} (hat : records[index]? = some record) (hseed : isSeed record = true) :
    index ∈ (seeded identities isSeed records).selected := by
  have hgrow : ∀ (entries : List (α × Nat)) (state : State ι),
      state.selected ⊆ (entries.foldl (Saturation.seedStep identities isSeed) state).selected ∧
        ∀ entry ∈ entries, isSeed entry.1 = true →
          entry.2 ∈ (entries.foldl (Saturation.seedStep identities isSeed) state).selected := by
    intro entries
    induction entries with
    | nil => exact fun _ => ⟨subset_rfl, fun _ h => nomatch h⟩
    | cons entry entries ih =>
        intro state
        rw [List.foldl_cons]
        obtain ⟨hsubset, hmem⟩ := ih (Saturation.seedStep identities isSeed state entry)
        have hstep : state.selected ⊆ (Saturation.seedStep identities isSeed state entry).selected := by
          unfold Saturation.seedStep
          split
          · exact Finset.subset_insert _ _
          · exact subset_rfl
        refine ⟨hstep.trans hsubset, fun other hother hvalid => ?_⟩
        rcases List.mem_cons.mp hother with rfl | hother
        · apply hsubset
          rw [Saturation.seedStep, if_pos hvalid]
          exact Finset.mem_insert_self _ _
        · exact hmem other hother hvalid
  exact (hgrow records.zipIdx State.empty).2 (record, index) (List.mem_zipIdx_iff_getElem?.mpr hat) hseed

/-- A sweep whose flag stays down leaves the state as it was, and has found it closed. -/
theorem visits_unchanged (entries : List (α × Nat)) (state : State ι)
    (h : (entries.foldl (Saturation.visit identities) state).changed = false) :
    entries.foldl (Saturation.visit identities) state = state ∧
      ∀ entry ∈ entries, entry.2 ∈ state.selected ∨ ∀ identity ∈ identities entry.1, identity ∉ state.known := by
  induction entries using List.reverseRecOn with
  | nil => exact ⟨rfl, fun _ h => nomatch h⟩
  | append_singleton entries entry ih =>
      rw [List.foldl_append, List.foldl_cons, List.foldl_nil] at h ⊢
      obtain ⟨hsame, hclosed⟩ | ⟨hselect, -⟩ :=
        visit_cases identities (entries.foldl (Saturation.visit identities) state) entry
      · rw [hsame] at h ⊢
        obtain ⟨hstate, hall⟩ := ih h
        refine ⟨hstate, fun other hother => ?_⟩
        rcases List.mem_append.mp hother with hother | hother
        · exact hall other hother
        · rw [List.mem_singleton.mp hother, ← hstate]
          exact hclosed
      · rw [hselect] at h
        cases h

theorem closed_sweep (h : (sweep identities records state).changed = false) :
    Closed identities records (sweep identities records state) := by
  obtain ⟨hsame, hclosed⟩ := visits_unchanged records.zipIdx { state with changed := false } h
  unfold Saturation.sweep
  rw [hsame]
  exact hclosed

/-- The sweeps keep what is sound, lose nothing selected, and end closed. -/
theorem saturate_spec (h : Sound identities isSeed records state) :
    Sound identities isSeed records (saturate identities records state) ∧
      state.selected ⊆ (saturate identities records state).selected ∧
      Closed identities records (saturate identities records state) := by
  induction state using saturate.induct identities records with
  | case1 state hchanged ih =>
      rw [saturate, if_pos hchanged]
      obtain ⟨hsound, hsubset, hclosed⟩ := ih h.sweep
      exact ⟨hsound, selected_subset_sweep.trans hsubset, hclosed⟩
  | case2 state hchanged =>
      rw [saturate, if_neg hchanged]
      exact ⟨h.sweep, selected_subset_sweep, closed_sweep (Bool.eq_false_iff.mpr hchanged)⟩

/-- The selection is the least closure of the seeds under shared identities. -/
theorem mem_close {index : Nat} :
    index ∈ (close identities isSeed records).selected ↔
      ∃ record, records[index]? = some record ∧ Reached identities isSeed records record := by
  obtain ⟨hsound, hsubset, hclosed⟩ :=
    saturate_spec (sound_seeded : Sound identities isSeed records (seeded identities isSeed records))
  refine ⟨hsound.reached index, ?_⟩
  rintro ⟨record, hat, seed, hseed, hvalid, hchain⟩
  induction hchain generalizing index with
  | refl => exact hsubset (mem_seeded hat hvalid)
  | tail hchain hlinked ih =>
      obtain ⟨-, identity, hleft, hright⟩ := hlinked
      have hbefore : Reached identities isSeed records _ := ⟨seed, hseed, hvalid, hchain⟩
      obtain ⟨before, hat'⟩ := List.mem_iff_getElem?.mp hbefore.mem
      have hmet := hsound.known before (ih hat') _ hat' identity hleft
      have hentry : ((_, index) : α × Nat) ∈ records.zipIdx := List.mem_zipIdx_iff_getElem?.mpr hat
      exact (hclosed _ hentry).resolve_right fun hnone => hnone identity hright hmet

omit [DecidableEq ι] in
/-- What is reached does not depend on the order of the records. -/
theorem reached_congr {shuffled : List α} (h : records.Perm shuffled) :
    Reached identities isSeed records record ↔ Reached identities isSeed shuffled record := by
  have hlinked : Linked identities records = Linked identities shuffled := by
    funext left right
    rw [Linked, Linked, h.mem_iff]
  unfold Reached
  rw [hlinked]
  constructor
  · rintro ⟨seed, hseed, hrest⟩
    exact ⟨seed, h.mem_iff.mp hseed, hrest⟩
  · rintro ⟨seed, hseed, hrest⟩
    exact ⟨seed, h.mem_iff.mpr hseed, hrest⟩

/-- An order in which a set of indexes is walked. -/
structure Walk where
  visit : Finset Nat → List Nat
  complete : ∀ indexes, (visit indexes : Multiset Nat) = indexes.val

instance : Inhabited Walk := ⟨fun indexes => indexes.sort (· ≤ ·), fun indexes => indexes.sort_eq _⟩

/-- The records at the selected indexes. -/
def recordsAt (walk : Walk) (records : List α) (state : State ι) : List α :=
  (walk.visit state.selected).filterMap fun index => records[index]?

/-- The records whose index passes a test of the record, in order. -/
theorem filterMap_range_filter (p : α → Bool) (records : List α) :
    ((List.range records.length).filter fun index => (records[index]?).any p).filterMap (fun index => records[index]?) =
      records.filter p := by
  induction records using List.reverseRecOn with
  | nil => rfl
  | append_singleton records record ih =>
      have hbefore : ∀ index ∈ List.range records.length, (records ++ [record])[index]? = records[index]? :=
        fun index hindex => List.getElem?_append_left (List.mem_range.mp hindex)
      have hfilter : ((List.range records.length).filter fun index => ((records ++ [record])[index]?).any p) =
          (List.range records.length).filter fun index => (records[index]?).any p :=
        List.filter_congr fun index hindex => by rw [hbefore index hindex]
      have hmap : ∀ l : List Nat, l ⊆ List.range records.length →
          l.filterMap (fun index => (records ++ [record])[index]?) = l.filterMap fun index => records[index]? :=
        fun l hl => List.filterMap_congr fun index hindex => hbefore index (hl hindex)
      rw [List.length_append, List.length_singleton, List.range_succ, List.filter_append, List.filter_append,
        List.filterMap_append, hfilter, hmap _ fun _ h => (List.mem_filter.mp h).1, ih]
      congr 1
      by_cases hp : p record = true <;> simp [hp]

variable (identities isSeed records) in
/-- The records selected are those reached, each as often as it is listed. -/
theorem recordsAt_close_perm (walk : Walk) [DecidablePred (Reached identities isSeed records)] :
    (recordsAt walk records (close identities isSeed records)).Perm
      (records.filter fun record => Reached identities isSeed records record) := by
  have hselected : (close identities isSeed records).selected = (Finset.range records.length).filter fun index =>
      (records[index]?).any fun record => decide (Reached identities isSeed records record) := by
    refine Finset.ext fun index => ?_
    rw [mem_close, Finset.mem_filter, Finset.mem_range, Option.any_eq_true]
    constructor
    · rintro ⟨record, hat, hreached⟩
      exact ⟨(List.getElem?_eq_some_iff.mp hat).1, record, hat, decide_eq_true hreached⟩
    · rintro ⟨-, record, hat, hreached⟩
      exact ⟨record, hat, of_decide_eq_true hreached⟩
  have hvisit : (walk.visit (close identities isSeed records).selected : Multiset Nat) =
      ((List.range records.length).filter fun index => (records[index]?).any fun record =>
        decide (Reached identities isSeed records record) : List Nat) := by
    rw [walk.complete, hselected, Finset.filter_val, Finset.range_val, Multiset.range, Multiset.filter_coe]
    simp only [Bool.decide_eq_true]
  exact ((Multiset.coe_eq_coe.mp hvisit).filterMap _).trans (List.Perm.of_eq (filterMap_range_filter _ records))

end Reached

end Saturation
