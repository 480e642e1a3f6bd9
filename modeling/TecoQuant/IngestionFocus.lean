import TecoQuant.BaseDistinct
import TecoQuant.BaseRoundRobin
import TecoQuant.IngestionUniverse

/-! Which markets an acquisition cycle refreshes: the focused market first and one background market in turn, and
a newly focused market alone. Requests and cycles each hold the lock for their whole effect. -/

namespace TecoQuant.Ingestion

/-- The configured markets, each once. -/
structure Markets where
  symbols : List String
  nodup : symbols.Nodup
  nonempty : symbols ≠ []

/-- `str(value).strip().upper()`. -/
def normalizedSymbol (value : String) : String := PyText.upper (PyText.strip value)

theorem eraseDups_nodup (values : List String) : values.eraseDups.Nodup := Distinct.pairwise_eraseDupsBy id values

/-- The `symbols` argument of the service. -/
def configuredMarkets (values : List String) : Except String Markets :=
  let selected := (values.map normalizedSymbol).eraseDups
  if h : selected ≠ [] ∧ ∀ symbol ∈ selected, symbol ∈ supportedUniverse.map fun definition => definition.symbol then
    .ok ⟨selected, eraseDups_nodup _, h.1⟩
  else .error "symbols must be a non-empty supported-universe subset"

/-- The selection state of the service. -/
structure Rotation (markets : Markets) where
  focusedSymbol : Option String
  focusRefreshPending : Bool
  backgroundCursor : Nat
  focused_mem : ∀ symbol ∈ focusedSymbol, symbol ∈ markets.symbols

namespace Rotation

variable {markets : Markets}

def initial (markets : Markets) : Rotation markets := ⟨none, false, 0, fun _ h => nomatch h⟩

/-- `request_focus` under the lock: what it returns or raises, and the state it leaves. -/
def requestFocus (rotation : Rotation markets) (symbol : String) : Except String Bool × Rotation markets :=
  let selected := normalizedSymbol symbol
  if h : selected ∈ markets.symbols then
    let changed := decide (rotation.focusedSymbol ≠ some selected)
    (.ok changed,
      { rotation with
        focusedSymbol := some selected
        focusRefreshPending := changed || rotation.focusRefreshPending
        focused_mem := fun _ hsome => Option.some.inj hsome ▸ h })
  else (.error "focused symbol must belong to the configured supported universe", rotation)

/-- The markets that are not focused. -/
def background (markets : Markets) (focused : String) : List String := markets.symbols.filter (· ≠ focused)

def workerCycleSymbols (rotation : Rotation markets) : List String × Rotation markets :=
  if markets.symbols.length = 1 then (markets.symbols, { rotation with focusRefreshPending := false })
  else
    match rotation.focusedSymbol with
    | none =>
        ([RoundRobin.due markets.symbols markets.nonempty rotation.backgroundCursor],
          { rotation with backgroundCursor := (rotation.backgroundCursor + 1) % markets.symbols.length })
    | some focused =>
        if rotation.focusRefreshPending then ([focused], { rotation with focusRefreshPending := false })
        else if h : background markets focused = [] then ([focused], rotation)
        else
          ([focused, RoundRobin.due (background markets focused) h rotation.backgroundCursor],
            { rotation with
              backgroundCursor := (rotation.backgroundCursor + 1) % (background markets focused).length })

/-! ### Histories -/

/-- A request of a client or a cycle of the worker. -/
inductive Turn where
  | requestFocus (symbol : String)
  | workerCycle

def turn (rotation : Rotation markets) : Turn → Rotation markets
  | .requestFocus symbol => (rotation.requestFocus symbol).2
  | .workerCycle => rotation.workerCycleSymbols.2

def run (rotation : Rotation markets) (turns : List Turn) : Rotation markets := turns.foldl turn rotation

/-- What the worker's calls return along a history. -/
def batches (rotation : Rotation markets) : List Turn → List (List String)
  | [] => []
  | .requestFocus symbol :: turns => batches (rotation.requestFocus symbol).2 turns
  | .workerCycle :: turns => rotation.workerCycleSymbols.1 :: batches rotation.workerCycleSymbols.2 turns

/-- The focus stays what it is through a history. -/
def FocusKept (rotation : Rotation markets) (turns : List Turn) : Prop :=
  ∀ before, before <+: turns → (rotation.run before).focusedSymbol = rotation.focusedSymbol

theorem FocusKept.head {rotation : Rotation markets} {first : Turn} {turns : List Turn}
    (h : rotation.FocusKept (first :: turns)) : (rotation.turn first).focusedSymbol = rotation.focusedSymbol :=
  h [first] (List.cons_prefix_cons.mpr ⟨rfl, List.nil_prefix⟩)

theorem FocusKept.tail {rotation : Rotation markets} {first : Turn} {turns : List Turn}
    (h : rotation.FocusKept (first :: turns)) : (rotation.turn first).FocusKept turns := by
  intro before hbefore
  exact (h (first :: before) (List.cons_prefix_cons.mpr ⟨rfl, hbefore⟩)).trans h.head.symm

/-! ### One call -/

section Call

variable (rotation : Rotation markets)

/-- A call keeps the focus. -/
theorem workerCycleSymbols_focusedSymbol : rotation.workerCycleSymbols.2.focusedSymbol = rotation.focusedSymbol := by
  unfold workerCycleSymbols
  split
  · rfl
  · split
    · rfl
    · split
      · rfl
      · split <;> rfl

/-- A set focus comes first. -/
theorem head_workerCycleSymbols {focused : String} (hfocus : rotation.focusedSymbol = some focused) :
    rotation.workerCycleSymbols.1.head? = some focused := by
  unfold workerCycleSymbols
  split
  · rename_i hone
    obtain ⟨only, hsymbols⟩ := List.length_eq_one_iff.mp hone
    have hmem := rotation.focused_mem focused hfocus
    rw [hsymbols] at hmem ⊢
    rw [List.mem_singleton.mp hmem]
    rfl
  · split
    · rename_i hnone
      cases hnone.symm.trans hfocus
    · rename_i other hother
      obtain rfl := Option.some.inj (hother.symm.trans hfocus)
      split
      · rfl
      · split <;> rfl

/-- A call returns one or two configured symbols, each once. -/
theorem workerCycleSymbols_spec :
    rotation.workerCycleSymbols.1.Nodup ∧ (∀ symbol ∈ rotation.workerCycleSymbols.1, symbol ∈ markets.symbols) ∧
      rotation.workerCycleSymbols.1.length ≤ 2 := by
  unfold workerCycleSymbols
  split
  · rename_i hone
    exact ⟨markets.nodup, fun _ h => h, by rw [hone]; omega⟩
  · split
    · refine ⟨List.nodup_singleton _, fun symbol h => ?_, by simp⟩
      rw [List.mem_singleton.mp h]
      exact RoundRobin.due_mem _ _
    · rename_i focused hfocus
      have hmem := rotation.focused_mem focused hfocus
      have hsingle : ∀ symbol ∈ [focused], symbol ∈ markets.symbols :=
        fun symbol h => List.mem_singleton.mp h ▸ hmem
      split
      · exact ⟨List.nodup_singleton _, hsingle, by simp⟩
      · split
        · exact ⟨List.nodup_singleton _, hsingle, by simp⟩
        · rename_i hbackground
          have hdue := RoundRobin.due_mem hbackground rotation.backgroundCursor
          obtain ⟨hconfigured, hother⟩ := List.mem_filter.mp hdue
          refine ⟨?_, ?_, by simp⟩
          · rw [List.nodup_cons, List.mem_singleton]
            exact ⟨fun h => (of_decide_eq_true hother) h.symm, List.nodup_singleton _⟩
          · intro symbol h
            rcases List.mem_cons.mp h with rfl | h
            · exact hmem
            · rw [List.mem_singleton.mp h]
              exact hconfigured

/-- A request that keeps the focus keeps the whole state. -/
theorem requestFocus_of_kept {symbol : String}
    (h : (rotation.requestFocus symbol).2.focusedSymbol = rotation.focusedSymbol) :
    (rotation.requestFocus symbol).2 = rotation := by
  unfold requestFocus at h ⊢
  dsimp only at h ⊢
  split at h
  · rename_i hmem
    rw [dif_pos hmem]
    obtain ⟨focused, pending, cursor, hfocus⟩ := rotation
    obtain rfl : some (normalizedSymbol symbol) = focused := h
    simp
  · rename_i hmem
    rw [dif_neg hmem]

end Call

/-! ### Coverage -/

/-- The markets that the cursor walks under a focus. -/
def walked (markets : Markets) : Option String → List String
  | none => markets.symbols
  | some focused => background markets focused

/-- The calls before the market at an index of the walk is due: a pending focus takes one for itself. -/
def callsLeft (rotation : Rotation markets) (index : Nat) : Nat :=
  RoundRobin.wait (walked markets rotation.focusedSymbol).length rotation.backgroundCursor index +
    if rotation.focusRefreshPending then 1 else 0

theorem walked_length_le (markets : Markets) (focus : Option String) :
    (walked markets focus).length ≤ markets.symbols.length := by
  cases focus with
  | none => exact le_rfl
  | some focused => exact List.length_filter_le _ _

/-- A configured market is the focus or is walked. -/
theorem focused_or_walked {symbol : String} (hmem : symbol ∈ markets.symbols) (focus : Option String) :
    focus = some symbol ∨ symbol ∈ walked markets focus := by
  cases focus with
  | none => exact .inr hmem
  | some focused =>
      by_cases hsame : symbol = focused
      · exact .inl (congrArg some hsame.symm)
      · exact .inr (List.mem_filter.mpr ⟨hmem, decide_eq_true hsame⟩)

/-- A call returns the market at an index of the walk or brings it one call closer. -/
theorem call_progress (rotation : Rotation markets) (hmany : markets.symbols.length ≠ 1) {index : Nat}
    {symbol : String} (hat : (walked markets rotation.focusedSymbol)[index]? = some symbol) :
    symbol ∈ rotation.workerCycleSymbols.1 ∨
      rotation.workerCycleSymbols.2.callsLeft index + 1 = rotation.callsLeft index := by
  obtain ⟨focus, pending, cursor, hfocus⟩ := rotation
  obtain ⟨hindex, rfl⟩ := List.getElem?_eq_some_iff.mp hat
  by_cases hwait : RoundRobin.wait (walked markets focus).length cursor index = 0
  · cases focus with
    | none =>
        left
        have hdue := RoundRobin.due_of_wait markets.nonempty hindex hwait
        simp only [workerCycleSymbols, hmany, if_false]
        exact List.mem_singleton.mpr hdue.symm
    | some focused =>
        have hne : background markets focused ≠ [] := List.length_pos_iff.mp (Nat.zero_lt_of_lt hindex)
        cases pending with
        | true =>
            right
            simp [callsLeft, workerCycleSymbols, hmany]
        | false =>
            left
            have hdue := RoundRobin.due_of_wait hne hindex hwait
            simp only [workerCycleSymbols, hmany, hne, if_false, Bool.false_eq_true, dif_neg, not_false_eq_true]
            exact List.mem_cons_of_mem _ (List.mem_singleton.mpr hdue.symm)
  · right
    have hnext := RoundRobin.wait_next hindex hwait
    cases focus with
    | none =>
        simp only [callsLeft, workerCycleSymbols, hmany, if_false]
        rw [← hnext]
        simp only [walked]
        omega
    | some focused =>
        have hne : background markets focused ≠ [] := List.length_pos_iff.mp (Nat.zero_lt_of_lt hindex)
        cases pending with
        | true => simp [callsLeft, workerCycleSymbols, hmany]
        | false =>
            simp only [callsLeft, workerCycleSymbols, hmany, hne, if_false, dif_neg, not_false_eq_true]
            rw [← hnext]
            simp [walked]

/-- While the focus is kept, enough calls return the market at an index of the walk. -/
theorem exists_batch_of_callsLeft (hmany : markets.symbols.length ≠ 1) {index : Nat} {symbol : String} :
    ∀ (turns : List Turn) (rotation : Rotation markets), rotation.FocusKept turns →
      (walked markets rotation.focusedSymbol)[index]? = some symbol →
      rotation.callsLeft index < (rotation.batches turns).length →
        ∃ batch ∈ rotation.batches turns, symbol ∈ batch := by
  intro turns
  induction turns with
  | nil => exact fun _ _ _ hleft => absurd hleft (Nat.not_lt_zero _)
  | cons first turns ih =>
      intro rotation hkept hat hleft
      have hrest := hkept.tail
      cases first with
      | requestFocus symbol =>
          have hsame := rotation.requestFocus_of_kept (hkept.head)
          rw [turn, hsame] at hrest
          rw [batches, hsame] at hleft ⊢
          exact ih rotation hrest hat hleft
      | workerCycle =>
          rw [batches] at hleft ⊢
          rcases call_progress rotation hmany hat with hmem | hcloser
          · exact ⟨_, List.mem_cons_self, hmem⟩
          · rw [← workerCycleSymbols_focusedSymbol] at hat
            rw [List.length_cons] at hleft
            have hleft : rotation.workerCycleSymbols.2.callsLeft index <
                (rotation.workerCycleSymbols.2.batches turns).length := by omega
            obtain ⟨batch, hbatch, hmem⟩ := ih _ hrest hat hleft
            exact ⟨batch, List.mem_cons_of_mem _ hbatch, hmem⟩

theorem run_focusedSymbol_of_calls {turns : List Turn} (rotation : Rotation markets)
    (h : ∀ turn ∈ turns, turn = .workerCycle) : (rotation.run turns).focusedSymbol = rotation.focusedSymbol := by
  induction turns generalizing rotation with
  | nil => rfl
  | cons first turns ih =>
      obtain rfl := h first List.mem_cons_self
      exact (ih _ fun turn hturn => h turn (List.mem_cons_of_mem _ hturn)).trans
        rotation.workerCycleSymbols_focusedSymbol

/-- Every batch of a history is the answer of one call, at the focus that is kept. -/
theorem batches_of_calls (turns : List Turn) (rotation : Rotation markets) (hkept : rotation.FocusKept turns) :
    ∀ batch ∈ rotation.batches turns, ∃ called : Rotation markets,
      called.focusedSymbol = rotation.focusedSymbol ∧ called.workerCycleSymbols.1 = batch := by
  induction turns generalizing rotation with
  | nil => exact fun _ h => nomatch h
  | cons first turns ih =>
      intro batch hbatch
      have hrest := hkept.tail
      have hfocus := hkept.head
      cases first with
      | requestFocus symbol =>
          obtain ⟨called, hcalled, hsame⟩ := ih _ hrest batch hbatch
          exact ⟨called, hcalled.trans hfocus, hsame⟩
      | workerCycle =>
          rcases List.mem_cons.mp hbatch with rfl | hbatch
          · exact ⟨rotation, rfl, rfl⟩
          · obtain ⟨called, hcalled, hsame⟩ := ih _ hrest batch hbatch
            exact ⟨called, hcalled.trans hfocus, hsame⟩

/-- No market starves: from any state and after any history, `n + 1` calls with the focus kept return every
configured market, the focus first, and one or two configured markets at a time. -/
theorem markets_never_starve (markets : Markets) (start : Rotation markets) (history calls : List Turn)
    (hkept : (start.run history).FocusKept calls)
    (hcalls : ((start.run history).batches calls).length = markets.symbols.length + 1) :
    (∀ symbol ∈ markets.symbols, ∃ batch ∈ (start.run history).batches calls, symbol ∈ batch) ∧
      ∀ batch ∈ (start.run history).batches calls,
        (∀ focused, (start.run history).focusedSymbol = some focused → batch.head? = some focused) ∧
          batch.Nodup ∧ (∀ symbol ∈ batch, symbol ∈ markets.symbols) ∧ batch.length ≤ 2 := by
  have hbatches := batches_of_calls calls _ hkept
  have hheads : ∀ batch ∈ (start.run history).batches calls, ∀ focused,
      (start.run history).focusedSymbol = some focused → batch.head? = some focused := by
    intro batch hbatch focused hfocus
    obtain ⟨called, hcalled, rfl⟩ := hbatches batch hbatch
    exact called.head_workerCycleSymbols (hcalled.trans hfocus)
  refine ⟨fun symbol hsymbol => ?_, fun batch hbatch => ⟨hheads batch hbatch, ?_⟩⟩
  · obtain ⟨first, hfirst⟩ := List.exists_mem_of_length_pos (hcalls.symm ▸ Nat.succ_pos _ :
      0 < ((start.run history).batches calls).length)
    by_cases hone : markets.symbols.length = 1
    · obtain ⟨called, -, rfl⟩ := hbatches first hfirst
      refine ⟨_, hfirst, ?_⟩
      rw [workerCycleSymbols, if_pos hone]
      exact hsymbol
    · rcases focused_or_walked hsymbol (start.run history).focusedSymbol with hfocus | hwalked
      · exact ⟨first, hfirst, List.mem_of_mem_head? (hheads first hfirst symbol hfocus)⟩
      · obtain ⟨index, hat⟩ := List.mem_iff_getElem?.mp hwalked
        refine exists_batch_of_callsLeft hone calls _ hkept hat ?_
        have hwait := RoundRobin.wait_lt (start.run history).backgroundCursor (List.getElem?_eq_some_iff.mp hat).1
        have hwalk := walked_length_le markets (start.run history).focusedSymbol
        rw [hcalls]
        unfold callsLeft
        split <;> omega
  · obtain ⟨called, -, rfl⟩ := hbatches batch hbatch
    exact called.workerCycleSymbols_spec

/-- Two markets, focused on the first right before: three calls return both. -/
theorem markets_never_starve_two :
    let markets : Markets := ⟨["NIFTY", "GOLD"], by decide, by decide⟩
    let focused := (initial markets).run [.requestFocus " nifty"]
    (∀ symbol ∈ markets.symbols, ∃ batch ∈ focused.batches [.workerCycle, .workerCycle, .workerCycle], symbol ∈ batch) ∧
      ∀ batch ∈ focused.batches [.workerCycle, .workerCycle, .workerCycle],
        (∀ symbol, focused.focusedSymbol = some symbol → batch.head? = some symbol) ∧
          batch.Nodup ∧ (∀ symbol ∈ batch, symbol ∈ markets.symbols) ∧ batch.length ≤ 2 := by
  intro markets focused
  refine markets_never_starve markets (initial markets) [.requestFocus " nifty"] [.workerCycle, .workerCycle, .workerCycle]
    (fun before hbefore => ?_) (by decide)
  have hcalls : ∀ turn ∈ before, turn = .workerCycle := fun turn hturn => by
    simpa using hbefore.subset hturn
  exact run_focusedSymbol_of_calls _ hcalls

end Rotation

end TecoQuant.Ingestion
