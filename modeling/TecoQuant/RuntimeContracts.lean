import TecoQuant.ApiConvergence
import TecoQuant.ExecutionController
import TecoQuant.IngestionCatalog

/-! The contracts that the market-data runtime hands to the execution controller: their registries are merged
and installed as the verified map from symbols to security ids. -/

namespace TecoQuant.Execution

/-- The `ValueError` of a registry that is not installed. -/
inductive RegistryFault where
  | valueError (message : String)
  deriving DecidableEq, Repr

/-- One item of a registry, normalized. -/
def registerInstrument (normalized : List (String × String)) (item : String × String) :
    Except RegistryFault (List (String × String)) :=
  if PyText.Blank item.1 then .error (.valueError "instrument-registry symbols must be non-empty strings")
  else if PyText.Blank item.2 then
    .error (.valueError "instrument-registry security IDs must be non-empty strings")
  else
    Dict.collect (.valueError "instrument registry contains a conflicting symbol") normalized
      (PyText.strip item.1, PyText.strip item.2)

/-- `replace_instrument_registry`. -/
def ExecutionController.replaceInstrumentRegistry (c : ExecutionController) (instruments : List (String × String)) :
    Except RegistryFault ExecutionController := do
  let normalized ← instruments.foldlM registerInstrument []
  return { c with instrumentRegistry := normalized }

end TecoQuant.Execution

namespace TecoQuant.Runtime

open Domain Ingestion Execution Api

/-- `_replace_contracts`, for the registries of the resolved contracts by the symbols they were resolved for. -/
def replaceContracts (c : ExecutionController) (registries : List (String × List (String × String))) :
    Except RegistryFault ExecutionController := do
  let ordered := registries.insertionSort fun left right => left.1 ≤ right.1
  let combined ← (ordered.flatMap Prod.snd).foldlM
    (Dict.collect (.valueError "Dhan contracts contain a conflicting security ID")) []
  c.replaceInstrumentRegistry combined

/-- The registries that an acquisition cycle publishes with its contracts. -/
def registriesOf (contracts : List (String × ResolvedDhanContract)) : List (String × List (String × String)) :=
  contracts.map fun (symbol, resolved) => (symbol, resolved.executionRegistry)

/-! ### Installation -/

/-- The symbol check that a plan for the record has to pass. -/
def Executable (c : ExecutionController) (record : InstrumentMasterRecord) : Prop :=
  c.instrumentRegistry.lookup record.instrument.symbol = some record.instrument.securityId

/-- Two records of different contracts name one symbol for different instruments. -/
def Crossed (contracts : List (String × ResolvedDhanContract)) : Prop :=
  ∃ left ∈ contracts, ∃ right ∈ contracts, left.1 ≠ right.1 ∧
    ∃ record ∈ left.2.contract.optionContracts, ∃ other ∈ right.2.contract.optionContracts,
      record.instrument.symbol = other.instrument.symbol ∧ record.instrument ≠ other.instrument

/-- Every leg of the contracts is executable after the installation, which is refused for crossed contracts only. -/
def InstallsEveryLeg (c : ExecutionController) (contracts : List (String × ResolvedDhanContract)) : Prop :=
  match replaceContracts c (registriesOf contracts) with
  | .ok installed => ∀ entry ∈ contracts, ∀ record ∈ entry.2.contract.optionContracts, Executable installed record
  | .error _ => Crossed contracts

/-- The security id of the last record of a contract that has the symbol. -/
def lastNamed (resolved : ResolvedDhanContract) (symbol : String) : Option String :=
  (resolved.contract.optionContracts.map registryItem).reverse.lookup symbol

/-- Two contracts end on different security ids for one symbol. -/
def Collides (contracts : List (String × ResolvedDhanContract)) : Prop :=
  ∃ left ∈ contracts, ∃ right ∈ contracts, ∃ symbol, ∃ securityId ∈ lastNamed left.2 symbol,
    ∃ other ∈ lastNamed right.2 symbol, securityId ≠ other

/-- No contract ends on a blank symbol or a blank security id. -/
def Named (contracts : List (String × ResolvedDhanContract)) : Prop :=
  ∀ entry ∈ contracts, ∀ symbol, ∀ securityId ∈ lastNamed entry.2 symbol,
    ¬PyText.Blank symbol ∧ ¬PyText.Blank securityId

/-- Within each contract a symbol has one security id. -/
def Clear (contracts : List (String × ResolvedDhanContract)) : Prop :=
  ∀ entry ∈ contracts, Dict.Functional (entry.2.contract.optionContracts.map registryItem)

/-- Symbols and security ids come without surrounding blanks from the normalized master. -/
def Provided (record : InstrumentMasterRecord) : Prop :=
  PyText.strip record.instrument.symbol = record.instrument.symbol ∧
    PyText.strip record.instrument.securityId = record.instrument.securityId

instance (record : InstrumentMasterRecord) : Decidable (Provided record) := inferInstanceAs (Decidable (_ ∧ _))

variable {contracts : List (String × ResolvedDhanContract)}

theorem executionRegistry_nodup (resolved : ResolvedDhanContract) :
    (resolved.executionRegistry.map Prod.fst).Nodup :=
  Dict.update_nodup List.nodup_nil

theorem lookup_executionRegistry (resolved : ResolvedDhanContract) (symbol : String) :
    resolved.executionRegistry.lookup symbol = lastNamed resolved symbol := by
  rw [ResolvedDhanContract.executionRegistry, Dict.lookup_update, lastNamed, List.lookup_nil, Option.or_none]

theorem mem_executionRegistry {resolved : ResolvedDhanContract} {item : String × String} :
    item ∈ resolved.executionRegistry ↔ lastNamed resolved item.1 = some item.2 := by
  rw [← lookup_executionRegistry]
  exact ⟨fun h => Dict.lookup_of_mem (executionRegistry_nodup resolved) h, Dict.mem_of_lookup⟩

/-- The last record with a symbol is a record of the contract. -/
theorem exists_of_lastNamed {resolved : ResolvedDhanContract} {symbol securityId : String}
    (h : lastNamed resolved symbol = some securityId) :
    ∃ record ∈ resolved.contract.optionContracts, registryItem record = (symbol, securityId) := by
  have hmem := Dict.mem_of_lookup h
  rw [List.mem_reverse] at hmem
  exact List.mem_map.mp hmem

/-- A symbol of a contract has a last record. -/
theorem lastNamed_isSome {resolved : ResolvedDhanContract} {record : InstrumentMasterRecord}
    (h : record ∈ resolved.contract.optionContracts) :
    ∃ securityId, lastNamed resolved record.instrument.symbol = some securityId := by
  have hmem : registryItem record ∈ (resolved.contract.optionContracts.map registryItem).reverse :=
    List.mem_reverse.mpr (List.mem_map.mpr ⟨record, h, rfl⟩)
  cases hlast : lastNamed resolved record.instrument.symbol with
  | some securityId => exact ⟨securityId, rfl⟩
  | none => simpa [registryItem] using List.lookup_eq_none_iff.mp hlast _ hmem

/-- Where a symbol has one security id, the last record has it too. -/
theorem lastNamed_of_clear (hclear : Clear contracts) {entry : String × ResolvedDhanContract}
    (hentry : entry ∈ contracts)
    {record : InstrumentMasterRecord} (h : record ∈ entry.2.contract.optionContracts) :
    lastNamed entry.2 record.instrument.symbol = some record.instrument.securityId := by
  obtain ⟨securityId, hlast⟩ := lastNamed_isSome h
  obtain ⟨other, hother, hitem⟩ := exists_of_lastNamed hlast
  have hsame := hclear entry hentry (registryItem other) (List.mem_map.mpr ⟨other, hother, rfl⟩)
    (registryItem record) (List.mem_map.mpr ⟨record, h, rfl⟩) (by rw [hitem]; rfl)
  rw [hitem] at hsame
  rw [hlast]
  exact congrArg some hsame

/-- Contracts that collide are crossed. -/
theorem Collides.crossed (h : Collides contracts) (hkeys : (contracts.map Prod.fst).Nodup) : Crossed contracts := by
  obtain ⟨left, hleft, right, hright, symbol, securityId, hlast, other, hlast', hne⟩ := h
  obtain ⟨record, hrecord, hitem⟩ := exists_of_lastNamed hlast
  obtain ⟨record', hrecord', hitem'⟩ := exists_of_lastNamed hlast'
  obtain ⟨hsymbol, hid⟩ := Prod.mk.inj hitem
  obtain ⟨hsymbol', hid'⟩ := Prod.mk.inj hitem'
  refine ⟨left, hleft, right, hright, fun hkey => ?_, record, hrecord, record', hrecord',
    hsymbol.trans hsymbol'.symm, fun hsame => hne ?_⟩
  · obtain rfl : left = right := List.inj_on_of_nodup_map hkeys hleft hright hkey
    exact hne (Option.some.inj (hlast.symm.trans hlast'))
  · rw [← hid, ← hid', hsame]

/-! ### The merged registries -/

/-- The items of all registries, in the order of the merge. -/
def mergedItems (contracts : List (String × ResolvedDhanContract)) : List (String × String) :=
  ((registriesOf contracts).insertionSort fun left right => left.1 ≤ right.1).flatMap Prod.snd

theorem mem_mergedItems {item : String × String} :
    item ∈ mergedItems contracts ↔ ∃ entry ∈ contracts, lastNamed entry.2 item.1 = some item.2 := by
  simp only [mergedItems, List.mem_flatMap, List.mem_insertionSort, registriesOf, List.mem_map]
  constructor
  · rintro ⟨registry, ⟨entry, hentry, rfl⟩, hitem⟩
    exact ⟨entry, hentry, mem_executionRegistry.mp hitem⟩
  · rintro ⟨entry, hentry, hlast⟩
    exact ⟨_, ⟨entry, hentry, rfl⟩, mem_executionRegistry.mpr hlast⟩

theorem functional_mergedItems : Dict.Functional (mergedItems contracts) ↔ ¬Collides contracts := by
  constructor
  · rintro hfunctional ⟨left, hleft, right, hright, symbol, securityId, hlast, other, hlast', hne⟩
    exact hne (hfunctional (symbol, securityId) (mem_mergedItems.mpr ⟨left, hleft, hlast⟩) (symbol, other)
      (mem_mergedItems.mpr ⟨right, hright, hlast'⟩) rfl)
  · intro hcollides item hitem other hother hkey
    obtain ⟨left, hleft, hlast⟩ := mem_mergedItems.mp hitem
    obtain ⟨right, hright, hlast'⟩ := mem_mergedItems.mp hother
    by_contra hne
    exact hcollides ⟨left, hleft, right, hright, item.1, item.2, hlast, other.2, hkey ▸ hlast', hne⟩

/-- An item is registered as it is, unless it has a blank. -/
theorem registerInstrument_of_provided {item : String × String} (normalized : List (String × String))
    (hprovided : PyText.strip item.1 = item.1 ∧ PyText.strip item.2 = item.2) :
    registerInstrument normalized item =
      if PyText.Blank item.1 then .error (.valueError "instrument-registry symbols must be non-empty strings")
      else if PyText.Blank item.2 then
        .error (.valueError "instrument-registry security IDs must be non-empty strings")
      else Dict.collect (.valueError "instrument registry contains a conflicting symbol") normalized item := by
  rw [registerInstrument, hprovided.1, hprovided.2]

/-- A blank item is refused, whatever was registered before it. -/
theorem foldlM_registerInstrument_blank {instruments : List (String × String)}
    (h : ∃ item ∈ instruments, PyText.Blank item.1 ∨ PyText.Blank item.2) (normalized : List (String × String)) :
    ∃ fault, instruments.foldlM registerInstrument normalized = .error fault := by
  induction instruments generalizing normalized with
  | nil => simp at h
  | cons item instruments ih =>
      rw [List.foldlM_cons]
      cases hstep : registerInstrument normalized item with
      | error fault => exact ⟨fault, rfl⟩
      | ok registered =>
          obtain ⟨blank, hblank, hcase⟩ := h
          rcases List.mem_cons.mp hblank with rfl | hmem
          · unfold registerInstrument at hstep
            rcases hcase with hcase | hcase
            · rw [if_pos hcase] at hstep
              cases hstep
            · split at hstep
              · cases hstep
              · cases hstep
          · exact ih ⟨blank, hmem, hcase⟩ registered

/-- Items without a blank are collected. -/
theorem foldlM_registerInstrument_named {instruments : List (String × String)}
    (hprovided : ∀ item ∈ instruments, PyText.strip item.1 = item.1 ∧ PyText.strip item.2 = item.2)
    (hnamed : ∀ item ∈ instruments, ¬PyText.Blank item.1 ∧ ¬PyText.Blank item.2)
    (normalized : List (String × String)) :
    instruments.foldlM registerInstrument normalized = instruments.foldlM
      (Dict.collect (.valueError "instrument registry contains a conflicting symbol")) normalized := by
  induction instruments generalizing normalized with
  | nil => rfl
  | cons item instruments ih =>
      obtain ⟨hitem, hrest⟩ := List.forall_mem_cons.mp hprovided
      obtain ⟨⟨hsymbol, hid⟩, hnamed⟩ := List.forall_mem_cons.mp hnamed
      rw [List.foldlM_cons, List.foldlM_cons, registerInstrument_of_provided normalized hitem, if_neg hsymbol, if_neg hid]
      exact bind_congr fun registered => ih hrest hnamed registered

/-- The registry is installed when it has no blank item. -/
theorem replaceInstrumentRegistry_cases (c : ExecutionController) {instruments : List (String × String)}
    (hnodup : (instruments.map Prod.fst).Nodup)
    (hprovided : ∀ item ∈ instruments, PyText.strip item.1 = item.1 ∧ PyText.strip item.2 = item.2) :
    match c.replaceInstrumentRegistry instruments with
    | .ok installed => (∀ item ∈ instruments, ¬PyText.Blank item.1 ∧ ¬PyText.Blank item.2) ∧
        ∀ item ∈ instruments, installed.instrumentRegistry.lookup item.1 = some item.2
    | .error _ => ∃ item ∈ instruments, PyText.Blank item.1 ∨ PyText.Blank item.2 := by
  by_cases hblank : ∃ item ∈ instruments, PyText.Blank item.1 ∨ PyText.Blank item.2
  · obtain ⟨fault, hfault⟩ := foldlM_registerInstrument_blank hblank []
    rw [ExecutionController.replaceInstrumentRegistry, hfault]
    exact hblank
  have hnamed : ∀ item ∈ instruments, ¬PyText.Blank item.1 ∧ ¬PyText.Blank item.2 := fun item hitem =>
    not_or.mp fun h => hblank ⟨item, hitem, h⟩
  rw [ExecutionController.replaceInstrumentRegistry, foldlM_registerInstrument_named hprovided hnamed]
  have hcollect := Dict.foldlM_collect (RegistryFault.valueError "instrument registry contains a conflicting symbol")
    instruments [] List.nodup_nil (fun _ h => nomatch h)
  cases hresult : instruments.foldlM
      (Dict.collect (RegistryFault.valueError "instrument registry contains a conflicting symbol")) [] with
  | ok registered =>
      rw [hresult] at hcollect
      obtain ⟨-, hdistinct, hmem⟩ := hcollect
      exact ⟨hnamed, fun item hitem => Dict.lookup_of_mem hdistinct ((hmem item).mpr hitem)⟩
  | error fault =>
      rw [hresult] at hcollect
      refine absurd ?_ hcollect.2
      intro item hitem other hother hkey
      have hvalue := Dict.lookup_of_mem hnodup (show (item.1, item.2) ∈ instruments from hitem)
      have hvalue' := Dict.lookup_of_mem hnodup (show (other.1, other.2) ∈ instruments from hother)
      rw [hkey, hvalue'] at hvalue
      exact (Option.some.inj hvalue).symm

/-- What the installation comes to, by the last records of the contracts. -/
theorem replaceContracts_cases (c : ExecutionController)
    (hprovided : ∀ entry ∈ contracts, ∀ record ∈ entry.2.contract.optionContracts, Provided record) :
    match replaceContracts c (registriesOf contracts) with
    | .ok installed => ¬Collides contracts ∧ Named contracts ∧ ∀ entry ∈ contracts, ∀ symbol securityId,
        lastNamed entry.2 symbol = some securityId → installed.instrumentRegistry.lookup symbol = some securityId
    | .error _ => Collides contracts ∨ ¬Named contracts := by
  have hcollect := Dict.foldlM_collect (RegistryFault.valueError "Dhan contracts contain a conflicting security ID")
    (mergedItems contracts) [] List.nodup_nil (fun _ h => nomatch h)
  rw [List.nil_append, functional_mergedItems] at hcollect
  have hmerged : replaceContracts c (registriesOf contracts) = (do
      let combined ← (mergedItems contracts).foldlM
        (Dict.collect (.valueError "Dhan contracts contain a conflicting security ID")) []
      c.replaceInstrumentRegistry combined) := rfl
  rw [hmerged]
  cases hmerge : (mergedItems contracts).foldlM
      (Dict.collect (RegistryFault.valueError "Dhan contracts contain a conflicting security ID")) [] with
  | error fault =>
      rw [hmerge] at hcollect
      exact .inl (not_not.mp hcollect.2)
  | ok combined =>
      rw [hmerge] at hcollect
      obtain ⟨hcollides, hnodup, hmem⟩ := hcollect
      have hitem : ∀ item, item ∈ combined ↔ ∃ entry ∈ contracts, lastNamed entry.2 item.1 = some item.2 :=
        fun item => (hmem item).trans mem_mergedItems
      have hstripped : ∀ item ∈ combined, PyText.strip item.1 = item.1 ∧ PyText.strip item.2 = item.2 := by
        intro item h
        obtain ⟨entry, hentry, hlast⟩ := (hitem item).mp h
        obtain ⟨record, hrecord, hsame⟩ := exists_of_lastNamed hlast
        have hstrip := hprovided entry hentry record hrecord
        rw [Provided, show record.instrument.symbol = item.1 from congrArg Prod.fst hsame,
          show record.instrument.securityId = item.2 from congrArg Prod.snd hsame] at hstrip
        exact hstrip
      have hreplace := replaceInstrumentRegistry_cases c hnodup hstripped
      show match c.replaceInstrumentRegistry combined with
        | .ok installed => _
        | .error _ => _
      cases hinstall : c.replaceInstrumentRegistry combined with
      | ok installed =>
          rw [hinstall] at hreplace
          obtain ⟨hnamed, hlookup⟩ := hreplace
          refine ⟨hcollides, fun entry hentry symbol securityId hlast => ?_, fun entry hentry symbol securityId hlast => ?_⟩
          · exact hnamed (symbol, securityId) ((hitem _).mpr ⟨entry, hentry, hlast⟩)
          · exact hlookup (symbol, securityId) ((hitem _).mpr ⟨entry, hentry, hlast⟩)
      | error fault =>
          rw [hinstall] at hreplace
          obtain ⟨item, h, hblank⟩ := hreplace
          obtain ⟨entry, hentry, hlast⟩ := (hitem item).mp h
          refine .inr fun hnamed => ?_
          obtain ⟨hsymbol, hid⟩ := hnamed entry hentry item.1 item.2 hlast
          exact hblank.elim hsymbol hid

/-- Every leg is executable exactly when the contracts collide, or all are named and within each contract no symbol
has two security ids; of contracts with a blank only crossed ones are rightly refused. -/
theorem installsEveryLeg_iff (c : ExecutionController) (contracts : List (String × ResolvedDhanContract))
    (hkeys : (contracts.map Prod.fst).Nodup)
    (hprovided : ∀ entry ∈ contracts, ∀ record ∈ entry.2.contract.optionContracts, Provided record) :
    InstallsEveryLeg c contracts ↔
      Collides contracts ∨ (Named contracts ∧ Clear contracts) ∨ (¬Named contracts ∧ Crossed contracts) := by
  have hcases := replaceContracts_cases c hprovided
  unfold InstallsEveryLeg
  cases hinstall : replaceContracts c (registriesOf contracts) with
  | error fault =>
      rw [hinstall] at hcases
      constructor
      · intro hcrossed
        exact hcases.imp_right fun hnamed => .inr ⟨hnamed, hcrossed⟩
      · rintro (hcollides | ⟨hnamed, -⟩ | ⟨-, hcrossed⟩)
        · exact hcollides.crossed hkeys
        · exact (hcases.resolve_right (not_not.mpr hnamed)).crossed hkeys
        · exact hcrossed
  | ok installed =>
      rw [hinstall] at hcases
      obtain ⟨hcollides, hnamed, hlookup⟩ := hcases
      constructor
      · intro hexecutable
        refine .inr (.inl ⟨hnamed, fun entry hentry item hitem other hother hkey => ?_⟩)
        obtain ⟨record, hrecord, rfl⟩ := List.mem_map.mp hitem
        obtain ⟨record', hrecord', rfl⟩ := List.mem_map.mp hother
        have hfirst : installed.instrumentRegistry.lookup record.instrument.symbol = _ :=
          hexecutable entry hentry record hrecord
        have hsecond : installed.instrumentRegistry.lookup record'.instrument.symbol = _ :=
          hexecutable entry hentry record' hrecord'
        rw [show record.instrument.symbol = record'.instrument.symbol from hkey, hsecond] at hfirst
        exact (Option.some.inj hfirst).symm
      · rintro (hcollide | ⟨-, hclear⟩ | ⟨hblank, -⟩)
        · exact absurd hcollide hcollides
        · intro entry hentry record hrecord
          exact hlookup entry hentry _ _ (lastNamed_of_clear hclear hentry hrecord)
        · exact absurd hnamed hblank

/-- Legs with symbols of their own are all executable. -/
theorem installsEveryLeg_distinct :
    InstallsEveryLeg (.ofMode .off [] none) [("CRUDEOIL", crudeContract ("CRUDEOIL-" ++ ·))] := by
  have hprovided : ∀ record ∈ crudeLegs ("CRUDEOIL-" ++ ·), Provided record := by decide +kernel
  have hblank : ∀ record ∈ crudeLegs ("CRUDEOIL-" ++ ·),
      ¬PyText.Blank record.instrument.symbol ∧ ¬PyText.Blank record.instrument.securityId := by decide +kernel
  have hclear : ∀ left ∈ (crudeLegs ("CRUDEOIL-" ++ ·)).map registryItem,
      ∀ right ∈ (crudeLegs ("CRUDEOIL-" ++ ·)).map registryItem, left.1 = right.1 → left.2 = right.2 := by
    decide +kernel
  have hiff := installsEveryLeg_iff (.ofMode .off [] none) [("CRUDEOIL", crudeContract ("CRUDEOIL-" ++ ·))]
    (List.nodup_singleton _) (by simpa [crudeContract] using hprovided)
  refine hiff.mpr (.inr (.inl ⟨fun entry hentry symbol securityId hlast => ?_, fun entry hentry => ?_⟩))
  · obtain rfl := List.mem_singleton.mp hentry
    obtain ⟨record, hrecord, hitem⟩ := exists_of_lastNamed hlast
    obtain ⟨rfl, rfl⟩ := Prod.mk.inj hitem
    exact hblank record hrecord
  · obtain rfl := List.mem_singleton.mp hentry
    exact hclear

/-- The generic name of a commodity stands for ten legs in the master, and the last of them is kept. -/
theorem installsEveryLeg_generic :
    (ensureUnambiguousOptionRecords [] (crudeLegs fun _ => "CRUDEOIL") = .ok () ∧
      (crudeFamily fun _ => "CRUDEOIL").contractAt asciiTables 6512 = .ok (crudeContract fun _ => "CRUDEOIL") ∧
      ∀ record ∈ crudeLegs fun _ => "CRUDEOIL", Provided record) ∧
    ¬InstallsEveryLeg (.ofMode .off [] none) [("CRUDEOIL", crudeContract fun _ => "CRUDEOIL")] := by
  refine ⟨⟨by decide +kernel, by decide +kernel, by decide +kernel⟩, fun hinstalls => ?_⟩
  have hregistry : (replaceContracts (.ofMode .off [] none)
      (registriesOf [("CRUDEOIL", crudeContract fun _ => "CRUDEOIL")])).toOption.map (·.instrumentRegistry) =
        some [("CRUDEOIL", "10")] := by decide +kernel
  unfold InstallsEveryLeg at hinstalls
  cases hresult : replaceContracts (.ofMode .off [] none)
      (registriesOf [("CRUDEOIL", crudeContract fun _ => "CRUDEOIL")]) with
  | error fault => simp [hresult, Except.toOption] at hregistry
  | ok installed =>
      rw [hresult] at hregistry hinstalls
      have hfirst : Executable installed (crudeLeg "CRUDEOIL" 6400 .call "1") :=
        hinstalls _ List.mem_cons_self _ List.mem_cons_self
      rw [Executable, show installed.instrumentRegistry = _ from Option.some.inj hregistry] at hfirst
      simp [crudeLeg] at hfirst

end TecoQuant.Runtime
