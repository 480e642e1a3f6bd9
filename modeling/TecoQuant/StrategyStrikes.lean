import TecoQuant.BaseDecimalOrder
import TecoQuant.BaseDecimalValue
import TecoQuant.BaseDistinct
import TecoQuant.StrategySpec

/-! Listed strikes by their values: each once, in increasing order, and the one nearest to the underlying. The
nearest of some strikes is also the nearest of any of them that include it. -/

namespace TecoQuant.Strategy

variable {strikes : List Decimal}

theorem mem_of_mem_distinctStrikes {strike : Decimal} (h : strike ∈ distinctStrikes strikes) : strike ∈ strikes :=
  Distinct.mem_of_mem_eraseDupsBy ((List.mem_insertionSort _).mp h)

theorem exists_mem_distinctStrikes {strike : Decimal} (h : strike ∈ strikes) :
    ∃ kept ∈ distinctStrikes strikes, kept.value = strike.value := by
  obtain ⟨kept, hkept, hvalue⟩ := Distinct.exists_mem_eraseDupsBy Decimal.value h
  exact ⟨kept, (List.mem_insertionSort _).mpr hkept, hvalue⟩

theorem distinctStrikes_increasing (strikes : List Decimal) :
    (distinctStrikes strikes).Pairwise fun left right => left.value < right.value :=
  Distinct.increasing_insertionSort (Distinct.pairwise_eraseDupsBy Decimal.value strikes) _ fun _ _ => Decimal.le_iff

/-- The distance depends on the value of the strike only. -/
theorem strikeDistance_value {underlying strike : Decimal} (hunderlying : underlying.IsFinite)
    (hstrike : strike.IsFinite) :
    (strikeDistance underlying strike).value = roundDigits 28 |roundDigits 28 (strike.value - underlying.value)| := by
  rw [strikeDistance, Decimal.absolute_value (Decimal.sub_isFinite hstrike hunderlying),
    Decimal.sub_value hstrike hunderlying]

/-- The nearest strike is a listed one, at the least distance, and the lowest of those. -/
structure Nearest (underlying : Decimal) (strikes : List Decimal) (atm : Decimal) : Prop where
  listed : atm ∈ strikes
  least : ∀ strike ∈ strikes, (strikeDistance underlying atm).value ≤ (strikeDistance underlying strike).value
  lowest : ∀ strike ∈ strikes,
    (strikeDistance underlying strike).value ≤ (strikeDistance underlying atm).value → atm.value ≤ strike.value

theorem nearestAtm_nearest {underlying atm : Decimal} (hunderlying : underlying.IsFinite)
    (hfinite : ∀ strike ∈ strikes, strike.IsFinite) (h : nearestAtm underlying strikes = .ok atm) :
    Nearest underlying strikes atm := by
  unfold nearestAtm at h
  split at h
  · split at h
    · rename_i strike hargmin
      cases h
      have hmem : atm ∈ distinctStrikes strikes := List.argmin_mem hargmin
      have hatm := mem_of_mem_distinctStrikes hmem
      -- A strike is represented by one of the same value, at the same distance.
      have hkept : ∀ strike ∈ strikes, ∃ kept ∈ distinctStrikes strikes, kept.value = strike.value ∧
          (strikeDistance underlying kept).value = (strikeDistance underlying strike).value := by
        intro strike hstrike
        obtain ⟨kept, hkept, hvalue⟩ := exists_mem_distinctStrikes hstrike
        refine ⟨kept, hkept, hvalue, ?_⟩
        rw [strikeDistance_value hunderlying (hfinite _ (mem_of_mem_distinctStrikes hkept)),
          strikeDistance_value hunderlying (hfinite _ hstrike), hvalue]
      refine ⟨hatm, fun strike hstrike => ?_, fun strike hstrike hle => ?_⟩
      · obtain ⟨kept, hmem, -, hdistance⟩ := hkept strike hstrike
        rw [← hdistance]
        exact List.le_of_mem_argmin (f := fun strike => (strikeDistance underlying strike).value) hmem hargmin
      · obtain ⟨kept, hmem, hvalue, hdistance⟩ := hkept strike hstrike
        rw [← hvalue]
        exact Distinct.argmin_key_le (distinctStrikes_increasing strikes) hargmin hmem (hdistance.trans_le hle)
    · cases h
  · cases h

/-- Listed strikes have a nearest one. -/
theorem nearestAtm_returns {underlying : Decimal} (hunderlying : 0 < underlying) (h : strikes ≠ []) :
    ∃ atm, nearestAtm underlying strikes = .ok atm := by
  unfold nearestAtm
  rw [if_pos hunderlying]
  split
  · rename_i strike _
    exact ⟨strike, rfl⟩
  · rename_i hnone
    obtain ⟨strike, hstrike⟩ := List.exists_mem_of_ne_nil _ h
    obtain ⟨kept, hkept, -⟩ := exists_mem_distinctStrikes hstrike
    rw [List.argmin_eq_none.mp hnone] at hkept
    cases hkept

/-- The nearest of all strikes is the nearest of some that include it. -/
theorem Nearest.value_eq {underlying atm nearest : Decimal} {some : List Decimal} (hunderlying : underlying.IsFinite)
    (hfinite : ∀ strike ∈ strikes, strike.IsFinite) (hfinite' : ∀ strike ∈ some, strike.IsFinite)
    (hall : Nearest underlying strikes atm) (hsome : Nearest underlying some nearest)
    (hsub : ∀ strike ∈ some, ∃ listed ∈ strikes, listed.value = strike.value)
    (hincluded : ∃ strike ∈ some, strike.value = atm.value) : nearest.value = atm.value := by
  obtain ⟨included, hincluded, hatm⟩ := hincluded
  obtain ⟨listed, hlisted, hnearest⟩ := hsub nearest hsome.listed
  have hdistance : ∀ {left right : Decimal}, left.IsFinite → right.IsFinite → left.value = right.value →
      (strikeDistance underlying left).value = (strikeDistance underlying right).value := by
    intro left right hleft hright hvalue
    rw [strikeDistance_value hunderlying hleft, strikeDistance_value hunderlying hright, hvalue]
  have hsame := hdistance (hfinite' _ hincluded) (hfinite _ hall.listed) hatm
  have hsame' := hdistance (hfinite _ hlisted) (hfinite' _ hsome.listed) hnearest
  have hle : (strikeDistance underlying included).value ≤ (strikeDistance underlying nearest).value := by
    rw [hsame, ← hsame']
    exact hall.least listed hlisted
  have hge : (strikeDistance underlying listed).value ≤ (strikeDistance underlying atm).value := by
    rw [hsame', ← hsame]
    exact hsome.least included hincluded
  apply le_antisymm
  · exact (hsome.lowest included hincluded hle).trans_eq hatm
  · exact (hall.lowest listed hlisted hge).trans_eq hnearest

end TecoQuant.Strategy
