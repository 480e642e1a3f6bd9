import TecoQuant.BacktestCalendar

/-! What the replay of the code reports. A report it returns is the one on unbounded moments, so what holds of that
holds of it: nothing looks ahead, signals and contracts are conserved, and the loop sells within the displayed depth.
Two runs can differ in whether they return: the deadline of one instrument ends the replay of the others. -/

namespace TecoQuant.Backtest.Calendar

section

variable {ctx : DecimalContext} {config : BacktestConfig} {frames : List ReplayFrame} {report : BacktestReport}

/-- A replay that returns goes through the states it goes through on unbounded moments. -/
theorem replayLoop_of_run (h : run ctx config frames = .ok report) {before after : List ReplayFrame}
    (hsplit : frames = before ++ after) : replayLoop ctx config before = Backtest.replayLoop ctx config before := by
  obtain ⟨_, hvalid, -⟩ := Except.bind_eq_ok.mp h
  obtain ⟨hframes, -⟩ := validateSequence_eq_ok.mp hvalid
  obtain ⟨hfits, -⟩ := (run_eq_ok hvalid).mp h
  subst hsplit
  obtain ⟨s, hs⟩ := replayLoop_succeeds ctx config before
  rw [hs]
  refine (replayLoop_eq_ok fun f hf => hframes f (List.mem_append_left _ hf)).mpr
    ⟨fun first frame rest t hrest ht => hfits first frame (rest ++ after) t ?_ ht, hs⟩
  rw [hrest, List.append_assoc, List.cons_append]

end

/-! ### No look-ahead -/

/-- The loop over more frames goes on from the state the first frames lead to. A report starts with what the first
frames journal and close before their own end-of-data stage, and nothing in it looks ahead. -/
theorem run_no_lookahead (ctx : DecimalContext) (config : BacktestConfig) (F G : List ReplayFrame) :
    replayLoop ctx config (F ++ G) =
        (replayLoop ctx config F >>= fun s => G.foldlM (replayFrame ctx config) s) ∧
      ∀ report, run ctx config (F ++ G) = .ok report →
        NoLookahead ctx config (F ++ G) report ∧
        (∀ before after, F ++ G = before ++ after →
          replayLoop ctx config before = Backtest.replayLoop ctx config before) ∧
        ∃ s, replayLoop ctx config F = .ok s ∧ s.journal <+: report.journal ∧ s.trades <+: report.trades ∧
          ∀ alone, run ctx config F = .ok alone → ∃ exits, Ends ctx config s alone exits := by
  refine ⟨List.foldlM_append, fun report hreport => ?_⟩
  obtain ⟨hvalid, last, exits, -, hlast, hends⟩ := run_ends hreport
  have hsame {before after : List ReplayFrame} (hsplit : F ++ G = before ++ after) := replayLoop_of_run hreport hsplit
  obtain ⟨s, hs⟩ := replayLoop_succeeds ctx config F
  have hcontinue : Backtest.replayLoop ctx config (F ++ G) = G.foldlM (Backtest.replayFrame ctx config) s := by
    rw [replayLoop_append, hs]
    rfl
  obtain ⟨hjournal, htrades⟩ := foldlM_extends (hcontinue ▸ hlast)
  refine ⟨hends.noLookahead hvalid hlast, fun _ _ => hsame, s, (hsame rfl).trans hs, ?_, ?_, fun alone halone => ?_⟩
  · exact hends.journal ▸ hjournal.trans (List.prefix_append _ _)
  · exact hends.trades ▸ htrades.trans (List.prefix_append _ _)
  · obtain ⟨-, s', exits, -, hs', hends⟩ := run_ends halone
    obtain rfl := Except.ok.inj (hs.symm.trans hs')
    exact ⟨exits, hends⟩

theorem sample_returns : ∃ report, run .default sampleConfig sampleFrames = .ok report :=
  Except.exists_of_isSome (by decide +kernel)

theorem run_no_lookahead_sample :
    ∃ report s, run .default sampleConfig sampleFrames = .ok report ∧
      NoLookahead .default sampleConfig sampleFrames report ∧
      replayLoop .default sampleConfig (sampleFrames.take 2) = .ok s ∧ s.journal <+: report.journal := by
  obtain ⟨report, hreport⟩ := sample_returns
  obtain ⟨hnone, -, s, hs, hjournal, -⟩ :=
    (run_no_lookahead .default sampleConfig (sampleFrames.take 2) (sampleFrames.drop 2)).2 report hreport
  exact ⟨report, s, hreport, hnone, hs, hjournal⟩

/-- Two frames report an entry. With the third, whose deadline leaves the calendar, there is no report that
could start with it. -/
theorem run_overflows_later :
    validateSequence (heldFrames.take 2 ++ heldFrames.drop 2) = .ok () ∧
      (run .exact heldConfig (heldFrames.take 2)).toOption.map (fun report =>
        report.journal.countP (·.event = .entry)) = some 1 ∧
      ¬∃ report, run .exact heldConfig (heldFrames.take 2 ++ heldFrames.drop 2) = .ok report := by
  refine ⟨by decide +kernel, by decide +kernel, ?_⟩
  rintro ⟨report, hreport⟩
  have hraised : run .exact heldConfig (heldFrames.take 2 ++ heldFrames.drop 2) = .error overflow := by decide +kernel
  cases hraised.symm.trans hreport

/-! ### Conservation -/

/-- A report on the frames of one instrument tells what another report tells of it. -/
structure Agrees (X : String) (report alone : BacktestReport) : Prop where
  trades : alone.trades = report.trades.filter (·.instrumentId = X)
  journal : alone.journal = report.journal.filter (·.instrumentId = X)
  openPositions : alone.openPositions = report.openPositions.filter (·.instrumentId = X)

section

variable {ctx : DecimalContext} {config : BacktestConfig} {frames frames' : List ReplayFrame} {frame frame' : ReplayFrame}
  {s : ReplayState} {report alone : BacktestReport} {X : String}

theorem FrameFits.restrict (h : FrameFits s frame) (X : String) : FrameFits (s.restrict X) (frame.restrict X) := by
  refine ⟨fun p hp bar hbar => ?_, fun signal hsignal hbefore => ?_⟩
  · obtain ⟨hp, hid⟩ := List.mem_filter.mp hp
    rw [of_decide_eq_true hid, ReplayFrame.restrict_bar] at hbar
    exact h.triggers p hp bar (of_decide_eq_true hid ▸ hbar)
  · obtain ⟨hexpiry, hvalidity⟩ := h.signals signal (List.mem_of_mem_filter hsignal) hbefore
    exact ⟨hexpiry, hvalidity⟩

/-- The frames of one instrument fit when all frames do. -/
theorem ReplayFits.restrict (hframes : ∀ frame ∈ frames, frame.timestamp.toUtc.InCalendar)
    (h : ReplayFits ctx config frames) (X : String) : ReplayFits ctx config (frames.map (·.restrict X)) := by
  intro before' frame' after' s' hsplit hs'
  obtain ⟨before, rest, rfl, rfl, hrest⟩ := List.map_eq_append_iff.mp hsplit
  obtain ⟨frame, after, rfl, rfl, -⟩ := List.map_eq_cons_iff.mp hrest
  have hbefore : ∀ f ∈ before, f.timestamp.toUtc.InCalendar := fun f hf => hframes f (List.mem_append_left _ hf)
  obtain ⟨s, hs⟩ := replayLoop_succeeds ctx config before
  have hreached : replayLoop ctx config before = .ok s := by
    refine (replayLoop_eq_ok hbefore).mpr ⟨fun first f others t heq ht => ?_, hs⟩
    exact h first f (others ++ frame :: after) t (by rw [heq, List.append_assoc, List.cons_append]) ht
  obtain ⟨-, hs'⟩ := (replayLoop_eq_ok fun f hf => by
    obtain ⟨g, hg, rfl⟩ := List.mem_map.mp hf
    exact hbefore g hg).mp hs'
  obtain rfl := Except.ok.inj ((replayLoop_restrict hs).symm.trans hs')
  exact (h before frame after s rfl hreached).restrict X

end

/-- No position stands to be liquidated at a bar that was sold into. -/
def Unsold (s : ReplayState) : Prop :=
  ∀ p ∈ s.positions, ∀ bar ∈ s.latestBars p.signal.instrumentId, Liquidates p bar →
    ∀ e ∈ s.journal, ¬e.At .exitFill bar

instance (s : ReplayState) : Decidable (Unsold s) :=
  inferInstanceAs (Decidable (∀ p ∈ s.positions, ∀ bar ∈ s.latestBars p.signal.instrumentId,
    Liquidates p bar → ∀ e ∈ s.journal, ¬e.At .exitFill bar))

theorem Unsold.fits {ctx : DecimalContext} {config : BacktestConfig} {s : ReplayState} (h : Unsold s)
    (henabled : config.partialFills.enabled = true) : LiquidationFits ctx config s := by
  intro p hp bar hbar hacts visible hvisible
  rw [filledAt_of_none (h p hp bar hbar hacts), Nat.zero_add, Option.mem_def.mp hvisible]
  exact fillableQuantity_le_participating henabled _ _ _

end TecoQuant.Backtest.Calendar
