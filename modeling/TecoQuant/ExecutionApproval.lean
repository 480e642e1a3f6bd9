import Mathlib.Data.List.DropRight
import TecoQuant.ExecutionReport
import TecoQuant.ExecutionSlippage

/-! Whether an approval is atomic. It commits the approval first and the execution second, and prices the
order in between, so an approval that is recorded stays behind when its execution cannot be. -/

namespace PyText

/-- Stripping a stripped text changes nothing. -/
theorem strip_strip (s : String) : strip (strip s) = strip s := by
  have hchars : ∀ cs : List Char, stripChars (stripChars cs) = stripChars cs := by
    intro cs
    have hdrop : (stripChars cs).dropWhile isSpace = stripChars cs := by
      rw [List.dropWhile_eq_self_iff]
      intro hlength hspace
      have hstart : stripChars cs <+: cs.dropWhile isSpace := List.rdropWhile_prefix isSpace _
      have hne : cs.dropWhile isSpace ≠ [] := List.ne_nil_of_length_pos (hlength.trans_le hstart.length_le)
      have hhead := List.head_dropWhile_not isSpace hne
      rw [hstart.getElem hlength, ← List.head_eq_getElem hne, hhead] at hspace
      cases hspace
    have hlast : (stripChars cs).rdropWhile isSpace = stripChars cs :=
      List.rdropWhile_idempotent isSpace (cs.dropWhile isSpace)
    calc stripChars (stripChars cs)
      _ = ((stripChars cs).dropWhile isSpace).rdropWhile isSpace := rfl
      _ = stripChars cs := by rw [hdrop, hlast]
  rw [strip, strip, String.toList_ofList, hchars]

end PyText

namespace TecoQuant.Execution

open Atomic ExecutionController PaperBrokerConfig

/-- No row of the signals, approvals, orders, fills, positions or the journal has changed. -/
def SameTables (L L' : Ledger) : Prop := SameRows L L' ∧ L'.journal = L.journal

theorem SameTables.refl (L : Ledger) : SameTables L L := ⟨.refl L, rfl⟩

/-- A call that raises has left the tables as they were, and one that returns has added one approval and one
order of the signal. -/
structure ApprovesAtomically (signalId : String) (w : World) (outcome : Except Fault ExecutionResult × World) :
    Prop where
  raises : ∀ fault, outcome.1 = .error fault → SameTables w.ledger outcome.2.ledger
  returns : ∀ result, outcome.1 = .ok result →
    (∃ approval : ApprovalRow, approval.signalId = signalId ∧
      outcome.2.ledger.approvals = w.ledger.approvals ++ [approval]) ∧
    ∃ order : OrderRow, order.signalId = signalId ∧ outcome.2.ledger.orders = w.ledger.orders ++ [order]

/-- The approval row `record_approval` inserts. -/
def approvalRow (signalId actor reason : String) (approvalTime : Datetime) : ApprovalRow :=
  ⟨signalId, PyText.strip actor, PyText.strip reason, approvalTime.instant⟩

/-- The ledger with an approval. -/
def Ledger.withApproval (L : Ledger) (row : ApprovalRow) (events : List EventRow) : Ledger :=
  { L with approvals := L.approvals ++ [row], events := events }

/-- All checks of an approval let it pass, with the stored plan, and its approval can be recorded. -/
structure ExecutionController.Approves (c : ExecutionController) (L : Ledger) (signalId actor reason : String)
    (approvalTime now : Datetime) (plan : TradePlan) : Prop where
  checks : c.approvalChecks actor reason approvalTime now = .ok ()
  stored : L.plan signalId = some plan
  signalled : plan.signalTime.instant ≤ approvalTime.instant
  awaiting : L.signalState signalId = some .awaitingApproval
  limits : c.WithinLimits L now
  valid : c.Validates L plan now false
  recordable : approvalTime.HasUtc
  unapproved : L.ApprovalConstraints (approvalRow signalId actor reason approvalTime)

/-- The tables take the paper order of a plan: its price is within reach, its numbers fit, its ids are new, and
if anything is filled the price is not rounded to zero. -/
structure PaperBrokerConfig.Storable (config : PaperBrokerConfig) (L : Ledger) (plan : TradePlan) : Prop where
  reach : |config.slipped plan.side plan.limitPrice| < 10 ^ 28 - 1 / 2
  fits : plan.quantity < 2 ^ 63
  limit : CastPositive plan.limitPrice
  order : ∀ o ∈ L.orders, o.orderId ≠ "paper-order-" ++ digest plan.correlationId ∧
    o.correlationId ≠ plan.correlationId ∧ o.signalId ≠ plan.signalId
  price : 0 < config.partialFillRatio → 1 / 2 < config.slipped plan.side plan.limitPrice
  fill : 0 < config.partialFillRatio → ∀ f ∈ L.fills, f.fillId ≠ "paper-fill-" ++ digest plan.correlationId ++ "-1"
  position : 0 < config.partialFillRatio →
    ∀ p ∈ L.positions, p.positionId ≠ "position-" ++ ("paper-order-" ++ digest plan.correlationId)

/-! ### The gates of an approval -/

section Approval

variable {c : ExecutionController} {w : World} {now approvalTime : Datetime} {signalId actor reason : String}
  {live : Option LiveBrokerGateway}

/-- What passes the checks before the ledger is read. -/
theorem approvalChecks_ok (h : c.approvalChecks actor reason approvalTime now = .ok ()) :
    now.Aware ∧ ¬PyText.Blank actor ∧ ¬PyText.Blank reason := by
  unfold approvalChecks at h
  by_cases hmode : c.policy.mode ≠ .manualApproval
  · rw [if_pos hmode] at h
    cases h
  rw [if_neg hmode] at h
  simp only [requireAware, Except.bind_eq_ok, Except.ite_ok_eq_ok] at h
  obtain ⟨_, ⟨hnow, -⟩, _, -, h⟩ := h
  by_cases hblank : PyText.Blank actor ∨ PyText.Blank reason
  · rw [if_pos hblank] at h
    cases h
  · exact ⟨hnow, fun h => hblank (.inl h), fun h => hblank (.inr h)⟩

/-- A tripped kill switch changes no row of the tables. -/
theorem run_tripKillSwitch_keeps (w : World) (reason : String) :
    SameTables w.ledger (run (perform live) (tripKillSwitch reason now) w).2.ledger := by
  unfold tripKillSwitch
  rw [run_bind, run_setKillSwitchCommand]
  rcases h : Ledger.updateKillSwitch true reason "system" now w.ledger with ⟨fault | value, L'⟩
  · obtain rfl := Ledger.transaction_of_error h
    exact .refl _
  · obtain ⟨row, events, -, rfl⟩ := Ledger.updateKillSwitch_ok h
    exact ⟨⟨rfl, rfl, rfl, rfl, rfl⟩, rfl⟩

theorem run_checkKillLimits_keeps (c : ExecutionController) (w : World) (now : Datetime)
    (live : Option LiveBrokerGateway) :
    SameTables w.ledger (run (perform live) (c.checkKillLimits now) w).2.ledger := by
  unfold checkKillLimits
  rw [run_issue_bind]
  split
  · exact .refl _
  rcases now.astimezone dateOverflow with fault | today
  · exact .refl _
  rw [Program.ofExcept_ok, Program.ret_bind, run_issue_bind]
  split
  · exact run_tripKillSwitch_keeps _ _
  rw [run_issue_bind]
  split
  · exact run_tripKillSwitch_keeps _ _
  · exact .refl _

/-- The stored plan is returned exactly when its signal awaits an approval and is no later than it. -/
theorem run_awaitingPlan_eq (live : Option LiveBrokerGateway) (w : World) (signalId : String) (approvalTime : Datetime)
    (plan : TradePlan) : run (perform live) (awaitingPlan signalId approvalTime) w = (.ok plan, w) ↔
      w.ledger.plan signalId = some plan ∧ plan.signalTime.instant ≤ approvalTime.instant ∧
        w.ledger.signalState signalId = some .awaitingApproval := by
  unfold awaitingPlan
  rw [run_issue_bind]
  dsimp only [perform]
  rcases hplan : w.ledger.plan signalId with _ | stored
  · simp
  dsimp only
  by_cases hearly : approvalTime.instant < stored.signalTime.instant
  · rw [if_pos hearly]
    constructor
    · intro h
      cases h
    · rintro ⟨hstored, hle, -⟩
      rw [← Option.some.inj hstored] at hle
      omega
  rw [if_neg hearly, run_issue_bind]
  by_cases hstate : w.ledger.signalState signalId = some .awaitingApproval
  · rw [if_neg (by exact not_not.mpr hstate)]
    constructor
    · intro h
      cases h
      exact ⟨rfl, not_lt.mp hearly, hstate⟩
    · rintro ⟨hstored, -, -⟩
      rw [Option.some.inj hstored]
      rfl
  · rw [if_pos (by exact hstate)]
    constructor
    · intro h
      cases h
    · intro h
      exact absurd h.2.2 hstate

/-- The approval is recorded exactly when its time can be written and its row meets the constraints. -/
theorem recordApproval_eq_ok {L L' : Ledger} (hactor : ¬PyText.Blank actor) (hreason : ¬PyText.Blank reason) :
    Ledger.recordApproval ⟨signalId, PyText.strip actor, PyText.strip reason, approvalTime⟩ L = (.ok (), L') ↔
      approvalTime.HasUtc ∧ L.ApprovalConstraints (approvalRow signalId actor reason approvalTime) ∧
        { L with
          approvals := L.approvals ++ [approvalRow signalId actor reason approvalTime]
          events := L.events ++ [⟨"MANUAL_APPROVAL_RECORDED", signalId, approvalTime.instant,
            [("actor", .text (PyText.strip actor)), ("reason", .text (PyText.strip reason))]⟩] } = L' := by
  have hne : ¬(PyText.strip actor = "" ∨ PyText.strip reason = "") := fun h => h.elim hactor hreason
  simp only [Ledger.recordApproval, PyText.strip_strip, Ledger.transaction_eq_ok, if_neg hne, Except.bind_eq_ok,
    Ledger.timestamp_eq_ok, Ledger.onIntegrityError_eq_ok, Ledger.insertApproval, Except.ite_ok_eq_ok,
    Ledger.event_eq_ok, pure, Except.pure, Except.ok.injEq, Prod.mk.injEq, true_and]
  constructor
  · rintro ⟨_, ⟨hutc, rfl⟩, _, ⟨hrow, rfl⟩, _, ⟨_, rfl⟩, rfl⟩
    exact ⟨hutc, hrow, rfl⟩
  · rintro ⟨hutc, hrow, rfl⟩
    exact ⟨_, ⟨hutc, rfl⟩, _, ⟨hrow, rfl⟩, _, ⟨hutc, rfl⟩, rfl⟩

/-- An approval either raises with the tables as they were, or goes on with its approval recorded. -/
theorem run_approve_cases (c : ExecutionController) (w : World) (signalId actor reason : String)
    (approvedAt : Option Datetime) (now : Datetime) (live : Option LiveBrokerGateway) :
    (∃ plan events, c.Approves w.ledger signalId actor reason (approvedAt.getD now) now plan ∧
        run (perform live) (c.approve signalId actor reason approvedAt now) w =
          run (perform live) (c.executePaper plan now) { w with
            ledger := w.ledger.withApproval (approvalRow signalId actor reason (approvedAt.getD now)) events }) ∨
      (∀ plan, ¬c.Approves w.ledger signalId actor reason (approvedAt.getD now) now plan) ∧
        ∃ fault, (run (perform live) (c.approve signalId actor reason approvedAt now) w).1 = .error fault ∧
          SameTables w.ledger (run (perform live) (c.approve signalId actor reason approvedAt now) w).2.ledger := by
  dsimp only [approve]
  generalize approvedAt.getD now = approvalTime
  rcases hchecks : c.approvalChecks actor reason approvalTime now with fault | value
  · rw [run_bind_error _ (run_ofExcept _ _ _)]
    exact .inr ⟨fun plan h => by simpa [hchecks] using h.checks, fault, rfl, .refl _⟩
  obtain ⟨-, hactor, hreason⟩ := approvalChecks_ok hchecks
  rw [run_bind_ok _ (run_ofExcept _ _ _)]
  have hread := run_awaitingPlan live w signalId approvalTime
  have hplan := run_awaitingPlan_eq live w signalId approvalTime
  rcases hrun : run (perform live) (awaitingPlan signalId approvalTime) w with ⟨fault | plan, w'⟩
  · obtain rfl : w' = w := by rw [hrun] at hread; exact hread
    refine .inr ⟨fun plan h => ?_, fault, by rw [run_bind_error _ hrun], by rw [run_bind_error _ hrun]; exact .refl _⟩
    rw [(hplan plan).mpr ⟨h.stored, h.signalled, h.awaiting⟩] at hrun
    cases hrun
  obtain rfl : w' = w := by rw [hrun] at hread; exact hread
  obtain ⟨hstored, hsignalled, hawaiting⟩ := (hplan plan).mp hrun
  have hunique : ∀ {plan'}, c.Approves w'.ledger signalId actor reason approvalTime now plan' → plan' = plan :=
    fun h => Option.some.inj (h.stored.symm.trans hstored)
  rw [run_bind_ok _ hrun]
  have hkeeps := run_checkKillLimits_keeps c w' now live
  rcases run_checkKillLimits_cases c w' now live with ⟨hlimits, hkill⟩ | ⟨hlimits, fault, hkill, -⟩
  swap
  · generalize houtcome : run (perform live) (c.checkKillLimits now) w' = outcome at hkeeps hkill
    obtain ⟨result, w''⟩ := outcome
    obtain rfl : result = .error fault := hkill
    rw [run_bind_error _ houtcome]
    exact .inr ⟨fun plan h => hlimits h.limits, fault, rfl, hkeeps⟩
  rw [run_bind_ok _ hkill]
  rcases run_validatePlan_cases c w' plan now false live with ⟨hvalid, hrun⟩ | ⟨hvalid, fault, hrun⟩
  swap
  · rw [run_bind_error _ hrun]
    exact .inr ⟨fun plan' h => hvalid (hunique h ▸ h.valid), fault, rfl, .refl _⟩
  rw [run_bind_ok _ hrun, run_bind, run_recordApproval]
  rcases hrecord : Ledger.recordApproval ⟨signalId, PyText.strip actor, PyText.strip reason, approvalTime⟩ w'.ledger with
    ⟨fault | value, L⟩
  · obtain rfl := Ledger.transaction_of_error hrecord
    refine .inr ⟨fun plan' h => ?_, fault, rfl, .refl _⟩
    have hok := (recordApproval_eq_ok hactor hreason).mpr ⟨h.recordable, h.unapproved, rfl⟩
    rw [hrecord] at hok
    cases hok
  · obtain ⟨hutc, hrow, rfl⟩ := (recordApproval_eq_ok hactor hreason).mp hrecord
    exact .inl ⟨plan, _, ⟨hchecks, hstored, hsignalled, hawaiting, hlimits, hvalid, hutc, hrow⟩, rfl⟩

end Approval

/-! ### The paper order of an approval -/

section Paper

variable {config : PaperBrokerConfig} {plan : TradePlan} {now : Datetime} {L : Ledger}

/-- The paper order of a plan, at a fill price. -/
def paperOrder (config : PaperBrokerConfig) (plan : TradePlan) (price : Decimal) (now : Datetime) : BrokerOrder where
  orderId := "paper-order-" ++ digest plan.correlationId
  correlationId := plan.correlationId
  signalId := plan.signalId
  symbol := plan.symbol
  securityId := plan.securityId
  side := plan.side
  quantity := plan.quantity
  filledQuantity := config.filledQuantity plan.quantity
  limitPrice := plan.limitPrice
  averageFillPrice := if config.filledQuantity plan.quantity = 0 then none else some price
  state := orderState plan.quantity (config.filledQuantity plan.quantity)
  submittedAt := now

/-- The fill of a paper order that has one. -/
def paperFill (config : PaperBrokerConfig) (plan : TradePlan) (price : Decimal) (now : Datetime) : BrokerFill where
  fillId := "paper-fill-" ++ digest plan.correlationId ++ "-1"
  orderId := "paper-order-" ++ digest plan.correlationId
  quantity := config.filledQuantity plan.quantity
  price := price
  state := fillState plan.quantity (config.filledQuantity plan.quantity)
  filledAt := now

theorem submit_of_fillPrice {price : Decimal} (h : config.fillPrice plan.side plan.limitPrice = some price) :
    config.submit plan now = .ok (paperOrder config plan price now,
      if config.filledQuantity plan.quantity = 0 then [] else [paperFill config plan price now]) := by
  simp only [PaperBrokerConfig.submit, h, paperOrder, paperFill]

theorem submit_of_none (now : Datetime) (h : config.fillPrice plan.side plan.limitPrice = none) :
    ∃ fault, config.submit plan now = .error fault := by
  simp only [PaperBrokerConfig.submit, h]
  exact ⟨_, rfl⟩

/-- A fill price is stored as a positive number when it is one. -/
theorem castPositive_fillPrice_iff {price : Decimal} (h : config.fillPrice plan.side plan.limitPrice = some price) :
    CastPositive price ↔ 1 / 2 < config.slipped plan.side plan.limitPrice := by
  rw [← fillPrice_pos_iff h, Decimal.lt_iff, Decimal.value_zero, CastPositive, (fillPrice_eq_some h).2]
  constructor
  · intro hcast
    exact lt_trans (by positivity) hcast
  · intro hpos
    have hone : (1 : ℚ) ≤ roundHalfEven (config.slipped plan.side plan.limitPrice) := by
      have := (div_pos_iff_of_pos_right (by norm_num)).mp hpos
      exact_mod_cast this
    calc (2 : ℚ) ^ (-1075 : ℤ)
      _ ≤ 2 ^ (-14 : ℤ) := zpow_le_zpow_right₀ (by norm_num) (by norm_num)
      _ < 1 / 10 ^ 4 := by norm_num
      _ ≤ roundHalfEven (config.slipped plan.side plan.limitPrice) / 10 ^ 4 := by gcongr

theorem filledQuantity_pos_iff (config : PaperBrokerConfig) (hquantity : 0 < plan.quantity) :
    0 < config.filledQuantity plan.quantity ↔ 0 < config.partialFillRatio :=
  Int.add_one_le_iff.symm.trans (config.one_le_filledQuantity_iff hquantity)

theorem filledQuantity_nonneg (config : PaperBrokerConfig) (hquantity : 0 < plan.quantity) :
    0 ≤ config.filledQuantity plan.quantity := by
  by_cases hratio : 0 < config.partialFillRatio
  · exact ((filledQuantity_pos_iff config hquantity).mpr hratio).le
  · exact (config.filledQuantity_zero hquantity hratio).ge

/-- The columns of a paper order can be written when its quantity fits. -/
theorem orderWritable_paper_iff (hutc : now.HasUtc) (hquantity : 0 < plan.quantity) (hlimit : plan.limitPrice.IsFinite)
    {price : Decimal} (hprice : config.fillPrice plan.side plan.limitPrice = some price) :
    Ledger.OrderWritable (paperOrder config plan price now) ↔ plan.quantity < 2 ^ 63 := by
  have hle := config.filledQuantity_le plan.quantity
  have hnonneg := filledQuantity_nonneg config hquantity
  constructor
  · intro h
    exact h.2.2.2.1.2
  · intro h
    refine ⟨hlimit, fun average haverage => ?_, hutc, ⟨?_, h⟩, ⟨?_, hle.trans_lt h⟩⟩
    · dsimp only [paperOrder] at haverage
      split at haverage
      · cases haverage
      · cases haverage
        exact (fillPrice_eq_some hprice).1
    · show -2 ^ 63 ≤ plan.quantity
      omega
    · show -2 ^ 63 ≤ config.filledQuantity plan.quantity
      omega

/-- The constraints on a paper order that the gates of an approval do not settle. -/
theorem orderConstraints_paper_iff (hsignal : L.HasSignal plan.signalId) (hquantity : 0 < plan.quantity)
    {price : Decimal} (hprice : config.fillPrice plan.side plan.limitPrice = some price) :
    L.OrderConstraints (Ledger.storedOrder (paperOrder config plan price now)) ↔
      (∀ o ∈ L.orders, o.orderId ≠ "paper-order-" ++ digest plan.correlationId ∧
        o.correlationId ≠ plan.correlationId ∧ o.signalId ≠ plan.signalId) ∧ CastPositive plan.limitPrice ∧
        (0 < config.partialFillRatio → 1 / 2 < config.slipped plan.side plan.limitPrice) := by
  have haverage : (∀ stored ∈ (paperOrder config plan price now).averageFillPrice.map Decimal.plain, CastPositive stored) ↔
      (0 < config.partialFillRatio → 1 / 2 < config.slipped plan.side plan.limitPrice) := by
    rw [← castPositive_fillPrice_iff hprice, ← filledQuantity_pos_iff config hquantity]
    have hnonneg := filledQuantity_nonneg config hquantity
    by_cases hzero : config.filledQuantity plan.quantity = 0
    · simp [paperOrder, hzero]
    · simp only [paperOrder, if_neg hzero, Option.map_some, Option.mem_some_iff, forall_eq', castPositive_plain]
      exact ⟨fun h _ => h, fun h => h (by omega)⟩
  constructor
  · rintro ⟨hids, -, -, -, -, hlimit, hprices⟩
    exact ⟨hids, castPositive_plain.mp hlimit, haverage.mp hprices⟩
  · rintro ⟨hids, hlimit, hprices⟩
    exact ⟨hids, hsignal, hquantity, filledQuantity_nonneg config hquantity, config.filledQuantity_le _,
      castPositive_plain.mpr hlimit, haverage.mpr hprices⟩

/-- The position of a paper order that opens one. -/
def paperPosition (config : PaperBrokerConfig) (plan : TradePlan) (price : Decimal) (now : Datetime) : PositionRow where
  positionId := "position-" ++ ("paper-order-" ++ digest plan.correlationId)
  signalId := plan.signalId
  symbol := plan.symbol
  securityId := plan.securityId
  side := plan.side
  quantity := config.filledQuantity plan.quantity
  averageEntryPrice := price.plain
  state := .opened
  openedAt := now.instant

theorem storedPosition_paper {price : Decimal} (hpos : 0 < config.filledQuantity plan.quantity) :
    Ledger.storedPosition (paperOrder config plan price now) now = some (paperPosition config plan price now) := by
  simp [Ledger.storedPosition, paperOrder, paperPosition, hpos, hpos.ne']

/-- The paper order of a plan that has passed the gates is recorded exactly when the tables take it. -/
theorem recordExecution_paper_iff (hL : L.Consistent) (hsignal : L.HasSignal plan.signalId)
    (hopen : L.openPositionForSecurity plan.securityId = none) (hutc : now.HasUtc) (hquantity : 0 < plan.quantity)
    (hlimit : plan.limitPrice.IsFinite) {price : Decimal}
    (hprice : config.fillPrice plan.side plan.limitPrice = some price) :
    (∃ L', Ledger.recordExecution (paperOrder config plan price now)
      (if config.filledQuantity plan.quantity = 0 then [] else [paperFill config plan price now]) now L = (.ok (), L')) ↔
      config.Storable L plan := by
  have hreach := (fillPrice_isSome_iff hlimit).mp (Option.isSome_iff_exists.mpr ⟨price, hprice⟩)
  have hpos := filledQuantity_pos_iff config hquantity
  have hfinite := (fillPrice_eq_some hprice).1
  simp only [Ledger.recordExecution_eq_ok, orderWritable_paper_iff hutc hquantity hlimit hprice,
    orderConstraints_paper_iff hsignal hquantity hprice]
  by_cases hratio : 0 < config.partialFillRatio
  · have hfilled := hpos.mpr hratio
    rw [if_neg hfilled.ne']
    constructor
    · rintro ⟨L', hfits, ⟨hids, hcast, hslipped⟩, L₁, hfills, L₂, hposition, -⟩
      obtain ⟨-, hfill, -⟩ := Ledger.insertFills_cons_eq_ok.mp hfills
      obtain rfl := Ledger.insertFills_ok hfills
      obtain ⟨hrow, -⟩ := Ledger.insertOrderPosition_eq_ok.mp hposition
      obtain ⟨-, -, -, hconstraints⟩ := hrow _ (storedPosition_paper hfilled)
      exact ⟨hreach, hfits, hcast, hids, hslipped, fun _ => hfill.1, fun _ p hp => (hconstraints.1 p hp).1⟩
    · intro h
      have hcastPrice := (castPositive_fillPrice_iff hprice).mpr (h.price hratio)
      have hfits : Ledger.Fits (config.filledQuantity plan.quantity) := by
        have hle := config.filledQuantity_le plan.quantity
        have hlt := h.fits
        exact ⟨by omega, by omega⟩
      refine ⟨_, h.fits, ⟨h.order, h.limit, h.price⟩, _, Ledger.insertFills_cons_eq_ok.mpr
        ⟨⟨hfinite, hutc, hfits⟩, ⟨h.fill hratio, ?_, hfilled, castPositive_plain.mpr hcastPrice⟩, rfl⟩, _,
        Ledger.insertOrderPosition_eq_ok.mpr ⟨fun row hrow => ?_, rfl⟩, hutc, rfl⟩
      · exact ⟨_, List.mem_append_right _ (List.mem_singleton_self _), rfl⟩
      · obtain rfl := Option.some.inj ((storedPosition_paper hfilled).symm.trans hrow)
        refine ⟨fun average haverage => ?_, hutc, hfits, ?_⟩
        · simp only [paperOrder, if_neg hfilled.ne', Option.mem_some_iff] at haverage
          exact haverage ▸ hfinite
        · refine ⟨fun p hp => ⟨h.position hratio p hp, fun heq => ?_⟩, hsignal, hfilled,
            castPositive_plain.mpr hcastPrice, fun _ p hp hstate hsecurity => ?_⟩
          · obtain ⟨o, ho, hopens⟩ := hL.position_order p hp
            exact (h.order o ho).2.2 (hopens.1.symm.trans heq)
          · have hnot := List.find?_eq_none.mp hopen p hp
            simp only [decide_eq_true_eq, not_and] at hnot
            exact hnot hsecurity hstate
  · have hzero := config.filledQuantity_zero hquantity hratio
    have hnone : Ledger.storedPosition (paperOrder config plan price now) now = none := by
      simp [Ledger.storedPosition, paperOrder, hzero]
    rw [if_pos hzero]
    constructor
    · rintro ⟨L', hfits, ⟨hids, hcast, hslipped⟩, -⟩
      exact ⟨hreach, hfits, hcast, hids, hslipped, fun h => absurd h hratio, fun h => absurd h hratio⟩
    · intro h
      exact ⟨_, h.fits, ⟨h.order, h.limit, h.price⟩, _, rfl, _,
        Ledger.insertOrderPosition_eq_ok.mpr ⟨by simp [hnone], rfl⟩, hutc, rfl⟩

/-- The paper execution of a plan adds its order, or raises and leaves the world as it was. -/
theorem run_executePaper_cases {c : ExecutionController} {w : World} (live : Option LiveBrokerGateway)
    (hL : w.ledger.Consistent) (hsignal : w.ledger.HasSignal plan.signalId) (hutc : now.HasUtc)
    (hvalid : c.Validates w.ledger plan now false) :
    (c.paper.Storable w.ledger plan ∧ ∃ result row L', row.signalId = plan.signalId ∧
        run (perform live) (c.executePaper plan now) w = (.ok result, { w with ledger := L' }) ∧
        L'.approvals = w.ledger.approvals ∧ L'.orders = w.ledger.orders ++ [row]) ∨
      ¬c.paper.Storable w.ledger plan ∧
        ∃ fault, run (perform live) (c.executePaper plan now) w = (.error fault, w) := by
  obtain ⟨hquantity, hlimit, -⟩ := planChecks_ok hvalid.checks
  unfold executePaper
  rcases hprice : c.paper.fillPrice plan.side plan.limitPrice with _ | price
  · obtain ⟨fault, hsubmit⟩ := submit_of_none now hprice
    rw [hsubmit]
    refine .inr ⟨fun h => ?_, fault, rfl⟩
    have hsome := (fillPrice_isSome_iff hlimit).mpr h.reach
    rw [hprice] at hsome
    cases hsome
  have hrecorded := recordExecution_paper_iff hL hsignal hvalid.unopened hutc hquantity hlimit hprice
  rw [submit_of_fillPrice hprice]
  dsimp only [Program.ofExcept_ok, Program.ret_bind, recordAndReport]
  rw [run_bind, run_recordExecution]
  rcases hrecord : Ledger.recordExecution (paperOrder c.paper plan price now)
    (if c.paper.filledQuantity plan.quantity = 0 then [] else [paperFill c.paper plan price now]) now w.ledger with
    ⟨fault | value, L'⟩
  · obtain rfl := Ledger.transaction_of_error hrecord
    refine .inr ⟨fun h => ?_, fault, rfl⟩
    obtain ⟨L', hok⟩ := hrecorded.mpr h
    rw [hrecord] at hok
    cases hok
  · obtain ⟨-, -, journal, events, rfl⟩ := Ledger.recordExecution_ok hrecord
    exact .inl ⟨hrecorded.mp ⟨_, hrecord⟩, _, _, _, rfl, rfl, rfl, rfl⟩

end Paper

/-- A stored plan has the id it is stored under. -/
theorem signalId_of_plan {L : Ledger} (hL : L.Consistent) {signalId : String} {plan : TradePlan}
    (h : L.plan signalId = some plan) : plan.signalId = signalId := by
  obtain ⟨s, hfind, rfl⟩ := Option.map_eq_some_iff.mp h
  have hid : s.signalId = signalId := by simpa using List.find?_some hfind
  rw [← hid, ← (hL.signal_plan s (List.mem_of_find?_eq_some hfind)).1]

/-- An approval that passes its checks executes its plan, or raises with the approval left behind. -/
theorem run_approve_approved {w : World} (hw : Reachable w) {c : ExecutionController} {signalId actor reason : String}
    {approvedAt : Option Datetime} {now : Datetime} {plan : TradePlan}
    (happroves : c.Approves w.ledger signalId actor reason (approvedAt.getD now) now plan) :
    (c.paper.Storable w.ledger plan ∧ ∃ result row L', row.signalId = signalId ∧
        run (perform c.live) (c.approve signalId actor reason approvedAt now) w =
          (.ok result, { w with ledger := L' }) ∧
        L'.approvals = w.ledger.approvals ++ [approvalRow signalId actor reason (approvedAt.getD now)] ∧
        L'.orders = w.ledger.orders ++ [row]) ∨
      ¬c.paper.Storable w.ledger plan ∧ ∃ fault events,
        run (perform c.live) (c.approve signalId actor reason approvedAt now) w = (.error fault, { w with
          ledger := w.ledger.withApproval (approvalRow signalId actor reason (approvedAt.getD now)) events }) := by
  have hL := hw.consistent
  rcases run_approve_cases c w signalId actor reason approvedAt now c.live with
    ⟨plan', events, happroves', hrun⟩ | ⟨hnot, -⟩
  swap
  · exact absurd happroves (hnot plan)
  obtain rfl := Option.some.inj (happroves'.stored.symm.trans happroves.stored)
  generalize hL' : w.ledger.withApproval (approvalRow signalId actor reason (approvedAt.getD now)) events = L' at hrun
  have hconsistent : L'.Consistent := by
    rw [← hL']
    exact (hL.recordApproval happroves.unapproved).frame _ _ _
  have hsignal : L'.HasSignal plan'.signalId := by
    subst hL'
    exact (hasSignal_of_plan hL happroves.stored :)
  have hvalid : c.Validates L' plan' now false := by
    subst hL'
    exact { happroves.valid with }
  have hstorable : c.paper.Storable L' plan' ↔ c.paper.Storable w.ledger plan' := by
    subst hL'
    exact ⟨fun h => { h with }, fun h => { h with }⟩
  have hutc : now.HasUtc := ⟨(approvalChecks_ok happroves.checks).1, happroves.limits.2.1⟩
  rw [hrun, ← hstorable]
  rcases run_executePaper_cases (w := { w with ledger := L' }) c.live hconsistent hsignal hutc hvalid with
    ⟨hstore, result, row, L'', hrow, hexecute, happrovals, horders⟩ | ⟨hstore, fault, hexecute⟩
  · refine .inl ⟨hstore, result, row, L'', hrow.trans (signalId_of_plan hL happroves.stored), hexecute, ?_, ?_⟩
    · rw [happrovals, ← hL']
      rfl
    · rw [horders, ← hL']
      rfl
  · exact .inr ⟨hstore, fault, events, by rw [hexecute, hL']⟩

/-- An approval that is left behind is not atomic. -/
theorem not_approvesAtomically {w w' : World} {signalId : String} {fault : Fault} {row : ApprovalRow}
    {events : List EventRow} (h : w'.ledger = w.ledger.withApproval row events) :
    ¬ApprovesAtomically signalId w (.error fault, w') := by
  intro hatomic
  have hlength : w'.ledger.approvals.length = w.ledger.approvals.length :=
    congrArg List.length (hatomic.raises fault rfl).1.2.1
  rw [h, Ledger.withApproval, List.length_append, List.length_singleton] at hlength
  omega

/-- An approval is atomic exactly when the tables take the order of the plan that it gets to execute. -/
theorem approve_atomic_iff {w : World} (hw : Reachable w) (c : ExecutionController) (signalId actor reason : String)
    (approvedAt : Option Datetime) (now : Datetime) :
    ApprovesAtomically signalId w (run (perform c.live) (c.approve signalId actor reason approvedAt now) w) ↔
      ∀ plan, c.Approves w.ledger signalId actor reason (approvedAt.getD now) now plan →
        c.paper.Storable w.ledger plan := by
  rcases run_approve_cases c w signalId actor reason approvedAt now c.live with
    ⟨plan, -, happroves, -⟩ | ⟨hnot, fault, hfault, hsame⟩
  swap
  · refine iff_of_true ⟨fun _ _ => hsame, fun result hresult => ?_⟩ fun plan h => absurd h (hnot plan)
    rw [hfault] at hresult
    cases hresult
  rcases run_approve_approved hw happroves with
    ⟨hstore, result, row, L', hrow, hrun, happrovals, horders⟩ | ⟨hstore, fault, events, hrun⟩
  · rw [hrun]
    refine iff_of_true ⟨fun _ h => (by cases h), fun _ _ => ⟨⟨_, rfl, happrovals⟩, row, hrow, horders⟩⟩ ?_
    intro plan' happroves'
    obtain rfl := Option.some.inj (happroves'.stored.symm.trans happroves.stored)
    exact hstore
  · rw [hrun]
    exact iff_of_false (not_approvesAtomically rfl) fun h => hstore (h plan happroves)

/-- A plan that a controller for the sample plans has submitted for approval. -/
def submittedWorld (plan : TradePlan) : World :=
  (World.fresh 0).runCalls [(sampleController .manualApproval, .submit plan (.utc 0))]

theorem approve_atomic_sample :
    ApprovesAtomically "s1" (submittedWorld (.sample "s1" "c1" "101"))
        (run (perform none) ((sampleController .manualApproval).approve "s1" "desk" "checked" none (.utc 0))
          (submittedWorld (.sample "s1" "c1" "101"))) ↔
      ∀ plan, (sampleController .manualApproval).Approves (submittedWorld (.sample "s1" "c1" "101")).ledger
          "s1" "desk" "checked" (.utc 0) (.utc 0) plan →
        PaperBrokerConfig.default.Storable (submittedWorld (.sample "s1" "c1" "101")).ledger plan :=
  approve_atomic_iff ⟨0, _, rfl⟩ (sampleController .manualApproval) "s1" "desk" "checked" none (.utc 0)

/-- The approval of a plan whose fill price is rounded to zero raises and stays behind, so it cannot be retried. -/
theorem approve_leaves_approval :
    let c := sampleController .manualApproval
    let w := submittedWorld finePlan
    let outcome := run (perform none) (c.approve "s1" "desk" "checked" none (.utc 0)) w
    w.ledger.plan "s1" = some finePlan ∧ ¬ApprovesAtomically "s1" w outcome ∧
      (∃ fault, outcome.1 = .error fault) ∧ outcome.2.ledger.orders = [] ∧
      outcome.2.ledger.approvals = [⟨"s1", "desk", "checked", 0⟩] ∧
      ∃ fault, (run (perform none) (c.approve "s1" "desk" "checked" none (.utc 0)) outcome.2).1 = .error fault := by
  intro c w outcome
  have happroves : c.Approves w.ledger "s1" "desk" "checked" (Option.getD none (.utc 0)) (.utc 0) finePlan := by
    refine ⟨by decide +kernel, by decide +kernel, by decide +kernel, by decide +kernel, ⟨?_, ?_, ?_, ?_⟩,
      ⟨by decide, by decide +kernel, by decide +kernel⟩, by decide, by decide +kernel⟩
    all_goals decide +kernel
  have hstore : ¬c.paper.Storable w.ledger finePlan := by
    intro h
    have hprice : c.paper.fillPrice .buy finePlan.limitPrice = some (.finite false 0 (-4)) := by decide +kernel
    have hpos := (fillPrice_pos_iff hprice).mpr (h.price (by decide +kernel))
    exact absurd hpos (by decide +kernel)
  rcases run_approve_approved ⟨0, _, rfl⟩ happroves with
    ⟨hstorable, -⟩ | ⟨-, fault, events, hrun⟩
  · exact absurd hstorable hstore
  have hrun : outcome = _ := hrun
  have horders : w.ledger.orders = [] := by decide +kernel
  have happrovals : w.ledger.approvals = [] := by decide +kernel
  rw [hrun]
  refine ⟨by decide +kernel, not_approvesAtomically rfl, ⟨fault, rfl⟩, horders, ?_, ?_⟩
  · show w.ledger.approvals ++ [_] = _
    rw [happrovals]
    decide +kernel
  · rcases run_approve_cases c { w with ledger := w.ledger.withApproval (approvalRow "s1" "desk" "checked" (.utc 0)) events }
      "s1" "desk" "checked" none (.utc 0) none with ⟨plan, events, hagain, -⟩ | ⟨-, fault, hfault, -⟩
    · exact absurd rfl (hagain.unapproved.1 _ (List.mem_append_right _ (List.mem_singleton_self _)))
    · exact ⟨fault, hfault⟩

end TecoQuant.Execution
