import Mathlib.Logic.Function.Basic
import Mathlib.Data.List.Basic

/-! Programs over atomic commands. A program returns, raises, or issues one command and continues
with its reply; a handler gives the commands their meaning on a shared state. The same program is
run alone (`run`) and as one of several threads whose commands interleave (`step`). What a program
guarantees about its commands, whatever their replies, then holds of both. -/

namespace Atomic

/-- A program issuing commands `Cmd`, raising `ε` and returning `α`. -/
inductive Program (Cmd : Type) (Reply : Cmd → Type) (ε α : Type) : Type where
  | ret (value : α)
  | raise (error : ε)
  | call (cmd : Cmd) (next : Reply cmd → Program Cmd Reply ε α)

namespace Program

variable {Cmd : Type} {Reply : Cmd → Type} {ε α β : Type}

def bind : Program Cmd Reply ε α → (α → Program Cmd Reply ε β) → Program Cmd Reply ε β
  | .ret value, next => next value
  | .raise error, _ => .raise error
  | .call cmd cont, next => .call cmd fun reply => (cont reply).bind next

instance : Monad (Program Cmd Reply ε) where
  pure := .ret
  bind := bind

/-- Issue one command and return its reply. -/
def command (cmd : Cmd) : Program Cmd Reply ε (Reply cmd) := .call cmd .ret

/-- A pure computation that may fail. -/
def ofExcept : Except ε α → Program Cmd Reply ε α
  | .ok value => .ret value
  | .error error => .raise error

@[simp] theorem pure_eq_ret (value : α) :
    (pure value : Program Cmd Reply ε α) = .ret value := rfl

@[simp] theorem ret_bind (value : α) (next : α → Program Cmd Reply ε β) :
    (.ret value >>= next) = next value := rfl

@[simp] theorem raise_bind (error : ε) (next : α → Program Cmd Reply ε β) :
    ((.raise error : Program Cmd Reply ε α) >>= next) = .raise error := rfl

@[simp] theorem call_bind (cmd : Cmd) (cont : Reply cmd → Program Cmd Reply ε α)
    (next : α → Program Cmd Reply ε β) :
    (.call cmd cont >>= next) = .call cmd fun reply => cont reply >>= next := rfl

@[simp] theorem command_bind (cmd : Cmd) (next : Reply cmd → Program Cmd Reply ε β) :
    (command cmd >>= next) = .call cmd next := rfl

@[simp] theorem ofExcept_ok (value : α) :
    (ofExcept (.ok value) : Program Cmd Reply ε α) = .ret value := rfl

@[simp] theorem ofExcept_error (error : ε) :
    (ofExcept (.error error) : Program Cmd Reply ε α) = .raise error := rfl

/-- The program has returned or raised. -/
def Finished : Program Cmd Reply ε α → Prop
  | .call _ _ => False
  | _ => True

instance (p : Program Cmd Reply ε α) : Decidable p.Finished := by
  cases p <;> unfold Finished <;> infer_instance

end Program

/-- What each command replies and does to the shared state. -/
abbrev Handler (Cmd : Type) (Reply : Cmd → Type) (σ : Type) := (cmd : Cmd) → σ → Reply cmd × σ

section Sequential

variable {Cmd : Type} {Reply : Cmd → Type} {σ ε α β : Type} (handle : Handler Cmd Reply σ)

/-- Run a program alone. An exception keeps the state its commands have left. -/
def run : Program Cmd Reply ε α → σ → Except ε α × σ
  | .ret value, s => (.ok value, s)
  | .raise error, s => (.error error, s)
  | .call cmd next, s => run (next (handle cmd s).1) (handle cmd s).2

@[simp] theorem run_ret (value : α) (s : σ) :
    run (ε := ε) handle (.ret value) s = (.ok value, s) := rfl

@[simp] theorem run_raise (error : ε) (s : σ) :
    run (α := α) handle (.raise error) s = (.error error, s) := rfl

@[simp] theorem run_call (cmd : Cmd) (next : Reply cmd → Program Cmd Reply ε α) (s : σ) :
    run handle (.call cmd next) s = run handle (next (handle cmd s).1) (handle cmd s).2 := rfl

@[simp] theorem run_command (cmd : Cmd) (s : σ) :
    run (ε := ε) handle (Program.command cmd) s = (.ok (handle cmd s).1, (handle cmd s).2) := rfl

@[simp] theorem run_ofExcept (result : Except ε α) (s : σ) :
    run handle (Program.ofExcept result) s = (result, s) := by
  cases result <;> rfl

theorem run_bind (p : Program Cmd Reply ε α) (next : α → Program Cmd Reply ε β) (s : σ) :
    run handle (p >>= next) s =
      match run handle p s with
      | (.ok value, s') => run handle (next value) s'
      | (.error error, s') => (.error error, s') := by
  induction p generalizing s with
  | ret value => rfl
  | raise error => rfl
  | call cmd cont ih => exact ih _ _

theorem run_bind_ok {p : Program Cmd Reply ε α} {s s' : σ} {value : α}
    (h : run handle p s = (.ok value, s')) (next : α → Program Cmd Reply ε β) :
    run handle (p >>= next) s = run handle (next value) s' := by
  rw [run_bind, h]

theorem run_bind_error {p : Program Cmd Reply ε α} {s s' : σ} {error : ε}
    (h : run handle p s = (.error error, s')) (next : α → Program Cmd Reply ε β) :
    run handle (p >>= next) s = (.error error, s') := by
  rw [run_bind, h]

/-- A property every command keeps is kept by every program. -/
theorem run_invariant {Inv : σ → Prop} (hstep : ∀ cmd s, Inv s → Inv (handle cmd s).2)
    (p : Program Cmd Reply ε α) {s : σ} (hs : Inv s) : Inv (run handle p s).2 := by
  induction p generalizing s with
  | ret value => exact hs
  | raise error => exact hs
  | call cmd cont ih => exact ih _ (hstep cmd s hs)

end Sequential

/-! ### Guarantees -/

/-- A command with its reply. -/
abbrev Event (Cmd : Type) (Reply : Cmd → Type) := (cmd : Cmd) × Reply cmd

namespace Program

variable {Cmd : Type} {Reply : Cmd → Type} {ε α β : Type}
  {allowed allowed' : List (Event Cmd Reply) → Cmd → Prop}
  {post post' : List (Event Cmd Reply) → Except ε α → Prop}

/-- Whatever the replies are, each command is allowed after the events before it, and `post` relates
the result to all events. -/
def Guarantees (allowed : List (Event Cmd Reply) → Cmd → Prop)
    (post : List (Event Cmd Reply) → Except ε α → Prop) :
    Program Cmd Reply ε α → List (Event Cmd Reply) → Prop
  | .ret value, log => post log (.ok value)
  | .raise error, log => post log (.error error)
  | .call cmd next, log =>
      allowed log cmd ∧ ∀ reply, (next reply).Guarantees allowed post (log ++ [⟨cmd, reply⟩])

theorem Guarantees.mono (hallowed : ∀ log cmd, allowed log cmd → allowed' log cmd)
    (hpost : ∀ log result, post log result → post' log result) {p : Program Cmd Reply ε α}
    {log : List (Event Cmd Reply)} (h : p.Guarantees allowed post log) :
    p.Guarantees allowed' post' log := by
  induction p generalizing log with
  | ret value => exact hpost _ _ h
  | raise error => exact hpost _ _ h
  | call cmd next ih => exact ⟨hallowed _ _ h.1, fun reply => ih reply (h.2 reply)⟩

/-- A finished program has its result. -/
theorem Guarantees.ends {p : Program Cmd Reply ε α} {log : List (Event Cmd Reply)}
    (h : p.Guarantees allowed post log) (hp : p.Finished) : ∃ result, post log result := by
  cases p with
  | ret value => exact ⟨_, h⟩
  | raise error => exact ⟨_, h⟩
  | call cmd next => exact hp.elim

/-- The rule for sequencing: the second program starts from the events of the first. -/
theorem guarantees_bind {allowed : List (Event Cmd Reply) → Cmd → Prop}
    {post : List (Event Cmd Reply) → Except ε β → Prop} {p : Program Cmd Reply ε α}
    {next : α → Program Cmd Reply ε β} {log : List (Event Cmd Reply)}
    (h : p.Guarantees allowed (fun log' result =>
      match result with
      | .ok value => (next value).Guarantees allowed post log'
      | .error error => post log' (.error error)) log) :
    (p >>= next).Guarantees allowed post log := by
  induction p generalizing log with
  | ret value => exact h
  | raise error => exact h
  | call cmd cont ih => exact ⟨h.1, fun reply => ih reply (h.2 reply)⟩

theorem guarantees_command_bind {cmd : Cmd} {next : Reply cmd → Program Cmd Reply ε α}
    {log : List (Event Cmd Reply)} (hcmd : allowed log cmd)
    (h : ∀ reply, (next reply).Guarantees allowed post (log ++ [⟨cmd, reply⟩])) :
    (command cmd >>= next).Guarantees allowed post log :=
  ⟨hcmd, h⟩

/-- A transaction and what follows when it does not raise. -/
theorem guarantees_ofExcept_bind {result : Except ε β} {next : β → Program Cmd Reply ε α}
    {log : List (Event Cmd Reply)}
    (hok : ∀ value, result = .ok value → (next value).Guarantees allowed post log)
    (herror : ∀ error, result = .error error → post log (.error error)) :
    (ofExcept result >>= next).Guarantees allowed post log := by
  cases result with
  | ok value => exact hok value rfl
  | error error => exact herror error rfl

theorem guarantees_ofExcept {result : Except ε α} {log : List (Event Cmd Reply)}
    (h : post log result) : (ofExcept result).Guarantees allowed post log := by
  cases result <;> exact h

/-- Every command the program may issue, whatever the replies are, meets `P`. -/
def Only (P : Cmd → Prop) : Program Cmd Reply ε α → Prop
  | .call cmd next => P cmd ∧ ∀ reply, (next reply).Only P
  | _ => True

section Only

variable {P : Cmd → Prop} {Kept : List (Event Cmd Reply) → Prop}

theorem only_bind {p : Program Cmd Reply ε α} {next : α → Program Cmd Reply ε β} (hp : p.Only P)
    (hnext : ∀ value, (next value).Only P) : (p >>= next).Only P := by
  induction p with
  | ret value => exact hnext value
  | raise error => trivial
  | call cmd cont ih => exact ⟨hp.1, fun reply => ih reply (hp.2 reply)⟩

theorem only_ofExcept (result : Except ε α) :
    (ofExcept result : Program Cmd Reply ε α).Only P := by
  cases result <;> trivial

theorem Only.mono {Q : Cmd → Prop} (hPQ : ∀ cmd, P cmd → Q cmd) {p : Program Cmd Reply ε α}
    (hp : p.Only P) : p.Only Q := by
  induction p with
  | ret value => trivial
  | raise error => trivial
  | call cmd next ih => exact ⟨hPQ cmd hp.1, fun reply => ih reply (hp.2 reply)⟩

/-- Commands that are allowed after a kept log, and keep it. -/
theorem Only.guarantees (hallowed : ∀ log cmd, P cmd → Kept log → allowed log cmd)
    (hkept : ∀ log cmd reply, P cmd → Kept log → Kept (log ++ [⟨cmd, reply⟩]))
    {p : Program Cmd Reply ε α} (hp : p.Only P) {log : List (Event Cmd Reply)} (hlog : Kept log) :
    p.Guarantees allowed (fun log' _ => Kept log') log := by
  induction p generalizing log with
  | ret value => exact hlog
  | raise error => exact hlog
  | call cmd next ih =>
      exact ⟨hallowed _ _ hp.1 hlog, fun reply => ih reply (hp.2 reply) (hkept _ _ _ hp.1 hlog)⟩

end Only

end Program

/-- A property that the commands of a program keep is kept by the program. -/
theorem run_only {Cmd : Type} {Reply : Cmd → Type} {σ ε α : Type} {handle : Handler Cmd Reply σ}
    {P : Cmd → Prop} {Inv : σ → Prop} (hstep : ∀ cmd s, P cmd → Inv s → Inv (handle cmd s).2)
    {p : Program Cmd Reply ε α} (hp : p.Only P) {s : σ} (hs : Inv s) : Inv (run handle p s).2 := by
  induction p generalizing s with
  | ret value => exact hs
  | raise error => exact hs
  | call cmd next ih => exact ih _ (hp.2 _) (hstep cmd s hp.1 hs)

/-- What a program guarantees about its commands, every state meets that these commands keep. -/
theorem run_guarantees {Cmd : Type} {Reply : Cmd → Type} {σ ε α : Type} {handle : Handler Cmd Reply σ}
    {allowed : List (Event Cmd Reply) → Cmd → Prop} {post : List (Event Cmd Reply) → Except ε α → Prop}
    {Inv : List (Event Cmd Reply) → σ → Prop}
    (hstep : ∀ log cmd s, allowed log cmd → Inv log s →
      Inv (log ++ [⟨cmd, (handle cmd s).1⟩]) (handle cmd s).2)
    {p : Program Cmd Reply ε α} {log : List (Event Cmd Reply)} {s : σ}
    (hp : p.Guarantees allowed post log) (hs : Inv log s) :
    ∃ log', Inv log' (run handle p s).2 ∧ post log' (run handle p s).1 := by
  induction p generalizing log s with
  | ret value => exact ⟨log, hs, hp⟩
  | raise error => exact ⟨log, hs, hp⟩
  | call cmd next ih => exact ih _ (hp.2 _) (hstep log cmd s hp.1 hs)

/-! ### Interleavings -/

/-- A program under way: what is left of it, and the events so far. -/
structure Thread (Cmd : Type) (Reply : Cmd → Type) (ε α : Type) where
  program : Program Cmd Reply ε α
  log : List (Event Cmd Reply)

/-- Threads over a shared state. -/
structure Pool (ι Cmd : Type) (Reply : Cmd → Type) (σ ε α : Type) where
  threads : ι → Thread Cmd Reply ε α
  state : σ

namespace Pool

variable {ι Cmd : Type} {Reply : Cmd → Type} {σ ε α : Type} [DecidableEq ι]

/-- Every thread at the start of its program. -/
def start (programs : ι → Program Cmd Reply ε α) (s : σ) : Pool ι Cmd Reply σ ε α :=
  ⟨fun i => ⟨programs i, []⟩, s⟩

/-- One thread executes its next command; a finished thread has none. -/
def step (handle : Handler Cmd Reply σ) (pool : Pool ι Cmd Reply σ ε α) (i : ι) :
    Pool ι Cmd Reply σ ε α :=
  match (pool.threads i).program with
  | .call cmd next =>
      ⟨Function.update pool.threads i
        ⟨next (handle cmd pool.state).1, (pool.threads i).log ++ [⟨cmd, (handle cmd pool.state).1⟩]⟩,
        (handle cmd pool.state).2⟩
  | _ => pool

/-- Execute one command of each thread of a schedule, in order. -/
def runSchedule (handle : Handler Cmd Reply σ) (pool : Pool ι Cmd Reply σ ε α) (schedule : List ι) :
    Pool ι Cmd Reply σ ε α :=
  schedule.foldl (step handle) pool

/-- Every step of the schedule meets a condition on the pool before it. -/
def EveryStep (handle : Handler Cmd Reply σ) (condition : Pool ι Cmd Reply σ ε α → ι → Prop) :
    Pool ι Cmd Reply σ ε α → List ι → Prop
  | _, [] => True
  | pool, i :: schedule => condition pool i ∧ EveryStep handle condition (step handle pool i) schedule

instance decidableEveryStep {handle : Handler Cmd Reply σ} {condition : Pool ι Cmd Reply σ ε α → ι → Prop}
    [∀ pool i, Decidable (condition pool i)] (pool : Pool ι Cmd Reply σ ε α) (schedule : List ι) :
    Decidable (EveryStep handle condition pool schedule) :=
  match schedule with
  | [] => isTrue trivial
  | i :: schedule =>
      @instDecidableAnd _ _ _ (decidableEveryStep (step handle pool i) schedule)

section Schedules

variable {handle : Handler Cmd Reply σ} {condition condition' : Pool ι Cmd Reply σ ε α → ι → Prop}
  {pool : Pool ι Cmd Reply σ ε α} {schedule : List ι}

theorem runSchedule_append (before rest : List ι) :
    runSchedule handle pool (before ++ rest) =
      runSchedule handle (runSchedule handle pool before) rest :=
  List.foldl_append

theorem everyStep_append {before rest : List ι} :
    EveryStep handle condition pool (before ++ rest) ↔
      EveryStep handle condition pool before ∧
        EveryStep handle condition (runSchedule handle pool before) rest := by
  induction before generalizing pool with
  | nil => simp [EveryStep, runSchedule]
  | cons i before ih =>
      rw [List.cons_append, EveryStep, EveryStep, ih, and_assoc]
      rfl

theorem EveryStep.and (h : EveryStep handle condition pool schedule)
    (h' : EveryStep handle condition' pool schedule) :
    EveryStep handle (fun pool i => condition pool i ∧ condition' pool i) pool schedule := by
  induction schedule generalizing pool with
  | nil => trivial
  | cons i schedule ih => exact ⟨⟨h.1, h'.1⟩, ih h.2 h'.2⟩

end Schedules

/-- A property that the steps meeting a condition keep holds after every schedule of such steps. -/
theorem runSchedule_invariant {handle : Handler Cmd Reply σ}
    {condition : Pool ι Cmd Reply σ ε α → ι → Prop} {Inv : Pool ι Cmd Reply σ ε α → Prop}
    (hstep : ∀ pool i, condition pool i → Inv pool → Inv (step handle pool i))
    {pool : Pool ι Cmd Reply σ ε α} {schedule : List ι} (h : EveryStep handle condition pool schedule)
    (hpool : Inv pool) : Inv (runSchedule handle pool schedule) := by
  induction schedule generalizing pool with
  | nil => exact hpool
  | cons i schedule ih => exact ih h.2 (hstep pool i h.1 hpool)

end Pool
end Atomic
