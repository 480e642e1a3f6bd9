import TecoQuant.BaseRun
import TecoQuant.BaseText

/-! The live feed of the market-data service. Calls of `start` and `stop` hold the lifecycle lock; the
acquisition worker's subscription callbacks create, rotate and detach the feed under the state lock, and
stop a detached feed outside it. Each locked section is one function on the fields the lock guards, and
the system runs the sections of all parties in any order. -/

namespace TecoQuant.Runtime

/-- A live feed, by the order of creation. -/
abbrev Feed := Nat

/-- How a call of a worker's `stop` ends: it returns true, it returns false, or it raises. -/
inductive StopOutcome where
  | stopped | timedOut | raised
  deriving DecidableEq, Repr

/-- How the call of the acquisition's `start` ends. -/
inductive StartOutcome where
  | started | refused | raised
  deriving DecidableEq, Repr

/-- How the creation of a feed ends: its factory raises, its `start` raises, or it runs. -/
inductive CreateOutcome where
  | started | factoryRaised | startRaised
  deriving DecidableEq, Repr

/-- The settings that the lifecycle reads. -/
structure FeedSettings where
  dhanLiveEnabled : Bool
  credentials : Bool
  deriving DecidableEq, Repr

/-- The fields of the service behind its state lock. -/
structure FeedService where
  liveFeed : Option Feed
  started : Bool
  stopping : Bool
  closed : Bool
  deriving DecidableEq, Repr

/-- What the locked section of a subscription callback does. -/
inductive Replacement where
  | ignored
  | rotated (feed : Feed)
  | detached (feed : Feed)
  | created (feed : Feed)
  deriving DecidableEq, Repr

namespace FeedService

/-- `start`, and whether it reaches the acquisition's `start`. -/
def start (settings : FeedSettings) (outcome : StartOutcome) (service : FeedService) : FeedService × Bool :=
  if service.closed then (service, false)
  else if service.started then (service, false)
  else if ¬settings.dhanLiveEnabled then (service, false)
  else if ¬settings.credentials then (service, false)
  else ({ service with started := outcome = .started, stopping := false }, true)

/-- The first locked section of `stop`, with the feed it captures; none when the service is closed. -/
def beginStop (service : FeedService) : Option (FeedService × Option Feed) :=
  if service.closed then none else some ({ service with stopping := true }, service.liveFeed)

/-- The last locked section of `stop`. -/
def finishStop (acquisitionStopped feedStopped : Bool) (service : FeedService) : FeedService :=
  if acquisitionStopped && feedStopped then ⟨none, false, false, true⟩ else service

/-- The locked section of `_replace_subscriptions`. -/
def replaceSubscriptions (settings : FeedSettings) (subscriptions : List (String × String)) (fresh : Feed)
    (outcome : CreateOutcome) (service : FeedService) : FeedService × Replacement :=
  if service.stopping || service.closed || !settings.credentials then (service, .ignored)
  else if subscriptions = [] then
    match service.liveFeed with
    | none => (service, .ignored)
    | some feed => ({ service with liveFeed := none }, .detached feed)
  else
    match service.liveFeed with
    | some feed => (service, .rotated feed)
    | none =>
        if outcome = .started then ({ service with liveFeed := some fresh }, .created fresh)
        else (service, .ignored)

/-- The locked section after a detached feed did not stop. -/
def restore (feed : Feed) (service : FeedService) : FeedService :=
  if service.liveFeed = none ∧ ¬service.stopping ∧ ¬service.closed then { service with liveFeed := some feed }
  else service

end FeedService

/-- Where the acquisition worker is. -/
inductive AcquisitionWorker where
  | ended
  | idle
  | detached (feed : Feed)
  | unsettled (feed : Feed)
  deriving DecidableEq, Repr

/-- The feed that a callback took from the service and has not settled. -/
def AcquisitionWorker.held : AcquisitionWorker → Option Feed
  | .ended | .idle => none
  | .detached feed | .unsettled feed => some feed

/-- Where the call of `stop` is that holds the lifecycle lock. -/
inductive StopPhase where
  | acquisition (captured : Option Feed)
  | feed (captured : Option Feed) (acquisitionStopped : Bool)
  | finish (acquisitionStopped feedStopped : Bool)
  deriving DecidableEq, Repr

/-- The service with its worker and its callers, and what happened to the feeds so far. -/
structure FeedSystem where
  service : FeedService
  worker : AcquisitionWorker
  stopper : Option StopPhase
  createdFeeds : Nat
  startedFeeds : List Feed
  stoppedFeeds : List Feed
  failedFeeds : List Feed
  stopReturned : Bool
  deriving DecidableEq, Repr

def FeedSystem.initial : FeedSystem := ⟨⟨none, false, false, false⟩, .ended, none, 0, [], [], [], false⟩

/-- A step of one of the parties. -/
inductive FeedEvent where
  | start (outcome : StartOutcome)
  | beginStop
  | stopAcquisition (outcome : StopOutcome)
  | stopFeed (outcome : StopOutcome)
  | finishStop
  | subscriptions (subscriptions : List (String × String)) (outcome : CreateOutcome)
  | stopDetached (outcome : StopOutcome)
  | restore
  | workerEnds
  deriving DecidableEq, Repr

namespace FeedSystem

/-- The end of a call of a feed's `stop`. -/
def recordStop (feed : Feed) (outcome : StopOutcome) (s : FeedSystem) : FeedSystem :=
  if outcome = .stopped then { s with stoppedFeeds := feed :: s.stoppedFeeds }
  else { s with failedFeeds := feed :: s.failedFeeds }

/-- A caller enters `start`, which no call of `stop` is inside; the acquisition starts no second worker. -/
def start (settings : FeedSettings) (outcome : StartOutcome) (s : FeedSystem) : Option FeedSystem :=
  let (service, called) := s.service.start settings outcome
  if s.stopper ≠ none then none
  else if called ∧ outcome = .started then
    if s.worker = .ended then some { s with service := service, worker := .idle } else none
  else some { s with service := service }

/-- A caller enters `stop`; it returns at once when the service is closed. -/
def beginStop (s : FeedSystem) : Option FeedSystem :=
  if s.stopper ≠ none then none
  else
    match s.service.beginStop with
    | none => some { s with stopReturned := true }
    | some (service, captured) => some { s with service := service, stopper := some (.acquisition captured) }

/-- The acquisition's `stop` ends; it returns true only after its worker. -/
def stopAcquisition (outcome : StopOutcome) (s : FeedSystem) : Option FeedSystem :=
  match s.stopper with
  | some (.acquisition captured) =>
      if outcome = .stopped ∧ s.worker ≠ .ended then none
      else some { s with stopper := some (.feed captured (outcome = .stopped)) }
  | _ => none

/-- `stop` stops the captured feed, when there is one. -/
def stopFeed (outcome : StopOutcome) (s : FeedSystem) : Option FeedSystem :=
  match s.stopper with
  | some (.feed none acquisitionStopped) => some { s with stopper := some (.finish acquisitionStopped true) }
  | some (.feed (some feed) acquisitionStopped) =>
      some { s.recordStop feed outcome with
        stopper := some (.finish acquisitionStopped (outcome = .stopped)) }
  | _ => none

/-- `stop` leaves; it raises unless both workers stopped. -/
def finishStop (s : FeedSystem) : Option FeedSystem :=
  match s.stopper with
  | some (.finish acquisitionStopped feedStopped) =>
      some { s with
        service := s.service.finishStop acquisitionStopped feedStopped
        stopper := none
        stopReturned := s.stopReturned || (acquisitionStopped && feedStopped) }
  | _ => none

/-- The worker enters its subscription callback. -/
def subscriptions (settings : FeedSettings) (subscriptions : List (String × String)) (outcome : CreateOutcome)
    (s : FeedSystem) : Option FeedSystem :=
  if s.worker ≠ .idle then none
  else
    let (service, replacement) :=
      s.service.replaceSubscriptions settings subscriptions s.createdFeeds outcome
    match replacement with
    | .ignored => some { s with service := service }
    | .rotated _ => some { s with service := service }
    | .detached feed => some { s with service := service, worker := .detached feed }
    | .created feed =>
        some { s with
          service := service
          createdFeeds := s.createdFeeds + 1
          startedFeeds := feed :: s.startedFeeds }

/-- The callback stops the feed it detached. -/
def stopDetached (outcome : StopOutcome) (s : FeedSystem) : Option FeedSystem :=
  match s.worker with
  | .detached feed =>
      some { s.recordStop feed outcome with
        worker := if outcome = .stopped then .idle else .unsettled feed }
  | _ => none

/-- The callback settles a feed that did not stop, and raises. -/
def restore (s : FeedSystem) : Option FeedSystem :=
  match s.worker with
  | .unsettled feed => some { s with service := s.service.restore feed, worker := .idle }
  | _ => none

def workerEnds (s : FeedSystem) : Option FeedSystem :=
  if s.worker = .idle then some { s with worker := .ended } else none

/-- The steps of the system. -/
def step (settings : FeedSettings) (s : FeedSystem) : FeedEvent → Option FeedSystem
  | .start outcome => s.start settings outcome
  | .beginStop => s.beginStop
  | .stopAcquisition outcome => s.stopAcquisition outcome
  | .stopFeed outcome => s.stopFeed outcome
  | .finishStop => s.finishStop
  | .subscriptions set outcome => s.subscriptions settings set outcome
  | .stopDetached outcome => s.stopDetached outcome
  | .restore => s.restore
  | .workerEnds => s.workerEnds

/-- A run of the system. -/
def run (settings : FeedSettings) (events : List FeedEvent) : Option FeedSystem :=
  Run.attempt (step settings) .initial events

end FeedSystem

end TecoQuant.Runtime
