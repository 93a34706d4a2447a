import JobScheduler.Queue

/-! The outbox poller's flush pass. -/
namespace JobScheduler

namespace OutboxPoller

def batchSize : Nat := 50
def maxRetryCount : Nat := 5

/-- Publish one event, then record how that went. -/
def flushEvent (event : IOutboxEvent) : Async Unit :=
  try
    publishToExchange event.type event.payload
    let processedAt ← dateNow
    await (.completeOutbox event.id processedAt)
  catch error =>
    let newRetryCount := event.retryCount + 1
    let isDead : Bool := maxRetryCount ≤ newRetryCount
    await (.retryOutbox event.id (if isDead then .dead else .pending) newRetryCount error.message)

def flushEvents : List IOutboxEvent → Async Unit
  | [] => pure ()
  | event :: events => do
    flushEvent event
    flushEvents events

def flush : Async Unit := do
  let events ← await (.findOutbox maxRetryCount batchSize)
  flushEvents events

end OutboxPoller

end JobScheduler
